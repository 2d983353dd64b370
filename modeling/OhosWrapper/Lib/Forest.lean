import Mathlib.Data.List.Nodup
import Mathlib.Logic.Function.Basic

/-!
# Objects with pointers to their children

The objects of one level have lists of addresses of objects of the level below. What a parent sees
of its children is what memory holds at those addresses (`view`).

**Sharing.** If no address is listed twice, a write to one object is seen by one parent, at one
place (`Unshared.view_update`): the level above is updated there, as a value would be. A parent
whose children are replaced by new objects keeps it so (`Unshared.adopt`).

**Making objects.** A loop that makes an object for each value of a list gives distinct new
addresses, at which the values are found (`Makes.makeAll`).
-/

namespace Forest

variable {ρ α β H : Type*}

/-! ## Views -/

/-- What the parents see of their children. -/
def view (children : ρ → List ℕ) (f : ℕ → β) (p : ρ) : List β := (children p).map f

/-- No child is listed twice, by one parent or by two. -/
structure Unshared (children : ρ → List ℕ) : Prop where
  nodup : ∀ p, (children p).Nodup
  disjoint : ∀ p p', p ≠ p' → (children p).Disjoint (children p')

/-- All children are at addresses below `next`. -/
def Below (next : ℕ) (children : ρ → List ℕ) : Prop := ∀ p, ∀ a ∈ children p, a < next

variable {children : ρ → List ℕ} {next next' : ℕ} {f g : ℕ → β} {as : List ℕ}

theorem getElem?_view (children : ρ → List ℕ) (f : ℕ → β) (p : ρ) (i : ℕ) :
    (view children f p)[i]? = ((children p)[i]?).map f := List.getElem?_map

theorem unshared_nil : Unshared fun _ : ρ => [] :=
  ⟨fun _ => List.nodup_nil, fun _ _ _ => List.disjoint_nil_left _⟩

theorem below_nil (next : ℕ) : Below next fun _ : ρ => [] := fun _ _ ha => nomatch ha

/-- Views depend on the children only. -/
theorem view_congr (h : ∀ p, ∀ a ∈ children p, f a = g a) : view children f = view children g :=
  funext fun p => List.map_congr_left (h p)

theorem Below.view_congr (hb : Below next children) (h : ∀ a < next, f a = g a) :
    view children f = view children g :=
  Forest.view_congr fun p a ha => h a (hb p a ha)

/-- **One write, one place.** -/
theorem Unshared.view_update [DecidableEq ρ] (h : Unshared children) {p : ρ} {i a : ℕ}
    (hi : (children p)[i]? = some a) (f : ℕ → β) (v : β) :
    view children (Function.update f a v) =
      Function.update (view children f) p ((view children f p).set i v) := by
  have ha : a ∈ children p := List.mem_of_getElem? hi
  funext p'
  by_cases hp : p' = p
  · subst hp
    rw [Function.update_self]
    apply List.ext_getElem?
    intro k
    rw [List.getElem?_set, getElem?_view, getElem?_view]
    by_cases hk : i = k
    · subst hk
      obtain ⟨hlt, -⟩ := List.getElem?_eq_some_iff.1 hi
      rw [if_pos rfl, hi, Option.map_some, Function.update_self, if_pos]
      rwa [view, List.length_map]
    · rw [if_neg hk]
      cases hb : (children p')[k]? with
      | none => rfl
      | some b =>
        have hne : b ≠ a := by
          intro hba
          obtain ⟨hlt, -⟩ := List.getElem?_eq_some_iff.1 hi
          exact hk ((List.getElem?_inj hlt (h.nodup p')).1 (by rw [hi, hb, hba]))
        rw [Option.map_some, Option.map_some, Function.update_of_ne hne]
  · rw [Function.update_of_ne hp]
    refine List.map_congr_left fun b hb => Function.update_of_ne ?_ _ _
    intro hba
    exact h.disjoint p' p hp hb (hba ▸ ha)

/-! ## New children -/

section

variable [DecidableEq ρ]

theorem view_adopt (children : ρ → List ℕ) (p : ρ) (as : List ℕ) (f : ℕ → β) :
    view (Function.update children p as) f = Function.update (view children f) p (as.map f) := by
  funext p'
  by_cases hp : p' = p
  · rw [hp, Function.update_self, view, Function.update_self]
  · rw [Function.update_of_ne hp, view, Function.update_of_ne hp, view]

/-- A parent gets children that are new. -/
theorem Unshared.adopt (h : Unshared children) (hb : Below next children) (hnodup : as.Nodup)
    (hnew : ∀ a ∈ as, next ≤ a) (p : ρ) : Unshared (Function.update children p as) := by
  have hold : ∀ p', (children p').Disjoint as := by
    intro p' a ha ha'
    have hlt := hb p' a ha
    have hle := hnew a ha'
    omega
  refine ⟨fun p' => ?_, fun p₁ p₂ hne => ?_⟩
  · rw [Function.update_apply]
    split_ifs
    · exact hnodup
    · exact h.nodup p'
  · by_cases h₁ : p₁ = p
    · subst h₁
      rw [Function.update_self, Function.update_of_ne hne.symm]
      exact List.disjoint_symm (hold p₂)
    · rw [Function.update_of_ne h₁]
      by_cases h₂ : p₂ = p
      · rw [h₂, Function.update_self]
        exact hold p₁
      · rw [Function.update_of_ne h₂]
        exact h.disjoint p₁ p₂ hne

theorem Below.adopt (hb : Below next children) (hle : next ≤ next') (has : ∀ a ∈ as, a < next')
    (p : ρ) : Below next' (Function.update children p as) := by
  intro p' a ha
  rw [Function.update_apply] at ha
  split_ifs at ha
  · exact has a ha
  · exact Nat.lt_of_lt_of_le (hb p' a ha) hle

end

theorem Below.mono (hb : Below next children) (hle : next ≤ next') : Below next' children :=
  fun p a ha => Nat.lt_of_lt_of_le (hb p a ha) hle

/-! ## Making objects -/

/-- `for (x : xs) v.emplace_back(make(x))`, with the addresses of the new objects. -/
def makeAll (make : H → α → H × ℕ) : H → List α → H × List ℕ
  | h, [] => (h, [])
  | h, x :: xs =>
    ((makeAll make (make h x).1 xs).1, (make h x).2 :: (makeAll make (make h x).1 xs).2)

/-- What making one object leaves alone, the loop leaves alone. -/
theorem makeAll_keeps {γ : Type*} {make : H → α → H × ℕ} (P : H → γ)
    (h : ∀ m x, P (make m x).1 = P m) (m : H) (xs : List α) : P (makeAll make m xs).1 = P m := by
  induction xs generalizing m with
  | nil => rfl
  | cons x xs ih => exact (ih _).trans (h m x)

variable (Valid : H → Prop) (Extends : H → H → Prop) (newest : H → ℕ) (read : H → ℕ → α)

/-- `make` puts a value at a new address, where `read` finds it, and leaves the old ones alone. -/
structure Makes (make : H → α → H × ℕ) : Prop where
  refl : ∀ h, Extends h h
  trans : ∀ h h' h'', Extends h h' → Extends h' h'' → Extends h h''
  keeps : ∀ h h', Extends h h' → newest h ≤ newest h' ∧ ∀ a < newest h, read h' a = read h a
  valid : ∀ h x, Valid h → Valid (make h x).1
  grows : ∀ h x, Valid h → Extends h (make h x).1
  new : ∀ h x, Valid h → newest h ≤ (make h x).2 ∧ (make h x).2 < newest (make h x).1
  found : ∀ h x, Valid h → read (make h x).1 (make h x).2 = x

/-- What a loop leaves: a valid memory that extends the old one, and the values at new addresses. -/
structure Made (h : H) (xs : List α) (r : H × List ℕ) : Prop where
  valid : Valid r.1
  grows : Extends h r.1
  nodup : r.2.Nodup
  new : ∀ a ∈ r.2, newest h ≤ a ∧ a < newest r.1
  found : r.2.map (read r.1) = xs

variable {Valid Extends newest read}

/-- **Loops that make objects.** -/
theorem Makes.makeAll {make : H → α → H × ℕ} (hm : Makes Valid Extends newest read make) {h : H}
    (hv : Valid h) (xs : List α) :
    Made Valid Extends newest read h xs (Forest.makeAll make h xs) := by
  induction xs generalizing h with
  | nil => exact ⟨hv, hm.refl h, List.nodup_nil, fun a ha => (nomatch ha), rfl⟩
  | cons x xs ih =>
    obtain ⟨hle, hlt⟩ := hm.new h x hv
    have hgrows := hm.grows h x hv
    have hrest := ih (hm.valid h x hv)
    obtain ⟨hnext, hkeeps⟩ := hm.keeps _ _ hrest.grows
    refine ⟨hrest.valid, hm.trans _ _ _ hgrows hrest.grows, ?_, fun a ha => ?_, ?_⟩
    · refine List.nodup_cons.2 ⟨fun ha => ?_, hrest.nodup⟩
      have := (hrest.new _ ha).1
      omega
    · rcases List.mem_cons.1 ha with rfl | ha
      · exact ⟨hle, Nat.lt_of_lt_of_le hlt hnext⟩
      · have := (hm.keeps _ _ hgrows).1
        obtain ⟨h₁, h₂⟩ := hrest.new a ha
        exact ⟨Nat.le_trans this h₁, h₂⟩
    · rw [Forest.makeAll, List.map_cons, hrest.found, hkeeps _ hlt, hm.found h x hv]

end Forest
