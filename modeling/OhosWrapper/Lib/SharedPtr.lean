import Mathlib.Data.Finset.Card
import Mathlib.Data.List.Count

/-!
# Shared pointers

Reference counting as `std::shared_ptr` does it, for objects that own a resource each and give it
back in their destructor. The pointers are variables `ρ`; each is null or points to a control
block, which has the object and counts the pointers to it. The object is destroyed, and its block
freed, when the last of them lets go.

**Temporaries.** An assignment copies its right side to a temporary, swaps the temporary with the
variable and destroys it, with what the variable had before. Between these three steps the
temporary is one more pointer (`Counted t`).

**Invariant (`Valid`).** The use count of a block is the number of pointers to it, and every
resource is owned by one object that is not destroyed, or was given back once.

**Theorem (`Valid.given_back`).** A resource was not given back if a pointer refers to the object
that owns it, and once if none does. So it is given back in the step in which the last pointer
lets go (`Valid.step_given_back`).
-/

namespace SharedPtr

variable {ρ π η γ : Type*}

/-! ## Pointers and control blocks -/

/-- A class whose objects own a resource each, which the destructor gives back by a call. -/
structure Raii (π η γ : Type*) [DecidableEq η] [DecidableEq γ] where
  owns : π → η
  giveBack : η → γ
  destroy : π → List γ
  gives_back : ∀ o h, (destroy o).count (giveBack h) = if owns o = h then 1 else 0

/-- A destructor that makes one call. -/
theorem count_giveBack [DecidableEq η] [DecidableEq γ] {giveBack : η → γ}
    (hinj : Function.Injective giveBack) (k h : η) :
    [giveBack k].count (giveBack h) = if k = h then 1 else 0 := by
  simp only [List.count_singleton, beq_iff_eq, hinj.eq_iff]

structure ControlBlock (π : Type*) where
  object : π
  use_count : ℕ

/-- The pointers, the blocks in use, the objects ever made, and the calls of their destructors. -/
structure Store (ρ π γ : Type*) where
  pointers : ρ → Option ℕ
  blocks : ℕ → Option (ControlBlock π)
  next : ℕ
  made : List π
  calls : List γ

namespace Store

def empty : Store ρ π γ := ⟨fun _ => none, fun _ => none, 0, [], []⟩

/-- The object in a block. -/
def objectAt (s : Store ρ π γ) (a : ℕ) : Option π := (s.blocks a).map ControlBlock.object

/-- The object a pointer refers to. -/
def deref (s : Store ρ π γ) (x : ρ) : Option π := (s.pointers x).bind s.objectAt

def useCount (s : Store ρ π γ) (a : ℕ) : ℕ := (s.blocks a).elim 0 ControlBlock.use_count

/-- One more pointer to what `p` points to: the temporary. -/
def retain (s : Store ρ π γ) : Option ℕ → Store ρ π γ
  | none => s
  | some a => { s with
      blocks := Function.update s.blocks a
        ((s.blocks a).map fun b => { b with use_count := b.use_count + 1 }) }

/-- `std::make_shared`, into the temporary. -/
def alloc (s : Store ρ π γ) (o : π) : Store ρ π γ :=
  { s with
    blocks := Function.update s.blocks s.next (some ⟨o, 1⟩)
    next := s.next + 1
    made := s.made ++ [o] }

/-- The variable takes over the temporary `p`. What it had before is the temporary now. -/
def swap [DecidableEq ρ] (s : Store ρ π γ) (x : ρ) (p : Option ℕ) : Store ρ π γ :=
  { s with pointers := Function.update s.pointers x p }

theorem objectAt_update {s s' : Store ρ π γ} {a : ℕ} {v : Option (ControlBlock π)}
    (h : s'.blocks = Function.update s.blocks a v) :
    s'.objectAt = Function.update s.objectAt a (v.map ControlBlock.object) := by
  funext a'
  unfold objectAt
  by_cases ha : a' = a
  · rw [h, ha, Function.update_self, Function.update_self]
  · rw [h, Function.update_of_ne ha, Function.update_of_ne ha]

/-- A block is changed, with the object in it left alone. -/
theorem objectAt_update_same {s s' : Store ρ π γ} {a : ℕ} {v : Option (ControlBlock π)}
    (h : s'.blocks = Function.update s.blocks a v)
    (hv : v.map ControlBlock.object = s.objectAt a) : s'.objectAt = s.objectAt := by
  rw [objectAt_update h, hv]
  exact Function.update_eq_self a s.objectAt

@[simp] theorem retain_pointers (s : Store ρ π γ) (p : Option ℕ) :
    (s.retain p).pointers = s.pointers := by cases p <;> rfl

@[simp] theorem retain_made (s : Store ρ π γ) (p : Option ℕ) : (s.retain p).made = s.made := by
  cases p <;> rfl

@[simp] theorem retain_calls (s : Store ρ π γ) (p : Option ℕ) : (s.retain p).calls = s.calls := by
  cases p <;> rfl

@[simp] theorem swap_pointers [DecidableEq ρ] (s : Store ρ π γ) (x : ρ) (p : Option ℕ) :
    (s.swap x p).pointers = Function.update s.pointers x p := rfl

@[simp] theorem swap_made [DecidableEq ρ] (s : Store ρ π γ) (x : ρ) (p : Option ℕ) :
    (s.swap x p).made = s.made := rfl

@[simp] theorem swap_calls [DecidableEq ρ] (s : Store ρ π γ) (x : ρ) (p : Option ℕ) :
    (s.swap x p).calls = s.calls := rfl

@[simp] theorem objectAt_retain (s : Store ρ π γ) (p : Option ℕ) :
    (s.retain p).objectAt = s.objectAt := by
  cases p with
  | none => rfl
  | some a => exact objectAt_update_same rfl (by rw [Option.map_map]; rfl)

variable [DecidableEq η] [DecidableEq γ]

/-- The temporary is destroyed. -/
def letGo (R : Raii π η γ) (s : Store ρ π γ) : Option ℕ → Store ρ π γ
  | none => s
  | some a =>
    match s.blocks a with
    | none => s
    | some b =>
      if b.use_count = 1 then
        { s with blocks := Function.update s.blocks a none, calls := s.calls ++ R.destroy b.object }
      else
        { s with
          blocks := Function.update s.blocks a (some { b with use_count := b.use_count - 1 }) }

/-- A temporary that is destroyed leaves all objects alone, or destroys the one it points to. -/
theorem letGo_cases (R : Raii π η γ) (s : Store ρ π γ) (t : Option ℕ) :
    (s.letGo R t).pointers = s.pointers ∧ (s.letGo R t).made = s.made ∧
    ((s.letGo R t).objectAt = s.objectAt ∧ (s.letGo R t).calls = s.calls ∨
      ∃ a o, s.objectAt a = some o ∧
        (s.letGo R t).objectAt = Function.update s.objectAt a none ∧
        (s.letGo R t).calls = s.calls ++ R.destroy o) := by
  cases t with
  | none => exact ⟨rfl, rfl, Or.inl ⟨rfl, rfl⟩⟩
  | some a =>
    cases hb : s.blocks a with
    | none =>
      have heq : s.letGo R (some a) = s := by simp [letGo, hb]
      rw [heq]
      exact ⟨rfl, rfl, Or.inl ⟨rfl, rfl⟩⟩
    | some b =>
      have ha : s.objectAt a = some b.object := by rw [objectAt, hb, Option.map_some]
      by_cases hlast : b.use_count = 1
      · have heq : s.letGo R (some a) =
            { s with
              blocks := Function.update s.blocks a none
              calls := s.calls ++ R.destroy b.object } := by simp [letGo, hb, hlast]
        rw [heq]
        exact ⟨rfl, rfl, Or.inr ⟨a, b.object, ha, objectAt_update (v := none) rfl, rfl⟩⟩
      · have heq : s.letGo R (some a) =
            { s with
              blocks := Function.update s.blocks a
                (some { b with use_count := b.use_count - 1 }) } := by simp [letGo, hb, hlast]
        rw [heq]
        exact ⟨rfl, rfl, Or.inl ⟨objectAt_update_same rfl ha.symm, rfl⟩⟩

theorem letGo_calls (R : Raii π η γ) (s : Store ρ π γ) (t : Option ℕ) :
    ∃ cs, (s.letGo R t).calls = s.calls ++ cs := by
  obtain ⟨-, -, ⟨-, hcalls⟩ | ⟨a, o, -, -, hcalls⟩⟩ := s.letGo_cases R t
  · exact ⟨[], by rw [hcalls, List.append_nil]⟩
  · exact ⟨R.destroy o, hcalls⟩

theorem objectAt_of_letGo {R : Raii π η γ} {s : Store ρ π γ} {t : Option ℕ} {a : ℕ} {o : π}
    (h : (s.letGo R t).objectAt a = some o) : s.objectAt a = some o := by
  obtain ⟨-, -, ⟨hobjects, -⟩ | ⟨a', -, -, hobjects, -⟩⟩ := s.letGo_cases R t
  · rwa [hobjects] at h
  · rw [hobjects, Function.update_apply] at h
    split_ifs at h
    exact h

variable [DecidableEq ρ]

/-- `x = p`, for a pointer `p` that is null or the value of a variable. -/
def assign (R : Raii π η γ) (s : Store ρ π γ) (x : ρ) (p : Option ℕ) : Store ρ π γ :=
  ((s.retain p).swap x p).letGo R (s.pointers x)

/-- `x = std::make_shared(o)`. -/
def assignNew (R : Raii π η γ) (s : Store ρ π γ) (x : ρ) (o : π) : Store ρ π γ :=
  ((s.alloc o).swap x (some s.next)).letGo R (s.pointers x)

@[simp] theorem assign_pointers (R : Raii π η γ) (s : Store ρ π γ) (x : ρ) (p : Option ℕ) :
    (s.assign R x p).pointers = Function.update s.pointers x p := by
  rw [assign, (letGo_cases R _ _).1, swap, retain_pointers]

@[simp] theorem assignNew_pointers (R : Raii π η γ) (s : Store ρ π γ) (x : ρ) (o : π) :
    (s.assignNew R x o).pointers = Function.update s.pointers x (some s.next) := by
  rw [assignNew, (letGo_cases R _ _).1]
  rfl

@[simp] theorem assign_made (R : Raii π η γ) (s : Store ρ π γ) (x : ρ) (p : Option ℕ) :
    (s.assign R x p).made = s.made := by
  rw [assign, (letGo_cases R _ _).2.1, swap_made, retain_made]

@[simp] theorem assignNew_made (R : Raii π η γ) (s : Store ρ π γ) (x : ρ) (o : π) :
    (s.assignNew R x o).made = s.made ++ [o] := by
  rw [assignNew, (letGo_cases R _ _).2.1]
  rfl

end Store

/-! ## Use counts -/

/-- `n` of the variables point to the block `a`. -/
def Pointed (f : ρ → Option ℕ) (a n : ℕ) : Prop :=
  ∃ S : Finset ρ, (∀ x, x ∈ S ↔ f x = some a) ∧ S.card = n

/-- One for a temporary that points to the block. -/
def counts (t : Option ℕ) (a : ℕ) : ℕ := if t = some a then 1 else 0

theorem Pointed.pos_iff {f : ρ → Option ℕ} {a n : ℕ} (h : Pointed f a n) :
    0 < n ↔ ∃ x, f x = some a := by
  obtain ⟨S, hS, rfl⟩ := h
  rw [Finset.card_pos]
  exact exists_congr hS

/-- A variable takes over the temporary, and the temporary what the variable had. -/
theorem Pointed.swap [DecidableEq ρ] {f : ρ → Option ℕ} {a n : ℕ} (h : Pointed f a n) (x : ρ)
    (p : Option ℕ) :
    ∃ m, Pointed (Function.update f x p) a m ∧ m + counts (f x) a = n + counts p a := by
  obtain ⟨S, hS, rfl⟩ := h
  have hne : ∀ y, y ≠ x → (y ∈ S ↔ Function.update f x p y = some a) := by
    intro y hy
    rw [Function.update_of_ne hy, hS]
  by_cases hx : f x = some a
  · have hmem : x ∈ S := (hS x).2 hx
    by_cases hp : p = some a
    · refine ⟨S.card, ⟨S, fun y => ?_, rfl⟩, by rw [hx, hp]⟩
      by_cases hy : y = x
      · subst hy
        simp [hmem, hp]
      · exact hne y hy
    · refine ⟨(S.erase x).card, ⟨S.erase x, fun y => ?_, rfl⟩, ?_⟩
      · by_cases hy : y = x
        · subst hy
          simp [hp]
        · rw [Finset.mem_erase, and_iff_right hy, hne y hy]
      · rw [counts, counts, if_pos hx, if_neg hp, Finset.card_erase_add_one hmem, Nat.add_zero]
  · have hmem : x ∉ S := fun hxS => hx ((hS x).1 hxS)
    by_cases hp : p = some a
    · refine ⟨(insert x S).card, ⟨insert x S, fun y => ?_, rfl⟩, ?_⟩
      · by_cases hy : y = x
        · subst hy
          simp [hp]
        · rw [Finset.mem_insert, or_iff_right hy, hne y hy]
      · rw [counts, counts, if_neg hx, if_pos hp, Finset.card_insert_of_notMem hmem]
    · refine ⟨S.card, ⟨S, fun y => ?_, rfl⟩, by rw [counts, counts, if_neg hx, if_neg hp]⟩
      by_cases hy : y = x
      · subst hy
        simp [hmem, hp]
      · exact hne y hy

/-- The use counts are right, with a temporary `t`. -/
structure Counted (t : Option ℕ) (s : Store ρ π γ) : Prop where
  count : ∀ a, ∃ n, Pointed s.pointers a n ∧ n + counts t a = s.useCount a
  positive : ∀ a b, s.blocks a = some b → 0 < b.use_count
  fresh : ∀ a, s.next ≤ a → s.blocks a = none

namespace Counted

variable {s : Store ρ π γ} {t p : Option ℕ} {a : ℕ}

theorem empty : Counted none (Store.empty : Store ρ π γ) where
  count _ := ⟨0, ⟨∅, by simp [Store.empty], rfl⟩, rfl⟩
  positive _ _ h := nomatch h
  fresh _ _ := rfl

/-- A temporary is not dangling. -/
theorem temporary (hs : Counted (some a) s) : ∃ b, s.blocks a = some b := by
  obtain ⟨n, -, hn⟩ := hs.count a
  cases hb : s.blocks a with
  | some b => exact ⟨b, rfl⟩
  | none => simp [counts, Store.useCount, hb] at hn

/-- No pointer dangles, and every block has a pointer to it. -/
theorem block_iff (hs : Counted none s) :
    (∃ b, s.blocks a = some b) ↔ ∃ x, s.pointers x = some a := by
  obtain ⟨n, hn, hcount⟩ := hs.count a
  rw [← hn.pos_iff]
  cases hb : s.blocks a with
  | none =>
    have : n = 0 := by simpa [counts, Store.useCount, hb] using hcount
    simp [this]
  | some b =>
    have : n = b.use_count := by simpa [counts, Store.useCount, hb] using hcount
    simp [this, hs.positive a b hb]

theorem lt_next {b : ControlBlock π} (hs : Counted t s) (hb : s.blocks a = some b) :
    a < s.next := by
  by_contra hle
  rw [hs.fresh a (Nat.le_of_not_lt hle)] at hb
  cases hb

/-- One block is changed, and the temporary with it. -/
theorem update {s' : Store ρ π γ} {v : Option (ControlBlock π)} (hs : Counted t s)
    (hpointers : s'.pointers = s.pointers) (hblocks : s'.blocks = Function.update s.blocks a v)
    (hcount : v.elim 0 ControlBlock.use_count + counts t a = s.useCount a + counts p a)
    (hother : ∀ a', a' ≠ a → counts p a' = counts t a')
    (hpos : ∀ b, v = some b → 0 < b.use_count) (hnext : s.next ≤ s'.next) (ha : a < s'.next) :
    Counted p s' := by
  have hself : s'.useCount a = v.elim 0 ControlBlock.use_count := by
    rw [Store.useCount, hblocks, Function.update_self]
  have hne : ∀ a', a' ≠ a → s'.blocks a' = s.blocks a' := by
    intro a' hne
    rw [hblocks, Function.update_of_ne hne]
  refine ⟨fun a' => ?_, fun a' b hb => ?_, fun a' ha' => ?_⟩
  · obtain ⟨n, hn, hsum⟩ := hs.count a'
    refine ⟨n, by rwa [hpointers], ?_⟩
    by_cases haa : a' = a
    · subst haa
      omega
    · rw [hother a' haa, hsum, Store.useCount, Store.useCount, hne a' haa]
  · by_cases haa : a' = a
    · apply hpos b
      rw [← hb, hblocks, haa, Function.update_self]
    · rw [hne a' haa] at hb
      exact hs.positive a' b hb
  · rw [hne a' (by omega)]
    exact hs.fresh a' (hnext.trans ha')

theorem retain (hs : Counted none s) (hp : ∀ a, p = some a → ∃ b, s.blocks a = some b) :
    Counted p (s.retain p) := by
  cases p with
  | none => exact hs
  | some a =>
    obtain ⟨b, hb⟩ := hp a rfl
    refine hs.update rfl rfl ?_ (fun a' ha => ?_) (fun b' hb' => ?_) (Nat.le_refl _)
      (hs.lt_next hb)
    · simp [Store.useCount, counts, hb]
    · simp [counts, Ne.symm ha]
    · rw [hb] at hb'
      cases hb'
      exact Nat.succ_pos _

theorem alloc (hs : Counted none s) (o : π) : Counted (some s.next) (s.alloc o) := by
  have hnone := hs.fresh s.next (Nat.le_refl _)
  refine hs.update rfl rfl ?_ (fun a' ha => ?_) (fun b hb => ?_) (Nat.le_succ _)
    (Nat.lt_succ_self _)
  · simp [Store.useCount, counts, hnone]
  · simp [counts, Ne.symm ha]
  · cases hb
    exact Nat.one_pos

theorem swap [DecidableEq ρ] (hs : Counted p s) (x : ρ) :
    Counted (s.pointers x) (s.swap x p) := by
  refine ⟨fun a => ?_, hs.positive, hs.fresh⟩
  obtain ⟨n, hn, hcount⟩ := hs.count a
  obtain ⟨m, hm, hsum⟩ := hn.swap x p
  exact ⟨m, hm, hsum.trans hcount⟩

variable [DecidableEq η] [DecidableEq γ] (R : Raii π η γ)

theorem letGo (hs : Counted t s) : Counted none (s.letGo R t) := by
  cases t with
  | none => exact hs
  | some a =>
    obtain ⟨b, hb⟩ := hs.temporary
    have hpos := hs.positive a b hb
    have hcount : s.useCount a = b.use_count := by simp [Store.useCount, hb]
    have hother : ∀ a', a' ≠ a → counts none a' = counts (some a) a' := by
      intro a' ha
      simp [counts, Ne.symm ha]
    by_cases hlast : b.use_count = 1
    · simp only [Store.letGo, hb, hlast, if_true]
      refine hs.update rfl rfl ?_ hother (fun b' hb' => nomatch hb') (Nat.le_refl _)
        (hs.lt_next hb)
      simp [counts, hcount, hlast]
    · simp only [Store.letGo, hb, hlast, if_false]
      refine hs.update rfl rfl ?_ hother (fun b' hb' => ?_) (Nat.le_refl _) (hs.lt_next hb)
      · simp only [Option.elim_some, counts, if_true, hcount, reduceCtorEq, if_false]
        omega
      · cases hb'
        show 0 < b.use_count - 1
        omega

/-- No pointer loses its object. -/
theorem deref_letGo (hs : Counted t s) (x : ρ) : (s.letGo R t).deref x = s.deref x := by
  obtain ⟨hpointers, -, -⟩ := s.letGo_cases R t
  rw [Store.deref, Store.deref, hpointers]
  cases hx : s.pointers x with
  | none => rfl
  | some a =>
    obtain ⟨b, hb⟩ := (hs.letGo R).block_iff.2 ⟨x, by rw [hpointers, hx]⟩
    have hobject : (s.letGo R t).objectAt a = some b.object := by
      rw [Store.objectAt, hb, Option.map_some]
    rw [Option.bind_some, Option.bind_some, hobject, Store.objectAt_of_letGo hobject]

end Counted

/-! ## Resources -/

variable [DecidableEq η] [DecidableEq γ] (R : Raii π η γ)

namespace Store

/-- An object that owns the resource was made. -/
def Granted (s : Store ρ π γ) (h : η) : Prop := ∃ o ∈ s.made, R.owns o = h

/-- An object that is not destroyed owns the resource. -/
def Owned (s : Store ρ π γ) (h : η) : Prop := ∃ a o, s.objectAt a = some o ∧ R.owns o = h

/-- A pointer refers to an object that owns the resource. -/
def Refers (s : Store ρ π γ) (h : η) : Prop := ∃ x o, s.deref x = some o ∧ R.owns o = h

/-- How often the resource was given back. -/
def givenBack (s : Store ρ π γ) (h : η) : ℕ := s.calls.count (R.giveBack h)

end Store

/-- A resource is accounted for: never granted, or owned and not given back, or given back once
and owned by none. -/
inductive Covered (s : Store ρ π γ) (h : η) : Prop
  | absent : ¬ s.Granted R h → s.givenBack R h = 0 → ¬ s.Owned R h → Covered s h
  | owned : s.Granted R h → s.givenBack R h = 0 → s.Owned R h → Covered s h
  | returned : s.Granted R h → s.givenBack R h = 1 → ¬ s.Owned R h → Covered s h

/-- Every resource is accounted for, and no two objects own the same one. -/
structure Accounted (s : Store ρ π γ) : Prop where
  covered : ∀ h, Covered R s h
  unique : ∀ a a' o o', s.objectAt a = some o → s.objectAt a' = some o' →
    R.owns o = R.owns o' → a = a'

variable {R} {s s' : Store ρ π γ}

theorem Covered.frame {h : η} (hs : Covered R s h) (hg : s'.Granted R h ↔ s.Granted R h)
    (hd : s'.givenBack R h = s.givenBack R h) (ho : s'.Owned R h ↔ s.Owned R h) :
    Covered R s' h := by
  cases hs with
  | absent h₁ h₂ h₃ => exact .absent (mt hg.1 h₁) (hd.trans h₂) (mt ho.1 h₃)
  | owned h₁ h₂ h₃ => exact .owned (hg.2 h₁) (hd.trans h₂) (ho.2 h₃)
  | returned h₁ h₂ h₃ => exact .returned (hg.2 h₁) (hd.trans h₂) (mt ho.1 h₃)

theorem Store.givenBack_letGo_le (s : Store ρ π γ) (t : Option ℕ) (h : η) :
    s.givenBack R h ≤ (s.letGo R t).givenBack R h := by
  obtain ⟨cs, hcalls⟩ := s.letGo_calls R t
  rw [Store.givenBack, Store.givenBack, hcalls, List.count_append]
  exact Nat.le_add_right _ _

theorem Store.givenBack_of_destroy {o : π} (hcalls : s'.calls = s.calls ++ R.destroy o) (h : η) :
    s'.givenBack R h = s.givenBack R h + if R.owns o = h then 1 else 0 := by
  rw [Store.givenBack, hcalls, List.count_append, R.gives_back, Store.givenBack]

namespace Accounted

theorem empty : Accounted R (Store.empty : Store ρ π γ) where
  covered _ := .absent (fun h => nomatch h) rfl (fun h => nomatch h)
  unique _ _ _ _ h := nomatch h

theorem frame (hs : Accounted R s) (hobjects : s'.objectAt = s.objectAt)
    (hmade : s'.made = s.made) (hcalls : s'.calls = s.calls) : Accounted R s' := by
  refine ⟨fun h => (hs.covered h).frame ?_ ?_ ?_, by rw [hobjects]; exact hs.unique⟩
  · rw [Store.Granted, hmade, Store.Granted]
  · rw [Store.givenBack, hcalls, Store.givenBack]
  · rw [Store.Owned, hobjects, Store.Owned]

/-- A new object brings a resource that was not granted before. -/
theorem alloc (hs : Accounted R s) (hfresh : s.objectAt s.next = none) {o : π}
    (hn : ¬ s.Granted R (R.owns o)) : Accounted R (s.alloc o) := by
  have hobjects : (s.alloc o).objectAt = Function.update s.objectAt s.next (some o) :=
    Store.objectAt_update (v := some ⟨o, 1⟩) rfl
  have hother : ∀ a o', s.objectAt a = some o' → R.owns o' ≠ R.owns o := by
    intro a o' ha howns
    cases hs.covered (R.owns o) with
    | absent _ _ h => exact h ⟨a, o', ha, howns⟩
    | owned h | returned h => exact hn h
  have hgranted : ∀ h, (s.alloc o).Granted R h ↔ s.Granted R h ∨ R.owns o = h := by
    intro h
    simp [Store.Granted, Store.alloc, or_and_right, exists_or]
  have howned : ∀ h, (s.alloc o).Owned R h ↔ R.owns o = h ∨ s.Owned R h := by
    intro h
    refine ⟨?_, ?_⟩
    · intro hh
      obtain ⟨a, o', ha, ho'⟩ := hh
      rw [hobjects, Function.update_apply] at ha
      split_ifs at ha
      · cases ha
        exact Or.inl ho'
      · exact Or.inr ⟨a, o', ha, ho'⟩
    · intro hh
      rcases hh with rfl | ⟨a, o', ha, ho'⟩
      · exact ⟨s.next, o, by rw [hobjects, Function.update_self], rfl⟩
      · refine ⟨a, o', ?_, ho'⟩
        rw [hobjects, Function.update_of_ne, ha]
        intro haa
        rw [haa, hfresh] at ha
        cases ha
  refine ⟨fun h => ?_, fun a a' o₁ o₂ h₁ h₂ heq => ?_⟩
  · by_cases hh : R.owns o = h
    · refine .owned ((hgranted h).2 (Or.inr hh)) ?_ ((howned h).2 (Or.inl hh))
      cases hs.covered h with
      | absent _ h₂ _ | owned _ h₂ _ => exact h₂
      | returned h₁ _ _ => exact absurd (hh ▸ h₁) hn
    · refine (hs.covered h).frame ?_ rfl ?_
      · rw [hgranted, or_iff_left hh]
      · rw [howned, or_iff_right hh]
  · rw [hobjects, Function.update_apply] at h₁ h₂
    split_ifs at h₁ h₂ with ha ha' ha'
    · rw [ha, ha']
    · cases h₁
      exact absurd heq.symm (hother a' o₂ h₂)
    · cases h₂
      exact absurd heq (hother a o₁ h₁)
    · exact hs.unique a a' o₁ o₂ h₁ h₂ heq

/-- An object is destroyed. -/
theorem destroy (hs : Accounted R s) {a : ℕ} {o : π} (ha : s.objectAt a = some o)
    (hobjects : s'.objectAt = Function.update s.objectAt a none) (hmade : s'.made = s.made)
    (hcalls : s'.calls = s.calls ++ R.destroy o) : Accounted R s' := by
  have hg : ∀ h, s'.Granted R h ↔ s.Granted R h := by
    intro h
    rw [Store.Granted, hmade, Store.Granted]
  have hd := Store.givenBack_of_destroy hcalls
  have hsub : ∀ a' o', s'.objectAt a' = some o' → a' ≠ a ∧ s.objectAt a' = some o' := by
    intro a' o' ha'
    rw [hobjects, Function.update_apply] at ha'
    split_ifs at ha' with haa
    exact ⟨haa, ha'⟩
  refine ⟨fun h => ?_, fun a₁ a₂ o₁ o₂ h₁ h₂ => hs.unique a₁ a₂ o₁ o₂ (hsub a₁ o₁ h₁).2
    (hsub a₂ o₂ h₂).2⟩
  by_cases hh : R.owns o = h
  · have hgone : ¬ s'.Owned R h := by
      intro ho
      obtain ⟨a', o', ha', ho'⟩ := ho
      obtain ⟨hne, ha'⟩ := hsub a' o' ha'
      exact hne (hs.unique a' a o' o ha' ha (ho'.trans hh.symm))
    cases hs.covered h with
    | owned h₁ h₂ _ => exact .returned ((hg h).2 h₁) (by rw [hd, h₂, if_pos hh]) hgone
    | absent _ _ h₃ | returned _ _ h₃ => exact absurd ⟨a, o, ha, hh⟩ h₃
  · refine (hs.covered h).frame (hg h) (by rw [hd, if_neg hh, Nat.add_zero]) ⟨?_, ?_⟩
    · intro ho
      obtain ⟨a', o', ha', ho'⟩ := ho
      exact ⟨a', o', (hsub a' o' ha').2, ho'⟩
    · intro ho
      obtain ⟨a', o', ha', ho'⟩ := ho
      refine ⟨a', o', ?_, ho'⟩
      rw [hobjects, Function.update_of_ne, ha']
      intro haa
      rw [haa, ha] at ha'
      exact hh (Option.some.inj ha' ▸ ho')

theorem letGo (hs : Accounted R s) (t : Option ℕ) : Accounted R (s.letGo R t) := by
  obtain ⟨-, hmade, ⟨hobjects, hcalls⟩ | ⟨a, o, ha, hobjects, hcalls⟩⟩ := s.letGo_cases R t
  · exact hs.frame hobjects hmade hcalls
  · exact hs.destroy ha hobjects hmade hcalls

end Accounted

/-! ## Assignments -/

variable (R) in
/-- The use counts are right and every resource is accounted for. -/
structure Valid (s : Store ρ π γ) : Prop where
  counted : Counted none s
  accounted : Accounted R s

/-- What a step may do: make objects that a pointer refers to, and call destructors. -/
structure Extends (R : Raii π η γ) (s s' : Store ρ π γ) : Prop where
  made : ∀ h, s.Granted R h → s'.Granted R h
  calls : ∀ h, s.givenBack R h ≤ s'.givenBack R h
  new : ∀ h, s'.Granted R h → s.Granted R h ∨ s'.Refers R h

namespace Valid

theorem empty : Valid R (Store.empty : Store ρ π γ) := ⟨.empty, .empty⟩

/-- The objects that are not destroyed are the ones pointers refer to. -/
theorem refers_iff (hs : Valid R s) (h : η) : s.Refers R h ↔ s.Owned R h := by
  refine ⟨?_, ?_⟩
  · intro hh
    obtain ⟨x, o, ho, howns⟩ := hh
    obtain ⟨a, -, ha⟩ := Option.bind_eq_some_iff.1 ho
    exact ⟨a, o, ha, howns⟩
  · intro hh
    obtain ⟨a, o, ha, howns⟩ := hh
    obtain ⟨b, hb, -⟩ := Option.map_eq_some_iff.1 ha
    obtain ⟨x, hx⟩ := hs.counted.block_iff.1 ⟨b, hb⟩
    exact ⟨x, o, by rw [Store.deref, hx, Option.bind_some, ha], howns⟩

/-- **Given back once.** A resource was given back once if it was granted and no pointer refers to
the object that owns it, and not otherwise. -/
theorem given_back (hs : Valid R s) (h : η) :
    (s.Refers R h → s.givenBack R h = 0) ∧
    (¬ s.Refers R h → s.Granted R h → s.givenBack R h = 1) ∧
    (¬ s.Granted R h → s.givenBack R h = 0) := by
  rw [hs.refers_iff]
  cases hs.accounted.covered h with
  | absent h₁ h₂ h₃ => exact ⟨fun _ => h₂, fun _ hg => absurd hg h₁, fun _ => h₂⟩
  | owned h₁ h₂ h₃ => exact ⟨fun _ => h₂, fun hn => absurd h₃ hn, fun _ => h₂⟩
  | returned h₁ h₂ h₃ => exact ⟨fun ho => absurd ho h₃, fun _ _ => h₂, fun hn => absurd h₁ hn⟩

theorem granted_of_refers (hs : Valid R s) {h : η} (hr : s.Refers R h) : s.Granted R h := by
  rw [hs.refers_iff] at hr
  cases hs.accounted.covered h with
  | absent _ _ h₃ => exact absurd hr h₃
  | owned h₁ | returned h₁ => exact h₁

/-- **The last pointer.** A resource is given back in the step in which the last pointer to the
object that owns it lets go. -/
theorem step_given_back (hs : Valid R s) (hs' : Valid R s') (hext : Extends R s s') (h : η) :
    (s.Refers R h ∧ ¬ s'.Refers R h → s'.givenBack R h = s.givenBack R h + 1) ∧
    (¬ (s.Refers R h ∧ ¬ s'.Refers R h) → s'.givenBack R h = s.givenBack R h) := by
  obtain ⟨hkept, honce, hnever⟩ := hs.given_back h
  obtain ⟨hkept', honce', hnever'⟩ := hs'.given_back h
  refine ⟨?_, ?_⟩
  · intro hlast
    obtain ⟨hr, hr'⟩ := hlast
    rw [hkept hr, honce' hr' (hext.made h (hs.granted_of_refers hr))]
  · intro hlast
    by_cases hg : s.Granted R h
    · have hg' := hext.made h hg
      by_cases hr : s.Refers R h
      · have hr' : s'.Refers R h := by
          by_contra hr'
          exact hlast ⟨hr, hr'⟩
        rw [hkept hr, hkept' hr']
      · have hle := hext.calls h
        have hr' : ¬ s'.Refers R h := by
          intro hr'
          rw [hkept' hr', honce hr hg] at hle
          omega
        rw [honce hr hg, honce' hr' hg']
    · rw [hnever hg]
      by_cases hg' : s'.Granted R h
      · exact hkept' ((hext.new h hg').resolve_left hg)
      · exact hnever' hg'

variable [DecidableEq ρ]

theorem assign (hs : Valid R s) (x : ρ) {p : Option ℕ}
    (hp : ∀ a, p = some a → ∃ y, s.pointers y = some a) : Valid R (s.assign R x p) := by
  have hretain := hs.counted.retain fun a ha => hs.counted.block_iff.2 (hp a ha)
  have hswap := hretain.swap x
  rw [Store.retain_pointers] at hswap
  refine ⟨hswap.letGo R, Accounted.letGo (hs.accounted.frame ?_ ?_ ?_) _⟩
  · exact Store.objectAt_retain s p
  · exact Store.retain_made s p
  · exact Store.retain_calls s p

theorem assignNew (hs : Valid R s) (x : ρ) {o : π} (hn : ¬ s.Granted R (R.owns o)) :
    Valid R (s.assignNew R x o) := by
  have hfresh : s.objectAt s.next = none := by
    rw [Store.objectAt, hs.counted.fresh s.next (Nat.le_refl _)]
    rfl
  refine ⟨((hs.counted.alloc o).swap x).letGo R, Accounted.letGo (s := (s.alloc o).swap x _) ?_ _⟩
  exact (hs.accounted.alloc hfresh hn).frame rfl rfl rfl

/-- A new object is referred to by the variable it was made for. -/
theorem deref_assignNew (hs : Valid R s) (x : ρ) (o : π) :
    (s.assignNew R x o).deref x = some o := by
  refine (Counted.deref_letGo R ((hs.counted.alloc o).swap x) x).trans ?_
  simp [Store.deref, Store.swap, Store.objectAt, Store.alloc]

/-- One variable refers to another object. -/
theorem deref_assign (hs : Valid R s) (x : ρ) {p : Option ℕ}
    (hp : ∀ a, p = some a → ∃ y, s.pointers y = some a) :
    (s.assign R x p).deref = Function.update s.deref x (p.bind s.objectAt) := by
  have hretain := hs.counted.retain fun a ha => hs.counted.block_iff.2 (hp a ha)
  have hswap := hretain.swap x
  rw [Store.retain_pointers] at hswap
  have hobjects : ((s.retain p).swap x p).objectAt = s.objectAt := Store.objectAt_retain s p
  funext y
  refine (Counted.deref_letGo R hswap y).trans ?_
  rw [Store.deref, hobjects, Store.swap_pointers, Store.retain_pointers]
  by_cases hy : y = x
  · rw [hy, Function.update_self, Function.update_self]
  · rw [Function.update_of_ne hy, Function.update_of_ne hy, Store.deref]

/-- One variable refers to a new object. -/
theorem deref_assignNew_eq (hs : Valid R s) (x : ρ) (o : π) :
    (s.assignNew R x o).deref = Function.update s.deref x (some o) := by
  funext y
  by_cases hy : y = x
  · rw [hy, Function.update_self, hs.deref_assignNew x o]
  · refine (Counted.deref_letGo R ((hs.counted.alloc o).swap x) y).trans ?_
    rw [Function.update_of_ne hy, Store.deref, Store.swap_pointers, Function.update_of_ne hy,
      Store.deref]
    refine Option.bind_congr fun a ha => ?_
    obtain ⟨b, hb⟩ := hs.counted.block_iff.2 ⟨y, ha⟩
    have hobjects : ((s.alloc o).swap x (some s.next)).objectAt =
        Function.update s.objectAt s.next (some o) := Store.objectAt_update (v := some ⟨o, 1⟩) rfl
    rw [hobjects, Function.update_of_ne (hs.counted.lt_next hb).ne]

end Valid

theorem Extends.refl (s : Store ρ π γ) : Extends R s s where
  made _ h := h
  calls _ := Nat.le_refl _
  new _ h := Or.inl h

theorem extends_assign [DecidableEq ρ] (s : Store ρ π γ) (x : ρ) (p : Option ℕ) :
    Extends R s (s.assign R x p) := by
  obtain ⟨-, hmade, -⟩ := ((s.retain p).swap x p).letGo_cases R (s.pointers x)
  have hgranted : ∀ h, (s.assign R x p).Granted R h ↔ s.Granted R h := by
    intro h
    rw [Store.Granted, Store.assign, hmade, Store.swap_made, Store.retain_made, Store.Granted]
  refine ⟨fun h => (hgranted h).2, fun h => ?_, fun h hg => Or.inl ((hgranted h).1 hg)⟩
  have hle := ((s.retain p).swap x p).givenBack_letGo_le (R := R) (s.pointers x) h
  rwa [Store.givenBack, Store.swap_calls, Store.retain_calls] at hle

theorem Valid.extends_assignNew [DecidableEq ρ] (hs : Valid R s) (x : ρ) (o : π) :
    Extends R s (s.assignNew R x o) := by
  have hgranted : ∀ h, (s.assignNew R x o).Granted R h ↔ s.Granted R h ∨ R.owns o = h := by
    intro h
    simp [Store.Granted, or_and_right, exists_or]
  refine ⟨fun h hg => (hgranted h).2 (Or.inl hg), fun h => ?_, fun h hg => ?_⟩
  · exact ((s.alloc o).swap x (some s.next)).givenBack_letGo_le (s.pointers x) h
  · exact ((hgranted h).1 hg).imp_right fun ho => ⟨x, o, hs.deref_assignNew x o, ho⟩

end SharedPtr
