import Mathlib.Algebra.BigOperators.Group.Finset.Basic
import Mathlib.Algebra.Order.BigOperators.Group.Finset

/-!
# Objects that own objects

Variables and objects point to objects with `std::shared_ptr`, and each object has a control block
with the number of pointers to it. When the last pointer lets go, the object is destroyed, and the
pointers it has let go in turn.

**Temporaries.** In the middle of an operation some pointers are in temporaries: those that were
made or copied and are not stored yet, and those that were overwritten and have not let go yet.
`Counted s temps` says that the use counts are right with the temporaries `temps`, and each
primitive step turns temporaries into others.

**Theorem (`Counted.alive_iff_reachable`).** Between operations, an object is alive exactly when a
variable leads to it, provided that ownership has no cycles.
-/

namespace Refcount

structure ControlBlock where
  owns : List ℕ
  use_count : ℕ

/-- The objects `π` that were made, by their addresses, the control blocks of those alive, the
pointers of the variables `ρ`, and the objects destroyed. -/
structure Store (ρ π : Type*) where
  made : List π
  blocks : ℕ → Option ControlBlock
  roots : ρ → List ℕ
  destroyed : List ℕ

variable {ρ π : Type*}

namespace Store

def empty : Store ρ π := ⟨[], fun _ => none, fun _ => [], []⟩

def useCount (s : Store ρ π) (a : ℕ) : ℕ := (s.blocks a).elim 0 ControlBlock.use_count

def owned (s : Store ρ π) (a : ℕ) : List ℕ := (s.blocks a).elim [] ControlBlock.owns

/-- The pointers of a variable or of an object. -/
def out (s : Store ρ π) : ρ ⊕ ℕ → List ℕ := Sum.elim s.roots s.owned

/-! ## Steps -/

/-- A pointer is copied. -/
def retain (s : Store ρ π) (a : ℕ) : Store ρ π :=
  match s.blocks a with
  | some b =>
    { s with blocks := Function.update s.blocks a (some { b with use_count := b.use_count + 1 }) }
  | none => s

def retainAll (s : Store ρ π) (as : List ℕ) : Store ρ π := as.foldl retain s

/-- `std::make_shared`. The object takes over the pointers `owns`. -/
def make (s : Store ρ π) (v : π) (owns : List ℕ) : Store ρ π × ℕ :=
  ({ s with made := s.made ++ [v]
            blocks := Function.update s.blocks s.made.length (some ⟨owns, 1⟩) }, s.made.length)

/-- The variable takes over the pointers `as`. -/
def setRoot [DecidableEq ρ] (s : Store ρ π) (x : ρ) (as : List ℕ) : Store ρ π :=
  { s with roots := Function.update s.roots x as }

/-- The object takes over the pointers `as`. -/
def setOwned (s : Store ρ π) (a : ℕ) (as : List ℕ) : Store ρ π :=
  { s with blocks := Function.update s.blocks a ((s.blocks a).map fun b => { b with owns := as }) }

/-- One pointer lets go, and with the last one the object, whose pointers are left. -/
def drop (s : Store ρ π) (a : ℕ) : Store ρ π × List ℕ :=
  match s.blocks a with
  | some b =>
    if b.use_count = 1 then
      ({ s with blocks := Function.update s.blocks a none, destroyed := s.destroyed ++ [a] },
        b.owns)
    else
      ({ s with
          blocks := Function.update s.blocks a (some { b with use_count := b.use_count - 1 }) }, [])
  | none => (s, [])

/-- The pointers let go one after the other. -/
def dropAll : ℕ → Store ρ π → List ℕ → Store ρ π
  | _, s, [] => s
  | 0, s, _ :: _ => s
  | fuel + 1, s, a :: as => dropAll fuel (s.drop a).1 ((s.drop a).2 ++ as)

/-- The number of pointers in objects. -/
def pointers (s : Store ρ π) : ℕ := ∑ a ∈ Finset.range s.made.length, (s.owned a).length

/-- The pointers let go. Each step uses up one pointer, so there are no more steps than that. -/
def letGo (s : Store ρ π) (as : List ℕ) : Store ρ π := s.dropAll (s.pointers + as.length) as

/-! ## Assignments -/

/-- Pointers in temporaries are moved to a variable. -/
def moveRoot [DecidableEq ρ] (s : Store ρ π) (x : ρ) (as : List ℕ) : Store ρ π :=
  (s.setRoot x as).letGo (s.roots x)

/-- Pointers are copied to a variable. -/
def assign [DecidableEq ρ] (s : Store ρ π) (x : ρ) (as : List ℕ) : Store ρ π :=
  (s.retainAll as).moveRoot x as

/-- Pointers in temporaries are moved to an object. -/
def moveOwned (s : Store ρ π) (a : ℕ) (as : List ℕ) : Store ρ π :=
  (s.setOwned a as).letGo (s.owned a)

/-! ## What the steps change -/

variable {s s' : Store ρ π} {a : ℕ}

theorem owned_update {v : Option ControlBlock} (h : s'.blocks = Function.update s.blocks a v) :
    s'.owned = Function.update s.owned a (v.elim [] ControlBlock.owns) := by
  funext c
  by_cases hc : c = a
  · subst hc
    rw [owned, h, Function.update_self, Function.update_self]
  · rw [owned, h, Function.update_of_ne hc, Function.update_of_ne hc, owned]

theorem useCount_update {v : Option ControlBlock} (h : s'.blocks = Function.update s.blocks a v) :
    s'.useCount = Function.update s.useCount a (v.elim 0 ControlBlock.use_count) := by
  funext c
  by_cases hc : c = a
  · subst hc
    rw [useCount, h, Function.update_self, Function.update_self]
  · rw [useCount, h, Function.update_of_ne hc, Function.update_of_ne hc, useCount]

theorem out_update [DecidableEq ρ] {v : Option ControlBlock} (hroots : s'.roots = s.roots)
    (h : s'.blocks = Function.update s.blocks a v) :
    s'.out = Function.update s.out (.inr a) (v.elim [] ControlBlock.owns) := by
  rw [out, hroots, owned_update h, Sum.elim_update_right]
  rfl

theorem owned_of_blocks {b : ControlBlock} (h : s.blocks a = some b) : s.owned a = b.owns := by
  rw [owned, h]
  rfl

theorem useCount_of_blocks {b : ControlBlock} (h : s.blocks a = some b) :
    s.useCount a = b.use_count := by
  rw [useCount, h]
  rfl

end Store

/-! ## Totals -/

/-- `n a` of the pointers lead to `a`. -/
def Total {σ : Type*} (out : σ → List ℕ) (n : ℕ → ℕ) : Prop :=
  ∃ t : Finset σ, (∀ v, v ∉ t → out v = []) ∧ ∀ a, n a = ∑ v ∈ t, (out v).count a

namespace Total

variable {σ : Type*} {out : σ → List ℕ} {n : ℕ → ℕ}

theorem pos_iff (h : Total out n) {a : ℕ} : 0 < n a ↔ ∃ v, a ∈ out v := by
  obtain ⟨t, hout, hn⟩ := h
  rw [hn a, Nat.pos_iff_ne_zero, ne_eq, Finset.sum_eq_zero_iff]
  refine ⟨fun hne => ?_, fun ⟨v, hv⟩ hzero => ?_⟩
  · obtain ⟨v, hv⟩ := not_forall.1 hne
    obtain ⟨-, hcount⟩ := Classical.not_imp.1 hv
    exact ⟨v, List.count_pos_iff.1 (Nat.pos_of_ne_zero hcount)⟩
  · have hvt : v ∈ t := by
      by_contra hvt
      rw [hout v hvt] at hv
      cases hv
    exact List.count_eq_zero.1 (hzero v hvt) hv

/-- One source gets other pointers. -/
theorem update [DecidableEq σ] (h : Total out n) (v : σ) (as : List ℕ) :
    ∃ m, Total (Function.update out v as) m ∧
      ∀ a, m a + (out v).count a = n a + as.count a := by
  obtain ⟨t, hout, hn⟩ := h
  refine ⟨_, ⟨insert v t, fun w hw => ?_, fun a => rfl⟩, fun a => ?_⟩
  · rw [Finset.mem_insert, not_or] at hw
    rw [Function.update_of_ne hw.1, hout w hw.2]
  · have hrest : ∑ w ∈ (insert v t).erase v, (Function.update out v as w).count a =
        ∑ w ∈ (insert v t).erase v, (out w).count a :=
      Finset.sum_congr rfl fun w hw => by rw [Function.update_of_ne (Finset.ne_of_mem_erase hw)]
    have hnew := Finset.add_sum_erase (insert v t)
      (fun w => (Function.update out v as w).count a) (Finset.mem_insert_self v t)
    have hold := Finset.add_sum_erase (insert v t) (fun w => (out w).count a)
      (Finset.mem_insert_self v t)
    have hsum : ∑ w ∈ insert v t, (out w).count a = ∑ w ∈ t, (out w).count a := by
      by_cases hv : v ∈ t
      · rw [Finset.insert_eq_of_mem hv]
      · rw [Finset.sum_insert hv, hout v hv, List.count_nil, Nat.zero_add]
    rw [Function.update_self] at hnew
    rw [hn a]
    omega

end Total

/-! ## Use counts -/

/-- The use counts are right, with the pointers `temps` in temporaries, and an object is destroyed
once, when it has no block any more. -/
structure Counted (s : Store ρ π) (temps : List ℕ) : Prop where
  count : ∃ n, Total s.out n ∧ ∀ a, s.useCount a = n a + temps.count a
  positive : ∀ a b, s.blocks a = some b → 0 < b.use_count
  bounded : ∀ a b, s.blocks a = some b → a < s.made.length
  destroyed : ∀ a, s.destroyed.count a = if a < s.made.length ∧ s.blocks a = none then 1 else 0

namespace Counted

open Store

variable {s : Store ρ π} {as temps : List ℕ} {a : ℕ}

theorem empty : Counted (Store.empty : Store ρ π) [] where
  count := ⟨fun _ => 0, ⟨∅, fun v _ => by cases v <;> rfl, fun _ => rfl⟩, fun _ => rfl⟩
  positive _ _ h := nomatch h
  bounded _ _ h := nomatch h
  destroyed _ := by simp [Store.empty]

/-- A temporary does not dangle. -/
theorem exists_block (hs : Counted s (a :: temps)) : ∃ b, s.blocks a = some b := by
  obtain ⟨n, -, hcount⟩ := hs.count
  have ha := hcount a
  rw [List.count_cons_self] at ha
  cases hb : s.blocks a with
  | some b => exact ⟨b, rfl⟩
  | none =>
    rw [useCount, hb, Option.elim_none] at ha
    omega

/-- Nothing points to where there is no object. -/
theorem not_mem_out (hs : Counted s temps) (ha : s.blocks a = none) (v : ρ ⊕ ℕ) :
    a ∉ s.out v := by
  obtain ⟨n, hn, hcount⟩ := hs.count
  have hzero := hcount a
  rw [useCount, ha, Option.elim_none] at hzero
  intro hv
  have := hn.pos_iff.2 ⟨v, hv⟩
  omega

theorem not_mem_temps (hs : Counted s temps) (ha : s.blocks a = none) : a ∉ temps := by
  obtain ⟨n, -, hcount⟩ := hs.count
  have hzero := hcount a
  rw [useCount, ha, Option.elim_none] at hzero
  exact List.count_eq_zero.1 (by omega)

/-- Temporaries, and what objects point to, are addresses of objects that were made. -/
theorem lt_of_mem_temps (hs : Counted s temps) (ha : a ∈ temps) : a < s.made.length := by
  cases hb : s.blocks a with
  | some b => exact hs.bounded a b hb
  | none => exact absurd ha (hs.not_mem_temps hb)

theorem lt_of_mem_out (hs : Counted s temps) {v : ρ ⊕ ℕ} (ha : a ∈ s.out v) :
    a < s.made.length := by
  cases hb : s.blocks a with
  | some b => exact hs.bounded a b hb
  | none => exact absurd ha (hs.not_mem_out hb v)

theorem perm (hs : Counted s temps) {temps' : List ℕ} (h : temps.Perm temps') :
    Counted s temps' := by
  obtain ⟨n, hn, hcount⟩ := hs.count
  exact { hs with count := ⟨n, hn, fun a => by rw [hcount, h.count_eq]⟩ }

/-- One block is changed, and the temporaries with it. -/
theorem update {s' : Store ρ π} {v : Option ControlBlock} {temps' : List ℕ} (hs : Counted s temps)
    (hroots : s'.roots = s.roots) (hblocks : s'.blocks = Function.update s.blocks a v)
    (hmade : s.made.length ≤ s'.made.length) (ha : a < s'.made.length)
    (hpos : ∀ b, v = some b → 0 < b.use_count)
    (hcount : ∀ c, s'.useCount c + (s.owned a).count c + temps.count c =
      s.useCount c + (v.elim [] ControlBlock.owns).count c + temps'.count c)
    (hdestroyed : ∀ c, s'.destroyed.count c =
      if c < s'.made.length ∧ s'.blocks c = none then 1 else 0) : Counted s' temps' := by
  classical
  have hne : ∀ c, c ≠ a → s'.blocks c = s.blocks c := by
    intro c hc
    rw [hblocks, Function.update_of_ne hc]
  obtain ⟨n, hn, huses⟩ := hs.count
  obtain ⟨m, hm, hnm⟩ := hn.update (.inr a) (v.elim [] ControlBlock.owns)
  refine ⟨⟨m, by rwa [out_update hroots hblocks], fun c => ?_⟩, fun c b hb => ?_, fun c b hb => ?_,
    hdestroyed⟩
  · have howned : (s.out (.inr a)).count c = (s.owned a).count c := rfl
    have h₁ := huses c
    have h₂ := hnm c
    have h₃ := hcount c
    omega
  · by_cases hc : c = a
    · subst hc
      exact hpos b (by rw [← hb, hblocks, Function.update_self])
    · exact hs.positive c b (by rw [← hne c hc, hb])
  · by_cases hc : c = a
    · rwa [hc]
    · exact Nat.lt_of_lt_of_le (hs.bounded c b (by rw [← hne c hc, hb])) hmade

/-- A change of a block that stays. -/
theorem update_some {b b' : ControlBlock} {temps' : List ℕ} (hs : Counted s temps)
    (hb : s.blocks a = some b) (hpos : 0 < b'.use_count)
    (hcount : ∀ c, (if c = a then b'.use_count else s.useCount c) + b.owns.count c +
      temps.count c = s.useCount c + b'.owns.count c + temps'.count c) :
    Counted { s with blocks := Function.update s.blocks a (some b') } temps' := by
  refine hs.update (v := some b') rfl rfl (Nat.le_refl _) (hs.bounded a b hb) (fun d hd => ?_)
    (fun c => ?_) fun c => ?_
  · exact Option.some.inj hd ▸ hpos
  · rw [useCount_update (s := s) (a := a) (v := some b') rfl, Function.update_apply,
      owned_of_blocks hb]
    exact hcount c
  · refine (hs.destroyed c).trans ?_
    by_cases hc : c = a
    · subst hc
      simp [hb]
    · simp [Function.update_of_ne hc]

/-- A pointer to an object is copied to a temporary. -/
theorem retain (hs : Counted s temps) {b : ControlBlock} (hb : s.blocks a = some b) :
    Counted (s.retain a) (a :: temps) := by
  rw [Store.retain, hb]
  refine hs.update_some hb (Nat.succ_pos _) fun c => ?_
  dsimp only
  by_cases hc : c = a
  · subst hc
    rw [if_pos rfl, List.count_cons_self, useCount_of_blocks hb]
    omega
  · rw [if_neg hc, List.count_cons_of_ne (Ne.symm hc)]

/-- The pointers of an object become temporaries, and the other way round. -/
theorem setOwned (hs : Counted s (as ++ temps)) {b : ControlBlock} (hb : s.blocks a = some b) :
    Counted (s.setOwned a as) (s.owned a ++ temps) := by
  rw [Store.setOwned, hb, Option.map_some, owned_of_blocks hb]
  refine hs.update_some hb (hs.positive a b hb) fun c => ?_
  have huses : (if c = a then b.use_count else s.useCount c) = s.useCount c := by
    split_ifs with hc
    · rw [hc, useCount_of_blocks hb]
    · rfl
  rw [huses, List.count_append, List.count_append]
  dsimp only
  omega

/-- The pointers of a variable become temporaries, and the other way round. -/
theorem setRoot [DecidableEq ρ] (hs : Counted s (as ++ temps)) (x : ρ) :
    Counted (s.setRoot x as) (s.roots x ++ temps) := by
  obtain ⟨n, hn, huses⟩ := hs.count
  obtain ⟨m, hm, hnm⟩ := hn.update (.inl x) as
  have hout : (s.setRoot x as).out = Function.update s.out (.inl x) as := by
    rw [out, out, Sum.update_elim_inl]
    rfl
  refine ⟨⟨m, by rwa [hout], fun c => ?_⟩, hs.positive, hs.bounded, hs.destroyed⟩
  have hroots : (s.out (.inl x)).count c = (s.roots x).count c := rfl
  have h₁ := huses c
  have h₂ := hnm c
  have huse : (s.setRoot x as).useCount c = s.useCount c := rfl
  rw [List.count_append] at h₁
  rw [huse, List.count_append]
  omega

/-- A new object takes over temporaries, and the pointer to it is one. -/
theorem make (hs : Counted s (as ++ temps)) (v : π) :
    Counted (s.make v as).1 ((s.make v as).2 :: temps) := by
  have hnone : s.blocks s.made.length = none := by
    cases hb : s.blocks s.made.length with
    | none => rfl
    | some b => exact absurd (hs.bounded _ b hb) (Nat.lt_irrefl _)
  have hlength : (s.make v as).1.made.length = s.made.length + 1 := by
    rw [Store.make, List.length_append, List.length_singleton]
  refine hs.update (v := some ⟨as, 1⟩) rfl rfl (by omega)
    (by rw [hlength]; exact Nat.lt_succ_self _) (fun b hb => ?_) (fun c => ?_) fun c => ?_
  · exact Option.some.inj hb ▸ Nat.one_pos
  · have hfresh : ∀ v, s.made.length ∉ s.out v := hs.not_mem_out hnone
    have howned : s.owned s.made.length = [] := by rw [owned, hnone]; rfl
    rw [useCount_update (s := s) (a := s.made.length) (v := some ⟨as, 1⟩) rfl, howned,
      List.count_append, Function.update_apply]
    by_cases hc : c = s.made.length
    · have htemps := List.count_eq_zero.2 (hs.not_mem_temps hnone)
      rw [List.count_append] at htemps
      have huse : s.useCount c = 0 := by rw [hc, useCount, hnone]; rfl
      rw [if_pos hc, huse]
      subst hc
      simp [Store.make]
      omega
    · rw [if_neg hc]
      simp [Store.make, List.count_cons_of_ne (Ne.symm hc)]
      omega
  · rw [hlength]
    refine (hs.destroyed c).trans ?_
    by_cases hc : c = s.made.length
    · subst hc
      simp [Store.make]
    · have hlt : c < s.made.length ↔ c < s.made.length + 1 := by omega
      simp [Store.make, Function.update_of_ne hc, hlt]

/-- A new object without pointers. -/
theorem make_nil (hs : Counted s temps) (v : π) :
    Counted (s.make v []).1 ((s.make v []).2 :: temps) :=
  Counted.make hs v

/-- A temporary lets go. -/
theorem drop (hs : Counted s (a :: temps)) :
    Counted (s.drop a).1 ((s.drop a).2 ++ temps) := by
  obtain ⟨b, hb⟩ := hs.exists_block
  have hpos := hs.positive a b hb
  rw [Store.drop, hb]
  by_cases hlast : b.use_count = 1
  · simp only [if_pos hlast]
    have hunused : temps.count a = 0 ∧ b.owns.count a = 0 := by
      obtain ⟨n, hn, huses⟩ := hs.count
      have ha := huses a
      rw [useCount_of_blocks hb, List.count_cons_self] at ha
      have hself : a ∉ s.out (.inr a) := fun h => by
        have := hn.pos_iff.2 ⟨_, h⟩
        omega
      rw [out, Sum.elim_inr, owned_of_blocks hb] at hself
      exact ⟨by omega, List.count_eq_zero.2 hself⟩
    refine hs.update (v := none) rfl rfl (Nat.le_refl _) (hs.bounded a b hb)
      (fun d hd => (nomatch hd)) (fun c => ?_) fun c => ?_
    · rw [useCount_update (s := s) (a := a) (v := none) rfl, owned_of_blocks hb,
        Function.update_apply, List.count_append, Option.elim_none, Option.elim_none,
        List.count_nil]
      by_cases hc : c = a
      · subst hc
        rw [if_pos rfl, List.count_cons_self, useCount_of_blocks hb]
        omega
      · rw [if_neg hc, List.count_cons_of_ne (Ne.symm hc)]
        omega
    · rw [List.count_append, hs.destroyed c]
      by_cases hc : c = a
      · subst hc
        simp [hb, hs.bounded c b hb]
      · simp [Function.update_of_ne hc, List.count_eq_zero.2, Ne.symm hc]
  · simp only [if_neg hlast]
    refine hs.update_some hb (Nat.sub_pos_of_lt (by omega)) fun c => ?_
    dsimp only
    by_cases hc : c = a
    · subst hc
      rw [if_pos rfl, List.count_cons_self, useCount_of_blocks hb, List.nil_append]
      omega
    · rw [if_neg hc, List.count_cons_of_ne (Ne.symm hc), List.nil_append]

end Counted

/-! ## Making objects -/

/-- There are new objects; the old ones and the variables are as they were. -/
structure Extends (s s' : Store ρ π) : Prop where
  made : s.made <+: s'.made
  roots : s'.roots = s.roots
  blocks : ∀ a, a < s.made.length → s'.blocks a = s.blocks a

namespace Extends

variable {s s' s'' : Store ρ π}

theorem refl (s : Store ρ π) : Extends s s := ⟨List.prefix_rfl, rfl, fun _ _ => rfl⟩

theorem trans (h : Extends s s') (h' : Extends s' s'') : Extends s s'' := by
  refine ⟨h.made.trans h'.made, h'.roots.trans h.roots, fun a ha => ?_⟩
  rw [h'.blocks a (Nat.lt_of_lt_of_le ha h.made.length_le), h.blocks a ha]

theorem make (s : Store ρ π) (v : π) (as : List ℕ) : Extends s (s.make v as).1 := by
  exact ⟨List.prefix_append _ _, rfl, fun a ha => Function.update_of_ne (Nat.ne_of_lt ha) _ _⟩

theorem owned (h : Extends s s') {a : ℕ} (ha : a < s.made.length) : s'.owned a = s.owned a := by
  rw [Store.owned, h.blocks a ha, Store.owned]

theorem getElem? (h : Extends s s') {a : ℕ} (ha : a < s.made.length) :
    s'.made[a]? = s.made[a]? := by
  obtain ⟨rest, hrest⟩ := h.made
  rw [← hrest, List.getElem?_append_left ha]

end Extends

/-! ## Letting go -/

/-- Some objects are gone; those left have the pointers they had. -/
structure Frees (s s' : Store ρ π) : Prop where
  made : s'.made = s.made
  roots : s'.roots = s.roots
  owned : ∀ a b, s'.blocks a = some b → s'.owned a = s.owned a ∧ ∃ b', s.blocks a = some b'

namespace Frees

variable {s s' s'' : Store ρ π}

theorem refl (s : Store ρ π) : Frees s s := ⟨rfl, rfl, fun _ b hb => ⟨rfl, b, hb⟩⟩

theorem trans (h : Frees s s') (h' : Frees s' s'') : Frees s s'' := by
  refine ⟨h'.made.trans h.made, h'.roots.trans h.roots, fun a b hb => ?_⟩
  obtain ⟨howned, b', hb'⟩ := h'.owned a b hb
  obtain ⟨howned', hold⟩ := h.owned a b' hb'
  exact ⟨howned.trans howned', hold⟩

/-- One block is gone, or has another use count. -/
theorem update {a : ℕ} {v : Option ControlBlock} (hmade : s'.made = s.made)
    (hroots : s'.roots = s.roots) (hblocks : s'.blocks = Function.update s.blocks a v)
    (hv : ∀ b, v = some b → ∃ b', s.blocks a = some b' ∧ b.owns = b'.owns) : Frees s s' := by
  refine ⟨hmade, hroots, fun c d hd => ?_⟩
  rw [hblocks] at hd
  rw [Store.owned_update hblocks]
  by_cases hc : c = a
  · subst hc
    rw [Function.update_self] at hd ⊢
    obtain ⟨b', hb', howns⟩ := hv d hd
    exact ⟨by rw [hd, Store.owned_of_blocks hb']; exact howns, b', hb'⟩
  · rw [Function.update_of_ne hc] at hd ⊢
    exact ⟨rfl, d, hd⟩

theorem drop (s : Store ρ π) (a : ℕ) : Frees s (s.drop a).1 := by
  cases hb : s.blocks a with
  | none => rw [Store.drop, hb]; exact .refl s
  | some b =>
    rw [Store.drop, hb]
    by_cases hlast : b.use_count = 1
    · simp only [if_pos hlast]
      exact .update rfl rfl rfl fun d hd => (nomatch hd)
    · simp only [if_neg hlast]
      exact .update rfl rfl rfl fun d hd => ⟨b, hb, Option.some.inj hd ▸ rfl⟩

end Frees

namespace Store

variable {s : Store ρ π}

/-- A pointer that lets go is used up, and those of a destroyed object are left. -/
theorem pointers_drop (h : ∀ a b, s.blocks a = some b → a < s.made.length) (a : ℕ) :
    (s.drop a).1.pointers + (s.drop a).2.length = s.pointers := by
  cases hb : s.blocks a with
  | none => rw [drop, hb]; rfl
  | some b =>
    have hmem : a ∈ Finset.range s.made.length := Finset.mem_range.2 (h a b hb)
    have hsum := Finset.add_sum_erase (Finset.range s.made.length)
      (fun c => (s.owned c).length) hmem
    rw [owned_of_blocks hb] at hsum
    rw [drop, hb]
    by_cases hlast : b.use_count = 1
    · simp only [if_pos hlast]
      have hrest := Finset.add_sum_erase (Finset.range s.made.length)
        (fun c => (Function.update s.owned a [] c).length) hmem
      have hsame : ∑ c ∈ (Finset.range s.made.length).erase a,
          (Function.update s.owned a [] c).length =
            ∑ c ∈ (Finset.range s.made.length).erase a, (s.owned c).length :=
        Finset.sum_congr rfl fun c hc => by rw [Function.update_of_ne (Finset.ne_of_mem_erase hc)]
      rw [Function.update_self, List.length_nil] at hrest
      rw [pointers, pointers, owned_update (s := s) (a := a) (v := none) rfl, Option.elim_none]
      dsimp only at *
      omega
    · simp only [if_neg hlast]
      rw [pointers, pointers,
        owned_update (s := s) (a := a) (v := some ⟨b.owns, b.use_count - 1⟩) rfl,
        Option.elim_some, ← owned_of_blocks hb, Function.update_eq_self]
      rfl

/-- **The rule for letting go.** What each pointer that lets go preserves, they all do. -/
theorem letGo_induction {P : Store ρ π → List ℕ → Prop}
    (hbounded : ∀ s as, P s as → ∀ a b, s.blocks a = some b → a < s.made.length)
    (hdrop : ∀ s a as, P s (a :: as) → P (s.drop a).1 ((s.drop a).2 ++ as)) {as : List ℕ}
    (h : P s as) : P (s.letGo as) [] := by
  suffices hall : ∀ fuel (s : Store ρ π) as, s.pointers + as.length ≤ fuel → P s as →
      P (s.dropAll fuel as) [] from hall _ s as (Nat.le_refl _) h
  intro fuel
  induction fuel with
  | zero =>
    intro s as hle has
    cases as with
    | nil => exact has
    | cons a as => rw [List.length_cons] at hle; omega
  | succ fuel ih =>
    intro s as hle has
    cases as with
    | nil => exact has
    | cons a as =>
      refine ih _ _ ?_ (hdrop s a as has)
      have := pointers_drop (hbounded s _ has) a
      rw [List.length_cons] at hle
      rw [List.length_append]
      omega

end Store

/-- All the temporaries let go. -/
theorem Counted.letGo {s : Store ρ π} {as : List ℕ} (hs : Counted s as) :
    Counted (s.letGo as) [] ∧ Frees s (s.letGo as) :=
  Store.letGo_induction (P := fun s' temps => Counted s' temps ∧ Frees s s')
    (fun _ _ h => h.1.bounded)
    (fun s' a _ h => ⟨h.1.drop, h.2.trans (.drop s' a)⟩) ⟨hs, .refl s⟩

/-! ## Histories -/

/-- What was made and what was destroyed is on record. -/
structure Later (s s' : Store ρ π) : Prop where
  made : s.made <+: s'.made
  destroyed : s.destroyed <+: s'.destroyed

namespace Later

variable {s s' s'' : Store ρ π}

theorem refl (s : Store ρ π) : Later s s := ⟨List.prefix_rfl, List.prefix_rfl⟩

theorem trans (h : Later s s') (h' : Later s' s'') : Later s s'' :=
  ⟨h.made.trans h'.made, h.destroyed.trans h'.destroyed⟩

theorem make (s : Store ρ π) (v : π) (as : List ℕ) : Later s (s.make v as).1 :=
  ⟨List.prefix_append _ _, List.prefix_rfl⟩

theorem retainAll (s : Store ρ π) (as : List ℕ) : Later s (s.retainAll as) := by
  induction as generalizing s with
  | nil => exact .refl s
  | cons a as ih =>
    have hretain : Later s (s.retain a) := by
      rw [Store.retain]
      cases s.blocks a <;> exact ⟨List.prefix_rfl, List.prefix_rfl⟩
    exact hretain.trans (ih (s.retain a))

theorem drop (s : Store ρ π) (a : ℕ) : Later s (s.drop a).1 := by
  rw [Store.drop]
  cases s.blocks a with
  | none => exact .refl s
  | some b =>
    by_cases hlast : b.use_count = 1
    · simp only [if_pos hlast]
      exact ⟨List.prefix_rfl, List.prefix_append _ _⟩
    · simp only [if_neg hlast]
      exact ⟨List.prefix_rfl, List.prefix_rfl⟩

theorem dropAll (fuel : ℕ) (s : Store ρ π) (as : List ℕ) : Later s (s.dropAll fuel as) := by
  induction fuel generalizing s as with
  | zero => cases as <;> exact .refl s
  | succ fuel ih =>
    cases as with
    | nil => exact .refl s
    | cons a as => exact (drop s a).trans (ih _ _)

theorem moveRoot [DecidableEq ρ] (s : Store ρ π) (x : ρ) (as : List ℕ) :
    Later s (s.moveRoot x as) := by
  have hdrop := dropAll ((s.setRoot x as).pointers + (s.roots x).length) (s.setRoot x as)
    (s.roots x)
  exact ⟨hdrop.made, hdrop.destroyed⟩

theorem assign [DecidableEq ρ] (s : Store ρ π) (x : ρ) (as : List ℕ) : Later s (s.assign x as) :=
  (retainAll s as).trans (moveRoot _ x as)

theorem moveOwned (s : Store ρ π) (a : ℕ) (as : List ℕ) : Later s (s.moveOwned a as) := by
  have hdrop := dropAll ((s.setOwned a as).pointers + (s.owned a).length) (s.setOwned a as)
    (s.owned a)
  exact ⟨hdrop.made, hdrop.destroyed⟩

end Later

/-! ## Assignments keep the counts -/

namespace Store

variable {s : Store ρ π} {a : ℕ}

/-- Use counts apart, a copied pointer changes nothing. -/
theorem retain_spec (s : Store ρ π) (a : ℕ) : (s.retain a).made = s.made ∧
    (s.retain a).roots = s.roots ∧ (s.retain a).owned = s.owned ∧
      ∀ c, ((s.retain a).blocks c).isSome = (s.blocks c).isSome := by
  cases hb : s.blocks a with
  | none => simp [retain, hb]
  | some b =>
    rw [retain, hb]
    refine ⟨rfl, rfl, ?_, fun c => ?_⟩
    · rw [owned_update (s := s) (a := a) (v := some ⟨b.owns, b.use_count + 1⟩) rfl,
        Option.elim_some, ← owned_of_blocks hb, Function.update_eq_self]
    · dsimp only
      rw [Function.update_apply]
      split_ifs with hc
      · rw [hc, hb]; rfl
      · rfl

theorem retainAll_spec (s : Store ρ π) (as : List ℕ) : (s.retainAll as).made = s.made ∧
    (s.retainAll as).roots = s.roots ∧ (s.retainAll as).owned = s.owned ∧
      ∀ c, ((s.retainAll as).blocks c).isSome = (s.blocks c).isSome := by
  induction as generalizing s with
  | nil => exact ⟨rfl, rfl, rfl, fun c => rfl⟩
  | cons a as ih =>
    obtain ⟨hmade, hroots, howned, halive⟩ := s.retain_spec a
    obtain ⟨hmade', hroots', howned', halive'⟩ := ih (s.retain a)
    exact ⟨hmade'.trans hmade, hroots'.trans hroots, howned'.trans howned,
      fun c => (halive' c).trans (halive c)⟩

end Store

namespace Counted

variable {s : Store ρ π} {as temps : List ℕ} {a : ℕ}

theorem retainAll (hs : Counted s temps) (has : ∀ a ∈ as, ∃ b, s.blocks a = some b) :
    Counted (s.retainAll as) (as ++ temps) := by
  induction as generalizing s temps with
  | nil => exact hs
  | cons a as ih =>
    obtain ⟨b, hb⟩ := has a List.mem_cons_self
    have halive := (s.retain_spec a).2.2.2
    refine (ih (hs.retain hb) fun c hc => ?_).perm List.perm_middle
    rw [← Option.isSome_iff_exists, halive]
    exact Option.isSome_iff_exists.2 (has c (List.mem_cons_of_mem _ hc))

/-- Pointers are moved to a variable. -/
theorem moveRoot [DecidableEq ρ] (hs : Counted s as) (x : ρ) :
    Counted (s.moveRoot x as) [] ∧ Frees (s.setRoot x as) (s.moveRoot x as) := by
  have hset : Counted (s.setRoot x as) (s.roots x) := by
    have h := hs.perm (List.Perm.of_eq (List.append_nil as).symm)
    exact (h.setRoot x).perm (List.Perm.of_eq (List.append_nil _))
  exact hset.letGo

/-- Pointers are copied to a variable. -/
theorem assign [DecidableEq ρ] (hs : Counted s []) (has : ∀ a ∈ as, ∃ b, s.blocks a = some b)
    (x : ρ) : Counted (s.assign x as) [] ∧ Frees (s.setRoot x as) (s.assign x as) := by
  have hretain := (hs.retainAll has).perm (List.Perm.of_eq (List.append_nil as))
  obtain ⟨hcounted, hfrees⟩ := hretain.moveRoot x
  refine ⟨hcounted, ?_⟩
  obtain ⟨hmade, hroots, howned, halive⟩ := s.retainAll_spec as
  refine ⟨hfrees.made.trans hmade, hfrees.roots.trans ?_, fun c b hb => ?_⟩
  · rw [Store.setRoot, Store.setRoot, hroots]
  · obtain ⟨hsame, hold⟩ := hfrees.owned c b hb
    refine ⟨hsame.trans (congrFun howned c), ?_⟩
    rw [← Option.isSome_iff_exists] at hold ⊢
    exact (halive c).symm.trans hold

/-- Pointers are moved to an object. -/
theorem moveOwned (hs : Counted s as) {b : ControlBlock} (hb : s.blocks a = some b) :
    Counted (s.moveOwned a as) [] ∧ Frees (s.setOwned a as) (s.moveOwned a as) := by
  have hset : Counted (s.setOwned a as) (s.owned a) := by
    have h := hs.perm (List.Perm.of_eq (List.append_nil as).symm)
    exact (h.setOwned hb).perm (List.Perm.of_eq (List.append_nil _))
  exact hset.letGo

end Counted

/-! ## Reachability -/

/-- A variable leads to the object. -/
inductive Reachable (s : Store ρ π) : ℕ → Prop
  | root {x : ρ} {a : ℕ} (h : a ∈ s.roots x) : Reachable s a
  | owned {a c : ℕ} (h : Reachable s a) (hc : c ∈ s.owned a) : Reachable s c

section

variable {s s' : Store ρ π} {a : ℕ}

/-- What is reachable is alive. -/
theorem Counted.exists_of_reachable {temps : List ℕ} (hs : Counted s temps) (h : Reachable s a) :
    ∃ b, s.blocks a = some b := by
  cases hb : s.blocks a with
  | some b => exact ⟨b, rfl⟩
  | none =>
    cases h with
    | root hx => exact absurd hx (hs.not_mem_out hb (.inl _))
    | owned _ hc => exact absurd hc (hs.not_mem_out hb (.inr _))

/-- **Alive and reachable.** If every pointer goes to a lower rank, what is alive is reachable. -/
theorem Counted.alive_iff_reachable (hs : Counted s []) {rank : ℕ → ℕ} {bound : ℕ}
    (hbound : ∀ a, rank a ≤ bound) (hrank : ∀ a, ∀ c ∈ s.owned a, rank c < rank a) :
    (∃ b, s.blocks a = some b) ↔ Reachable s a := by
  refine ⟨fun h => ?_, hs.exists_of_reachable⟩
  -- The owner of an object has a higher rank.
  induction hk : bound - rank a using Nat.strong_induction_on generalizing a with
  | _ k ih =>
    subst hk
    obtain ⟨b, hb⟩ := h
    obtain ⟨n, hn, huses⟩ := hs.count
    have hpos : 0 < n a := by
      have := huses a
      have := hs.positive a b hb
      rw [Store.useCount_of_blocks hb, List.count_nil] at *
      omega
    obtain ⟨v, hv⟩ := hn.pos_iff.1 hpos
    cases v with
    | inl x => exact .root hv
    | inr c =>
      have hac : a ∈ s.owned c := hv
      have hlt := hrank c a hac
      have hle := hbound c
      refine .owned (ih _ (by omega) ?_ rfl) hac
      cases hd : s.blocks c with
      | some d => exact ⟨d, rfl⟩
      | none =>
        rw [Store.owned, hd] at hac
        cases hac

/-- Letting go does not touch what is reachable. -/
theorem Frees.reachable_iff (h : Frees s s') (hs' : Counted s' []) :
    Reachable s' a ↔ Reachable s a := by
  refine ⟨fun ha => ?_, fun ha => ?_⟩
  · induction ha with
    | root hx => rw [h.roots] at hx; exact .root hx
    | @owned c d hc hd ih =>
      obtain ⟨b, hb⟩ := hs'.exists_of_reachable hc
      rw [(h.owned c b hb).1] at hd
      exact .owned ih hd
  · induction ha with
    | root hx => rw [← h.roots] at hx; exact .root hx
    | @owned c d hc hd ih =>
      obtain ⟨b, hb⟩ := hs'.exists_of_reachable ih
      rw [← (h.owned c b hb).1] at hd
      exact .owned ih hd

/-- What is reachable is still reachable when there are new objects. -/
theorem Reachable.extend {temps : List ℕ} (h : Reachable s a) (hs : Counted s temps)
    (hext : Extends s s') : Reachable s' a := by
  induction h with
  | root hx => rw [← hext.roots] at hx; exact .root hx
  | @owned c d hc hd ih =>
    obtain ⟨b, hb⟩ := hs.exists_of_reachable hc
    rw [← hext.owned (hs.bounded c b hb)] at hd
    exact .owned ih hd

/-- If every pointer goes to a lower rank, what an object takes over is as reachable as the object
is. -/
theorem Reachable.moveOwned {as : List ℕ} {rank : ℕ → ℕ} {b : ControlBlock} {c : ℕ}
    (h : Reachable s a) (hrank : ∀ a, ∀ c ∈ s.owned a, rank c < rank a) (hs : Counted s as)
    (hb : s.blocks a = some b) (hc : c ∈ as) : Reachable (s.moveOwned a as) c := by
  obtain ⟨hcounted, hfrees⟩ := hs.moveOwned hb
  refine (hfrees.reachable_iff hcounted).2 ?_
  have howned : (s.setOwned a as).owned = Function.update s.owned a as := by
    rw [Store.owned_update (s := s) (a := a) rfl, hb]
    rfl
  -- The way to the object does not go through the object.
  have hkept : ∀ d, Reachable s d → rank a ≤ rank d → Reachable (s.setOwned a as) d := by
    intro d hd hle
    induction hd with
    | root hx => exact .root hx
    | @owned e d he hd ih =>
      have hlt := hrank e d hd
      have hne : e ≠ a := fun heq => by rw [heq] at hlt; omega
      refine .owned (ih (by omega)) ?_
      rwa [howned, Function.update_of_ne hne]
  refine .owned (hkept a h (Nat.le_refl _)) ?_
  rwa [howned, Function.update_self]

end

end Refcount
