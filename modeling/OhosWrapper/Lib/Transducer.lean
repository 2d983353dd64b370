import Mathlib.Data.List.Basic

/-!
# Deterministic transducers

A transducer consumes an input, changes its state and emits a list of outputs. Whatever the
environment decides (the result of a call, say) is part of the input, so one input list is one
run, and a statement over all input lists is a statement over all runs.

**Runs.** `state s as` is the state after the inputs `as` from `s`, and `output s as` is what
was emitted on the way, in order.

**Rules.** `state_append` and `output_append` cut a run in two, `state_concat` and `output_concat`
split off its last step; `simulate` relates the runs of two transducers step by step.

**Families.** Transducers side by side, whose inputs come in any order. Each of them runs as if it
were alone (`family_run`).
-/

/-- A deterministic machine with states `σ`, inputs `α` and outputs `ω`. -/
structure Transducer (σ α ω : Type*) where
  step : σ → α → σ × List ω

namespace Transducer

variable {σ τ α ω ω' : Type*} (M : Transducer σ α ω)

/-! ## Runs -/

/-- The state after the inputs `as`. -/
def state : σ → List α → σ
  | s, [] => s
  | s, a :: as => state (M.step s a).1 as

/-- Everything emitted while consuming `as`. -/
def output : σ → List α → List ω
  | _, [] => []
  | s, a :: as => (M.step s a).2 ++ output (M.step s a).1 as

@[simp] theorem state_nil (s : σ) : M.state s [] = s := rfl

@[simp] theorem state_cons (s : σ) (a : α) (as : List α) :
    M.state s (a :: as) = M.state (M.step s a).1 as := rfl

@[simp] theorem output_nil (s : σ) : M.output s [] = [] := rfl

@[simp] theorem output_cons (s : σ) (a : α) (as : List α) :
    M.output s (a :: as) = (M.step s a).2 ++ M.output (M.step s a).1 as := rfl

theorem state_append (s : σ) (as bs : List α) :
    M.state s (as ++ bs) = M.state (M.state s as) bs := by
  induction as generalizing s with
  | nil => rfl
  | cons a as ih => exact ih (M.step s a).1

theorem output_append (s : σ) (as bs : List α) :
    M.output s (as ++ bs) = M.output s as ++ M.output (M.state s as) bs := by
  induction as generalizing s with
  | nil => rfl
  | cons a as ih => simp only [List.cons_append, output_cons, state_cons, ih, List.append_assoc]

theorem state_concat (s : σ) (as : List α) (a : α) :
    M.state s (as ++ [a]) = (M.step (M.state s as) a).1 := by
  rw [state_append]; rfl

theorem output_concat (s : σ) (as : List α) (a : α) :
    M.output s (as ++ [a]) = M.output s as ++ (M.step (M.state s as) a).2 := by
  rw [output_append]; simp

/-! ## Simulation -/

variable {M}

/-- **The simulation rule.** If related states stay related and the outputs of `M`, seen through
`f`, are those of `M'`, then the same holds of whole runs. -/
theorem simulate {M' : Transducer τ α ω'} {R : σ → τ → Prop} {f : ω → Option ω'}
    (hstep : ∀ s t a, R s t → R (M.step s a).1 (M'.step t a).1 ∧
      (M.step s a).2.filterMap f = (M'.step t a).2)
    {s : σ} {t : τ} (h : R s t) (as : List α) :
    R (M.state s as) (M'.state t as) ∧ (M.output s as).filterMap f = M'.output t as := by
  induction as generalizing s t with
  | nil => exact ⟨h, rfl⟩
  | cons a as ih =>
    obtain ⟨hR, ho⟩ := hstep s t a h
    obtain ⟨hRs, hos⟩ := ih hR
    exact ⟨hRs, by rw [output_cons, List.filterMap_append, ho, hos, output_cons]⟩

/-! ## Families -/

variable {κ β : Type*} [DecidableEq κ]

/-- What belongs to `k`, in order. -/
def only (k : κ) (bs : List (κ × β)) : List β :=
  bs.filterMap fun b => if b.1 = k then some b.2 else none

theorem only_append (k : κ) (bs cs : List (κ × β)) : only k (bs ++ cs) = only k bs ++ only k cs :=
  List.filterMap_append

theorem only_cons_self (k : κ) (b : β) (bs : List (κ × β)) :
    only k ((k, b) :: bs) = b :: only k bs := by
  rw [only, List.filterMap_cons, if_pos rfl]
  rfl

theorem only_cons_of_ne {k k' : κ} (h : k' ≠ k) (b : β) (bs : List (κ × β)) :
    only k ((k', b) :: bs) = only k bs := by
  rw [only, List.filterMap_cons, if_neg h]
  rfl

theorem only_map_self (k : κ) (bs : List β) : only k (bs.map (k, ·)) = bs := by
  induction bs with
  | nil => rfl
  | cons b bs ih => rw [List.map_cons, only_cons_self, ih]

theorem only_map_of_ne {k k' : κ} (h : k' ≠ k) (bs : List β) : only k (bs.map (k', ·)) = [] := by
  induction bs with
  | nil => rfl
  | cons b bs ih => rw [List.map_cons, only_cons_of_ne h, ih]

theorem mem_only {k : κ} {b : β} {bs : List (κ × β)} : b ∈ only k bs ↔ (k, b) ∈ bs := by
  simp only [only, List.mem_filterMap, Option.ite_none_right_eq_some, Option.some.injEq]
  refine ⟨?_, fun h => ⟨(k, b), h, rfl, rfl⟩⟩
  rintro ⟨⟨k', b'⟩, h, rfl, rfl⟩
  exact h

/-- Transducers side by side: an input goes to one of them. -/
def family (M : κ → Transducer σ α ω) : Transducer (κ → σ) (κ × α) (κ × ω) where
  step s a :=
    let r := (M a.1).step (s a.1) a.2
    (Function.update s a.1 r.1, r.2.map (a.1, ·))

/-- **Families.** Each transducer is in the state its own inputs lead to, and emits what it emits
for them. -/
theorem family_run (M : κ → Transducer σ α ω) (s : κ → σ) (as : List (κ × α)) (k : κ) :
    (family M).state s as k = (M k).state (s k) (only k as) ∧
      only k ((family M).output s as) = (M k).output (s k) (only k as) := by
  induction as generalizing s with
  | nil => exact ⟨rfl, rfl⟩
  | cons a as ih =>
    obtain ⟨k', a⟩ := a
    obtain ⟨hs, ho⟩ := ih ((family M).step s (k', a)).1
    rw [state_cons, output_cons, only_append, hs, ho]
    by_cases hk : k' = k
    · subst hk
      rw [only_cons_self]
      simp only [family, Function.update_self, only_map_self, state_cons, output_cons, and_self]
    · rw [only_cons_of_ne hk]
      simp only [family, Function.update_of_ne (Ne.symm hk), only_map_of_ne hk, List.nil_append,
        and_self]

end Transducer
