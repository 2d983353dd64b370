import Mathlib.Data.List.Basic
import Mathlib.Data.List.Induction

/-!
# Partial machines

A machine whose steps can be refused: `step s a` is `none` where the input `a` makes no sense in
the state `s`. A run is a list of inputs of which none is refused, and a statement about all runs
is a statement about all such lists.

**Conditions.** `Always P` asks `P` of every state a run goes through. `Along C` asks, at each
step, the condition `C` of the state before the step and of the input.

**Rules.** `invariant_along` proves an invariant from the steps that meet a condition.
`exists_first_violation` finds the first step of a run that does not meet it, and `persists` keeps
what is wrong from there to the end of the run.
-/

/-- A deterministic machine with states `σ` and inputs `α`, some of which are refused. -/
structure Machine (σ α : Type*) where
  init : σ
  step : σ → α → Option σ

namespace Machine

variable {σ α : Type*} (M : Machine σ α)

/-! ## Runs -/

/-- The state after the inputs, if none of them is refused. -/
def run (as : List α) : Option σ := as.foldlM M.step M.init

/-- `P` holds of every state of the run, the first and the last included. -/
def Always (P : σ → Prop) (as : List α) : Prop :=
  ∀ pre post s, as = pre ++ post → M.run pre = some s → P s

/-- At each step, `C` holds of the state before it and the input. -/
def Along (C : σ → α → Prop) (as : List α) : Prop :=
  ∀ pre a post s, as = pre ++ a :: post → M.run pre = some s → C s a

variable {M}

theorem run_concat (as : List α) (a : α) :
    M.run (as ++ [a]) = (M.run as).bind (M.step · a) := by
  simp only [run, List.foldlM_append, List.foldlM_cons, List.foldlM_nil, bind_pure]
  rfl

theorem run_concat_eq_some {as : List α} {a : α} {s : σ} :
    M.run (as ++ [a]) = some s ↔ ∃ t, M.run as = some t ∧ M.step t a = some s := by
  rw [run_concat, Option.bind_eq_some_iff]

/-- A run can be cut anywhere. -/
theorem exists_run_of_append {as bs : List α} {s : σ} (h : M.run (as ++ bs) = some s) :
    ∃ t, M.run as = some t := by
  induction bs using List.reverseRecOn generalizing s with
  | nil => exact ⟨s, by simpa using h⟩
  | append_singleton bs b ih =>
    rw [← List.append_assoc] at h
    obtain ⟨t, ht, -⟩ := run_concat_eq_some.1 h
    exact ih ht

/-! ## Conditions along a run -/

theorem Always.of_append {P : σ → Prop} {as bs : List α} (h : M.Always P (as ++ bs)) :
    M.Always P as := by
  intro pre post s has hs
  exact h pre (post ++ bs) s (by rw [has, List.append_assoc]) hs

theorem Always.last {P : σ → Prop} {as : List α} {s : σ} (h : M.Always P as)
    (hrun : M.run as = some s) : P s :=
  h as [] s (List.append_nil as).symm hrun

theorem Along.of_append {C : σ → α → Prop} {as bs : List α} (h : M.Along C (as ++ bs)) :
    M.Along C as := by
  intro pre a post s has hs
  exact h pre a (post ++ bs) s (by rw [has, List.append_assoc, List.cons_append]) hs

theorem along_nil (C : σ → α → Prop) : M.Along C [] := by
  intro pre a post s h
  simp at h

/-- The condition on the first step, and on the run from there. -/
theorem along_cons {C : σ → α → Prop} {a : α} {as : List α} (ha : C M.init a)
    (has : ∀ s, M.step M.init a = some s → Along ⟨s, M.step⟩ C as) : M.Along C (a :: as) := by
  intro pre b post t hops ht
  cases pre with
  | nil =>
    obtain ⟨rfl, -⟩ := List.cons.inj hops
    exact Option.some.inj ht ▸ ha
  | cons p pre =>
    obtain ⟨rfl, rfl⟩ := List.cons.inj hops
    rw [run, List.foldlM_cons] at ht
    obtain ⟨s, hs, ht⟩ := Option.bind_eq_some_iff.1 ht
    exact has s hs pre b post t rfl ht

theorem Along.concat {C : σ → α → Prop} {as : List α} {b : α} (h : M.Along C as)
    (hb : ∀ t, M.run as = some t → C t b) : M.Along C (as ++ [b]) := by
  intro pre a post t has ht
  rcases post.eq_nil_or_concat' with rfl | ⟨post, c, rfl⟩
  · obtain ⟨rfl, hab⟩ := List.append_inj' has rfl
    obtain rfl := List.singleton_inj.1 hab
    exact hb t ht
  · rw [← List.cons_append, ← List.append_assoc] at has
    obtain ⟨rfl, -⟩ := List.append_inj' has rfl
    exact h pre a post t rfl ht

/-- A condition that holds of the inputs in every state holds along the run. -/
theorem along_of_forall {C : σ → α → Prop} {as : List α} (h : ∀ a ∈ as, ∀ s, C s a) :
    M.Along C as := by
  intro pre a post s has _
  exact h a (by rw [has]; simp) s

/-- What holds along a run of an input alone holds of all its inputs. -/
theorem forall_of_along {Q : α → Prop} {as : List α} {s : σ} (hrun : M.run as = some s)
    (h : M.Along (fun _ a => Q a) as) : ∀ a ∈ as, Q a := by
  intro a ha
  obtain ⟨pre, post, rfl⟩ := List.append_of_mem ha
  obtain ⟨t, ht⟩ := exists_run_of_append hrun
  exact h pre a post t rfl ht

/-! ## Invariants -/

/-- **The invariant rule.** What the steps that meet `C` preserve holds after every run along
`C`. -/
theorem invariant_along {I : σ → Prop} {C : σ → α → Prop} (hinit : I M.init)
    (hstep : ∀ s a s', M.step s a = some s' → C s a → I s → I s') {as : List α} {s : σ}
    (hC : M.Along C as) (hrun : M.run as = some s) : I s := by
  induction as using List.reverseRecOn generalizing s with
  | nil => exact Option.some.inj hrun ▸ hinit
  | append_singleton as a ih =>
    obtain ⟨t, ht, hs⟩ := run_concat_eq_some.1 hrun
    exact hstep t a s hs (hC as a [] t rfl ht) (ih hC.of_append ht)

theorem invariant {I : σ → Prop} (hinit : I M.init)
    (hstep : ∀ s a s', M.step s a = some s' → I s → I s') {as : List α} {s : σ}
    (hrun : M.run as = some s) : I s :=
  invariant_along (C := fun _ _ => True) hinit (fun s a s' h _ => hstep s a s' h)
    (fun _ _ _ _ _ _ => trivial) hrun

/-- What holds after every run along `C` holds throughout such a run. -/
theorem always_of_along {P : σ → Prop} {C : σ → α → Prop}
    (h : ∀ {as s}, M.Along C as → M.run as = some s → P s) {as : List α} (hC : M.Along C as) :
    M.Always P as := by
  intro pre post s has hs
  subst has
  exact h hC.of_append hs

/-! ## Violations -/

/-- A run that does not meet a condition has a first step that does not. -/
theorem exists_first_violation {C : σ → α → Prop} {as : List α} {s : σ}
    (hrun : M.run as = some s) (h : ¬ M.Along C as) :
    ∃ pre a post t t', as = pre ++ [a] ++ post ∧ M.run pre = some t ∧ M.Along C pre ∧
      ¬ C t a ∧ M.step t a = some t' ∧ M.run (pre ++ [a]) = some t' := by
  induction as using List.reverseRecOn generalizing s with
  | nil =>
    refine absurd ?_ h
    intro pre a post t has
    simp at has
  | append_singleton as b ih =>
    obtain ⟨u, hu, hs⟩ := run_concat_eq_some.1 hrun
    by_cases hC : M.Along C as
    · -- Every step before the last one meets the condition, so the last one does not.
      refine ⟨as, b, [], u, s, (List.append_nil _).symm, hu, hC, ?_, hs, hrun⟩
      intro hb
      apply h
      apply hC.concat
      intro t ht
      rw [hu] at ht
      exact Option.some.inj ht ▸ hb
    · obtain ⟨pre, a, post, t, t', rfl, ht⟩ := ih hu hC
      exact ⟨pre, a, post ++ [b], t, t', List.append_assoc _ _ _, ht⟩

/-- What every step keeps, as long as `Q` holds, is still there at the end of the run. -/
theorem persists {P Q : σ → Prop} (hstep : ∀ s a s', M.step s a = some s' → Q s' → P s → P s')
    {pre post : List α} {s t : σ} (hQ : M.Always Q (pre ++ post)) (hpre : M.run pre = some s)
    (hs : P s) (hrun : M.run (pre ++ post) = some t) : P t := by
  induction post using List.reverseRecOn generalizing t with
  | nil =>
    rw [List.append_nil, hpre] at hrun
    exact Option.some.inj hrun ▸ hs
  | append_singleton post b ih =>
    rw [← List.append_assoc] at hrun hQ
    obtain ⟨u, hu, ht⟩ := run_concat_eq_some.1 hrun
    exact hstep u b t ht (hQ.last hrun) (ih hQ.of_append hu)

/-- What the steps that meet `C` keep is still there at the end of a run along `C`. -/
theorem persists_along {P : σ → Prop} {C : σ → α → Prop}
    (hstep : ∀ s a s', M.step s a = some s' → C s a → P s → P s') {pre post : List α} {s t : σ}
    (hC : M.Along C (pre ++ post)) (hpre : M.run pre = some s) (hs : P s)
    (hrun : M.run (pre ++ post) = some t) : P t := by
  induction post using List.reverseRecOn generalizing t with
  | nil =>
    rw [List.append_nil, hpre] at hrun
    exact Option.some.inj hrun ▸ hs
  | append_singleton post b ih =>
    rw [← List.append_assoc] at hrun hC
    obtain ⟨u, hu, ht⟩ := run_concat_eq_some.1 hrun
    exact hstep u b t ht (hC _ b [] u rfl hu) (ih hC.of_append hu)

end Machine
