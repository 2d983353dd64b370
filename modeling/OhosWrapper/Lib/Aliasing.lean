import OhosWrapper.Lib.Ownership

/-!
# Lost and shared handles

Two ways out of single ownership, neither of which a program can repair. A handle that was not
given back and that no object holds is lost: the special members get handles only from the objects
they are called on. And where the special members copy a handle, two objects share one until one
of them gives it back under the other.

**Theorem (`Lost.not_sound`).** A program that loses a handle is not sound at its end.

**Theorem (`Copies.harmless_of_sound`).** If the special members copy the handle and the
destructor gives it back, a program that destroys all its objects is sound only if it neither
constructs an object from another nor assigns one to another.
-/

namespace Ownership

/-- The operation neither constructs an object from another nor assigns one to another. -/
def Op.Harmless {ι α ρ : Type*} : Op ι α ρ → Prop
  | .constructFrom _ _ => False
  | .assign x y => x = y
  | .construct _ _ | .destroy _ _ => True

namespace Class

variable {ι α σ ρ φ η : Type*} [DecidableEq φ] [DecidableEq η]

variable (C : Class α σ ρ φ η)

/-! ## Lost handles -/

/-- The handle was granted and not given back, and no object holds it. -/
def Lost (w : World ι σ φ η) (h : η) : Prop :=
  h ∈ w.granted ∧ C.disposals w h = 0 ∧ ¬ C.Held w h

/-- The special members get handles from the objects they are called on and nowhere else. -/
structure Conservative : Prop where
  constructFrom : ∀ o h, C.held (C.constructFrom o).1 = some h ∨
    C.held (C.constructFrom o).2 = some h → C.held o = some h
  assign : ∀ b this other h, C.held (C.assign b this other).this = some h ∨
    C.held (C.assign b this other).other = some h ∨
    (C.dispose, some h) ∈ (C.assign b this other).calls →
    C.held this = some h ∨ C.held other = some h
  destroy : ∀ this r h, (C.dispose, some h) ∈ (C.destroy this r).1 → C.held this = some h

variable {C}

/-- A lost handle is not given back by the time all objects are destroyed. -/
theorem Lost.not_sound {w : World ι σ φ η} {h : η} (hl : C.Lost w h) (hall : w.AllDestroyed) :
    ¬ C.Sound w := by
  intro hs
  have hone := hs.once hall h hl.1
  have hzero : w.calls.count (C.dispose, some h) = 0 := hl.2.1
  omega

/-- A handle whose last holder lets go without giving it back is lost. -/
theorem Covered.lost {w w' : World ι σ φ η} {h : η} (hw : C.Covered w h) (hg : h ∈ w.granted)
    (hh : C.Held w h) (hg' : h ∈ w'.granted) (hd : C.disposals w' h = C.disposals w h)
    (hn : ¬ C.Held w' h) : C.Lost w' h := by
  cases hw with
  | absent h₁ _ => exact absurd hg h₁
  | held _ h₂ _ => exact ⟨hg', hd.trans h₂, hn⟩
  | returned _ _ h₃ => exact absurd hh h₃

variable [DecidableEq ι]

/-- A lost handle stays lost, unless a constructor makes it up. -/
theorem Lost.step {w w' : World ι σ φ η} {op : Op ι α ρ} {h : η} (hC : C.Conservative)
    (hstep : C.step w op = some w')
    (hnew : ∀ a, (C.construct a).1.bind C.held = some h → (C.construct a).2 = some h)
    (hl : C.Lost w h) : C.Lost w' h := by
  obtain ⟨hg, hd, hn⟩ := hl
  have hnot : ∀ {x o}, w.objects x = some o → C.held o ≠ some h :=
    fun hx hh => hn (held_of_objects hx hh)
  cases step_cases hstep with
  | construct x a o hx ha =>
    refine ⟨hg, hd, not_held_put hn fun ho => ?_⟩
    have hgranted := hnew a (by rw [ha]; exact ho)
    rw [ha] at hgranted
    cases hgranted
  | grant x a o k hx ha hk =>
    refine ⟨List.mem_append_left _ hg, hd, not_held_put hn fun ho => ?_⟩
    have hgranted := hnew a (by rw [ha]; exact ho)
    rw [ha] at hgranted
    exact hk (Option.some.inj hgranted ▸ hg)
  | constructFrom x y other hx hy =>
    have hfrom := hC.constructFrom other h
    refine ⟨hg, hd, not_held_put (not_held_put hn fun ho => ?_) fun ho => ?_⟩
    · exact hnot hy (hfrom (Or.inr ho))
    · exact hnot hy (hfrom (Or.inl ho))
  | assignSelf x this hx =>
    have hfrom := hC.assign true this this h
    rw [or_self] at hfrom
    refine ⟨hg, ?_, not_held_put hn fun ho => hnot hx (hfrom (Or.inl ho))⟩
    rw [disposals_call, disposals_put, hd, List.count_eq_zero_of_not_mem]
    exact fun hcall => hnot hx (hfrom (Or.inr (Or.inr hcall)))
  | assign x y this other hxy hx hy =>
    have hneither : ¬ (C.held this = some h ∨ C.held other = some h) :=
      not_or.2 ⟨hnot hx, hnot hy⟩
    have hfrom := hC.assign false this other h
    refine ⟨hg, ?_, not_held_put (not_held_put hn fun ho => ?_) fun ho => ?_⟩
    · rw [disposals_call, disposals_put, disposals_put, hd, List.count_eq_zero_of_not_mem]
      exact fun hcall => hneither (hfrom (Or.inr (Or.inr hcall)))
    · exact hneither (hfrom (Or.inr (Or.inl ho)))
    · exact hneither (hfrom (Or.inl ho))
  | destroy x r this hx =>
    refine ⟨hg, ?_, not_held_put hn fun ho => nomatch ho⟩
    rw [disposals_finish, disposals_call, disposals_put, hd, List.count_eq_zero_of_not_mem]
    exact fun hcall => hnot hx (hC.destroy this r h hcall)

theorem Lost.run {pre post : List (Op ι α ρ)} {w w' : World ι σ φ η} {h : η}
    (hC : C.Conservative)
    (hnew : ∀ a, (C.construct a).1.bind C.held = some h → (C.construct a).2 = some h)
    (hpre : C.machine.run pre = some w) (hl : C.Lost w h)
    (hrun : C.machine.run (pre ++ post) = some w') : C.Lost w' h :=
  Machine.persists (P := (C.Lost · h)) (Q := fun _ => True)
    (fun _ _ _ hstep _ hl => hl.step hC hstep hnew) (fun _ _ _ _ _ => trivial) hpre hl hrun

/-! ## Shared handles -/

variable (C)

/-- Two objects hold the same handle. -/
def Shared (w : World ι σ φ η) : Prop :=
  ∃ x y h, x ≠ y ∧ C.holds w x = some h ∧ C.holds w y = some h

/-- Objects always hold a handle. Construction from another object and assignment copy it, and the
destructor gives it back. -/
structure Copies : Prop where
  held : ∀ o, (C.held o).isSome
  construct : ∀ a, (C.construct a).1.bind C.held = (C.construct a).2
  constructFrom : ∀ o, C.held (C.constructFrom o).1 = C.held o ∧
    C.held (C.constructFrom o).2 = C.held o
  assign : ∀ b this other, C.held (C.assign b this other).this = C.held other ∧
    C.held (C.assign b this other).other = C.held other ∧ (C.assign b this other).calls = []
  destroy : ∀ this r, C.GivesBack (C.destroy this r).1 (C.held this)

variable {C}

/-- Harmless operations are proper. -/
theorem Copies.proper (hC : C.Copies) {op : Op ι α ρ} (hop : op.Harmless) (w : World ι σ φ η) :
    C.Proper w op := by
  cases op with
  | construct x a => exact hC.construct a
  | constructFrom x y => exact hop.elim
  | assign x y =>
    obtain rfl : x = y := hop
    intro this other _ _
    obtain ⟨hthis, -, hcalls⟩ := hC.assign true this this
    rw [if_pos rfl, hcalls]
    exact ⟨hthis, fun h => rfl⟩
  | destroy x r => exact fun this _ => hC.destroy this r

/-- Any other operation leaves two objects with the same handle. -/
theorem Copies.shared (hC : C.Copies) {w w' : World ι σ φ η} {op : Op ι α ρ}
    (hstep : C.step w op = some w') (hop : ¬ op.Harmless) : C.Shared w' := by
  cases step_cases hstep with
  | construct x a o hx ha | grant x a o h hx ha hn | destroy x r this hx => exact absurd trivial hop
  | assignSelf x this hx => exact absurd rfl hop
  | constructFrom x y other hx hy =>
    obtain ⟨hnew, hleft⟩ := hC.constructFrom other
    obtain ⟨h, hh⟩ := Option.isSome_iff_exists.1 (hC.held other)
    have hxy : x ≠ y := by
      intro hxy
      rw [← hxy, hx] at hy
      cases hy
    refine ⟨x, y, h, hxy, ?_, ?_⟩
    · simp [hnew, hh]
    · simp [Function.update_of_ne hxy.symm, hleft, hh]
  | assign x y this other hxy hx hy =>
    obtain ⟨hthis, hother, -⟩ := hC.assign false this other
    obtain ⟨h, hh⟩ := Option.isSome_iff_exists.1 (hC.held other)
    refine ⟨x, y, h, hxy, ?_, ?_⟩
    · simp [hthis, hh]
    · simp [Function.update_of_ne hxy.symm, hother, hh]

/-- A shared handle stays shared until it is given back while an object holds it. -/
theorem Copies.shared_step (hC : C.Copies) {w w' : World ι σ φ η} {op : Op ι α ρ}
    (hstep : C.step w op = some w') (hs : C.Sound w') (hw : C.Shared w) : C.Shared w' := by
  by_cases hop : op.Harmless
  · obtain ⟨x₁, x₂, h, hne, h₁, h₂⟩ := hw
    have hdead : ∀ {x}, w.objects x = none → x₁ ≠ x ∧ x₂ ≠ x := by
      intro x hx
      have hnone : C.holds w x = none := holds_of_objects hx
      refine ⟨?_, ?_⟩
      · intro hx₁
        rw [hx₁, hnone] at h₁
        cases h₁
      · intro hx₂
        rw [hx₂, hnone] at h₂
        cases h₂
    cases step_cases hstep with
    | construct x a o hx ha | grant x a o k hx ha hn =>
      obtain ⟨hx₁, hx₂⟩ := hdead hx
      refine ⟨x₁, x₂, h, hne, ?_, ?_⟩
      · simp [Function.update_of_ne hx₁, h₁]
      · simp [Function.update_of_ne hx₂, h₂]
    | constructFrom x y other hx hy => exact hop.elim
    | assign x y this other hxy hx hy => exact absurd hop hxy
    | assignSelf x this hx =>
      obtain ⟨hthis, -, -⟩ := hC.assign true this this
      have hholds : C.holds ((w.put x (some (C.assign true this this).this)).call
          (C.assign true this this).calls) = C.holds w := by
        rw [holds_call, holds_put_same hx hthis]
      exact ⟨x₁, x₂, h, hne, by rw [hholds, h₁], by rw [hholds, h₂]⟩
    | destroy x r this hx =>
      have hgone : ∀ {y k}, C.holds w x = some k → y ≠ x → C.holds w y ≠ some k := by
        intro y k hk hy hyk
        have hcount := hC.destroy this r k
        rw [holds_of_objects hx, Option.bind_some] at hk
        rw [if_pos hk] at hcount
        refine hs.not_held k ?_ y (by simp [Function.update_of_ne hy, hyk])
        rw [← disposals_pos]
        simp [hcount]
      by_cases hx₁ : x₁ = x
      · exact absurd h₂ (hgone (hx₁ ▸ h₁) (hx₁ ▸ hne.symm))
      · by_cases hx₂ : x₂ = x
        · exact absurd h₁ (hgone (hx₂ ▸ h₂) hx₁)
        · refine ⟨x₁, x₂, h, hne, ?_, ?_⟩
          · simp [Function.update_of_ne hx₁, h₁]
          · simp [Function.update_of_ne hx₂, h₂]
  · exact hC.shared hstep hop

/-- **Copied handles.** A program of harmless operations is sound throughout. -/
theorem Copies.sound_of_harmless (hC : C.Copies) {ops : List (Op ι α ρ)}
    (h : ∀ op ∈ ops, op.Harmless) : C.machine.Always C.Sound ops :=
  always_sound (Machine.along_of_forall fun op hop => hC.proper (h op hop))

/-- **Copied handles.** A program that is sound throughout and destroys all its objects consists
of harmless operations. -/
theorem Copies.harmless_of_sound (hC : C.Copies) {ops : List (Op ι α ρ)} {w : World ι σ φ η}
    (hrun : C.machine.run ops = some w) (hall : w.AllDestroyed)
    (hs : C.machine.Always C.Sound ops) : ∀ op ∈ ops, op.Harmless := by
  by_contra hbad
  have hnot : ¬ C.machine.Along (fun _ op => op.Harmless) ops := by
    intro halong
    apply hbad
    intro op hop
    obtain ⟨pre, post, rfl⟩ := List.append_of_mem hop
    obtain ⟨t, ht⟩ := Machine.exists_run_of_append hrun
    exact halong pre op post t rfl ht
  obtain ⟨pre, op, post, t, t', rfl, ht, -, hop, ht', hmid⟩ :=
    Machine.exists_first_violation hrun hnot
  have hshared : C.Shared w :=
    Machine.persists (Q := C.Sound) (fun _ _ _ hstep hs hw => hC.shared_step hstep hs hw) hs
      hmid (hC.shared ht' hop) hrun
  obtain ⟨x, -, h, -, hx, -⟩ := hshared
  exact not_held_of_allDestroyed hall h ⟨x, hx⟩

end Class

end Ownership
