import OhosWrapper.Lib.Aliasing

/-!
# Drivers that check what they take back

A driver that keeps books takes a handle back only if it granted it and has not got it back since.
Where a destructor throws when the driver refuses, giving a handle back twice ends the program.

**Theorem (`Copies.terminated_iff`).** If the special members copy the handle, a program that
destroys all its objects is ended by a destructor if and only if it constructs an object from
another or assigns one to another.
-/

namespace Ownership

namespace Class

variable {ι α σ ρ φ η : Type*} [DecidableEq φ] [DecidableEq η]

variable (C : Class α σ ρ φ η) (accepts : ρ → Prop)

/-- The handle was granted and not given back. -/
def Outstanding (w : World ι σ φ η) (h : η) : Prop := h ∈ w.granted ∧ C.disposals w h = 0

/-- The destructor throws unless the driver accepts the handle. -/
def Reports : Prop := ∀ this r, (C.destroy this r).2 = false ↔ accepts r

/-- The driver accepts a handle exactly if it is outstanding. -/
def Checks (w : World ι σ φ η) : Op ι α ρ → Prop
  | .destroy x r => ∀ h, C.holds w x = some h → (accepts r ↔ C.Outstanding w h)
  | _ => True

/-- An object holds a handle that was given back, or that another object holds too. -/
def Tainted (w : World ι σ φ η) : Prop :=
  ∃ x h, C.holds w x = some h ∧ (0 < C.disposals w h ∨ ∃ y, y ≠ x ∧ C.holds w y = some h)

variable {C accepts}

theorem Shared.tainted {w : World ι σ φ η} (hw : C.Shared w) : C.Tainted w := by
  obtain ⟨x, y, h, hxy, hx, hy⟩ := hw
  exact ⟨x, h, hx, Or.inr ⟨y, hxy.symm, hy⟩⟩

/-- Where objects keep what they hold, and nothing is given back, nothing is mended. -/
theorem Tainted.frame {w w' : World ι σ φ η} (hw : C.Tainted w)
    (hholds : ∀ x h, C.holds w x = some h → C.holds w' x = some h)
    (hd : ∀ h, C.disposals w' h = C.disposals w h) : C.Tainted w' := by
  obtain ⟨x, h, hx, hback | ⟨y, hyx, hy⟩⟩ := hw
  · exact ⟨x, h, hholds x h hx, Or.inl (by rwa [hd])⟩
  · exact ⟨x, h, hholds x h hx, Or.inr ⟨y, hyx, hholds y h hy⟩⟩

variable [DecidableEq ι]

omit [DecidableEq φ] [DecidableEq η] in
/-- An object put where there was none does not change what the others hold. -/
theorem holds_put_of_none {w : World ι σ φ η} {x : ι} (hx : w.objects x = none) (o : Option σ)
    {y : ι} {h : η} (hy : C.holds w y = some h) : C.holds (w.put x o) y = some h := by
  have hyx : y ≠ x := by
    rintro rfl
    rw [holds_of_objects hx] at hy
    cases hy
  rw [holds_put, Function.update_of_ne hyx, hy]

/-- **One step.** The handle an object should not hold is still there, or the step has ended the
program. -/
theorem Copies.tainted_step (hC : C.Copies) (hR : C.Reports accepts) {w w' : World ι σ φ η}
    {op : Op ι α ρ} (hstep : C.step w op = some w') (hop : C.Checks accepts w op)
    (hw : C.Tainted w) : w'.terminated = true ∨ C.Tainted w' := by
  cases step_cases hstep with
  | construct x a o hx ha =>
    exact Or.inr (hw.frame (fun y h => holds_put_of_none hx o) fun h => rfl)
  | grant x a o k hx ha hn =>
    exact Or.inr (hw.frame (fun y h => holds_put_of_none hx o) fun h => rfl)
  | constructFrom x y other hx hy =>
    have hharm : ¬ (Op.constructFrom x y : Op ι α ρ).Harmless := id
    exact Or.inr (hC.shared hstep hharm).tainted
  | assign x y this other hxy hx hy =>
    have hharm : ¬ (Op.assign x y : Op ι α ρ).Harmless := hxy
    exact Or.inr (hC.shared hstep hharm).tainted
  | assignSelf x this hx =>
    obtain ⟨hthis, -, hcalls⟩ := hC.assign true this this
    refine Or.inr (hw.frame (fun y h hy => ?_) fun h => ?_)
    · rwa [holds_call, holds_put_same hx hthis]
    · rw [disposals_call, disposals_put, hcalls, List.count_nil, Nat.add_zero]
  | destroy x r this hx =>
    obtain ⟨k, hk⟩ := Option.isSome_iff_exists.1 (hC.held this)
    have hxk : C.holds w x = some k := by rw [holds_of_objects hx, Option.bind_some, hk]
    by_cases hback : C.disposals w k = 0
    · right
      -- The handle is given back now, and whoever else holds it should not.
      have hgiven : C.disposals (((w.put x none).call (C.destroy this r).1).finish
          (C.destroy this r).2) k = 1 := by
        rw [disposals_finish, disposals_call, disposals_put, hback, hC.destroy this r k, if_pos hk]
      have hother : ∀ y h, y ≠ x → C.holds w y = some h → C.holds
          (((w.put x none).call (C.destroy this r).1).finish (C.destroy this r).2) y = some h := by
        intro y h hyx hy
        rw [holds_finish, holds_call, holds_put, Function.update_of_ne hyx, hy]
      have hleft : ∀ y, y ≠ x → C.holds w y = some k → C.Tainted
          (((w.put x none).call (C.destroy this r).1).finish (C.destroy this r).2) :=
        fun y hyx hy => ⟨y, k, hother y k hyx hy, Or.inl (by omega)⟩
      obtain ⟨y, h, hy, htaint⟩ := hw
      by_cases hyx : y = x
      · subst hyx
        obtain rfl := Option.some.inj (hxk.symm.trans hy)
        rcases htaint with hpos | ⟨z, hzy, hz⟩
        · omega
        · exact hleft z hzy hz
      · rcases htaint with hpos | ⟨z, hzy, hz⟩
        · refine ⟨y, h, hother y h hyx hy, Or.inl ?_⟩
          rw [disposals_finish, disposals_call, disposals_put]
          omega
        · by_cases hzx : z = x
          · subst hzx
            obtain rfl := Option.some.inj (hxk.symm.trans hz)
            exact hleft y hyx hy
          · exact ⟨y, h, hother y h hyx hy, Or.inr ⟨z, hzy, hother z h hzx hz⟩⟩
    · left
      have hrefused : ¬ accepts r := fun h => hback ((hop k hxk).1 h).2
      rw [World.finish, ← Bool.not_eq_false]
      exact fun h => hrefused ((hR this r).1 h)

/-! ## Programs -/

/-- A program of harmless operations is not ended by a destructor. -/
theorem Copies.not_terminated (hC : C.Copies) (hR : C.Reports accepts) {ops : List (Op ι α ρ)}
    {w : World ι σ φ η} (hrun : C.machine.run ops = some w)
    (hops : C.machine.Along (C.Checks accepts) ops) (h : ∀ op ∈ ops, op.Harmless) :
    w.terminated = false := by
  induction ops using List.reverseRecOn generalizing w with
  | nil => exact Option.some.inj hrun ▸ rfl
  | append_singleton ops op ih =>
    obtain ⟨t, ht, hstep⟩ := Machine.run_concat_eq_some.1 hrun
    have hbefore : ∀ op' ∈ ops, op'.Harmless := fun op' hop' => h op' (List.mem_append_left _ hop')
    have hnot := ih ht hops.of_append hbefore
    have howner : C.SingleOwner t :=
      .run (Machine.along_of_forall fun op' hop' => hC.proper (hbefore op' hop')) ht
    have hcheck := hops ops op [] t rfl ht
    cases step_cases hstep with
    | construct x a o hx ha | grant x a o k hx ha hn | constructFrom x y other hx hy
    | assignSelf x this hx | assign x y this other hxy hx hy => exact hnot
    | destroy x r this hx =>
      obtain ⟨k, hk⟩ := Option.isSome_iff_exists.1 (hC.held this)
      have hxk : C.holds t x = some k := by rw [holds_of_objects hx, Option.bind_some, hk]
      refine (hR this r).2 ((hcheck k hxk).2 ⟨howner.granted x k hxk, ?_⟩)
      cases howner.covered k with
      | absent _ h₀ | held _ h₀ _ => exact h₀
      | returned _ _ hh => exact absurd ⟨x, hxk⟩ hh

/-- A program that gets through to the end, with all its objects destroyed, was harmless. -/
theorem Copies.harmless_of_not_terminated (hC : C.Copies) (hR : C.Reports accepts)
    {ops : List (Op ι α ρ)} {w : World ι σ φ η} (hrun : C.machine.run ops = some w)
    (hops : C.machine.Along (C.Checks accepts) ops) (hall : w.AllDestroyed)
    (hnot : w.terminated = false) : ∀ op ∈ ops, op.Harmless := by
  by_contra hbad
  have hviolated : ¬ C.machine.Along (fun _ op => op.Harmless) ops :=
    fun halong => hbad (Machine.forall_of_along hrun halong)
  obtain ⟨pre, op, post, t, t', rfl, ht, -, hop, ht', hmid⟩ :=
    Machine.exists_first_violation hrun hviolated
  have htainted : w.terminated = true ∨ C.Tainted w := by
    refine Machine.persists_along (P := fun w => w.terminated = true ∨ C.Tainted w)
      (fun s a s' hstep hcheck hs => ?_) hops hmid (Or.inr (hC.shared ht' hop).tainted) hrun
    rcases hs with hended | hs
    · have hstep' : C.step s a = some s' := hstep
      unfold step at hstep'
      rw [if_pos hended] at hstep'
      cases hstep'
    · exact hC.tainted_step hR hstep hcheck hs
  rcases htainted with hended | ⟨x, h, hx, -⟩
  · rw [hnot] at hended
    cases hended
  · exact not_held_of_allDestroyed hall h ⟨x, hx⟩

/-- **Checked returns.** A program that destroys all its objects is ended by a destructor exactly
when one of its operations is not harmless. -/
theorem Copies.terminated_iff (hC : C.Copies) (hR : C.Reports accepts) {ops : List (Op ι α ρ)}
    {w : World ι σ φ η} (hrun : C.machine.run ops = some w)
    (hops : C.machine.Along (C.Checks accepts) ops) (hall : w.AllDestroyed) :
    w.terminated = true ↔ ∃ op ∈ ops, ¬ op.Harmless := by
  rw [← Bool.not_eq_false, ← not_iff_not, not_not]
  simp only [not_exists, not_and, not_not]
  exact ⟨hC.harmless_of_not_terminated hR hrun hops hall, hC.not_terminated hR hrun hops⟩

end Class

end Ownership
