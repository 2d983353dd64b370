import OhosWrapper.Commev.Wrappers
import OhosWrapper.Lib.Aliasing

/-!
# Parameter blocks

`Parameters` holds one pointer, for two purposes. The default constructor creates a block, which
the object owns; the constructor from a pointer borrows one, and `RcvData::parameters()` uses it to
wrap the block inside received event data. The destructor destroys whatever the pointer points to.
Copies are left to the compiler and copy the pointer.

**Theorem (`parameters_iff`).** Created blocks are destroyed once, after their last holder, and no
other block is, if each object is destroyed holding null or a created block that no other object
holds, and no assignment overwrites the last pointer to a created block. In a program that
destroys all its objects, only if.

So the temporary that `RcvData::parameters()` returns destroys a block of the event data, and of
two copies the first to be destroyed leaves the other with a destroyed block.
-/

namespace OhosWrapper.Commev

open Ownership

/-- A parameter block, created by the default constructor or inside received event data. -/
inductive Block (η δ : Type*)
  | created (h : η)
  | received (d : δ)
  deriving DecidableEq, Repr

structure Parameters (η δ : Type*) where
  param_ : Option (Block η δ)
  deriving DecidableEq, Repr

/-- A constructor call: the default constructor, with the block created or null, and the
constructor from a pointer to a block of event data, or null. -/
inductive ParametersCall (η δ : Type*)
  | create (result : Option η)
  | borrow (param : Option δ)
  deriving DecidableEq, Repr

variable {ι η δ : Type*}

/-- `RcvData::parameters()`, with the result of `OH_CommonEvent_GetParametersFromRcvData`. It is
converted to the returned object by the constructor from a pointer. -/
def RcvData.parameters (result : Option δ) : ParametersCall η δ := .borrow result

namespace Parameters

/-! ## The special members -/

def construct : ParametersCall η δ → Option (Parameters η δ) × Option (Block η δ)
  | .create result => (some ⟨result.map .created⟩, result.map .created)
  | .borrow param => (some ⟨param.map .received⟩, none)

/-- The implicit copy constructor. An object made from the pointer that another one returns,
`Parameters(other.parameters())`, is the same. -/
def copyConstruct (other : Parameters η δ) : Parameters η δ × Parameters η δ :=
  (⟨other.param_⟩, other)

/-- The implicit copy assignment. -/
def copyAssign (_same : Bool) (_this other : Parameters η δ) :
    Assigned (Parameters η δ) DestroyFunction (Block η δ) where
  this := ⟨other.param_⟩
  other := other
  calls := []

def destroy (this : Parameters η δ) : List (DestroyFunction × Option (Block η δ)) :=
  if this.param_.isSome then [(.OH_CommonEvent_DestroyParameters, this.param_)] else []

def special :
    Class (ParametersCall η δ) (Parameters η δ) Unit DestroyFunction (Block η δ) where
  held := param_
  dispose := .OH_CommonEvent_DestroyParameters
  construct := construct
  constructFrom := copyConstruct
  assign := copyAssign
  destroy this _ := (this.destroy, false)

theorem conservative : (special : Class (ParametersCall η δ) _ _ _ _).Conservative where
  constructFrom o b h := by
    rcases h with h | h
    · exact h
    · exact h
  assign s this other b h := by
    rcases h with h | h | h
    · exact Or.inr h
    · exact Or.inr h
    · cases h
  destroy this r b h := by
    obtain ⟨_ | p⟩ := this
    · cases h
    · exact (Prod.ext_iff.1 (List.mem_singleton.1 h)).2.symm

/-- A created block in a new object was granted to it. -/
theorem granted_of_construct {a : ParametersCall η δ} {h : η}
    (ha : (special.construct a).1.bind special.held = some (.created h)) :
    (special.construct a).2 = some (.created h) := by
  cases a with
  | create result => exact ha
  | borrow param => cases param <;> cases ha

/-! ## Careful programs -/

/-- An object is destroyed holding null or a created block that no other object holds, and an
assignment overwrites a pointer to a created block only if another object holds the block. -/
def Careful (w : World ι (Parameters η δ) DestroyFunction (Block η δ)) :
    Op ι (ParametersCall η δ) Unit → Prop
  | .destroy x _ => ∀ b, special.holds w x = some b →
      (∃ h, b = .created h) ∧ ∀ y, special.holds w y = some b → y = x
  | .assign x y => x ≠ y → ∀ h, special.holds w x = some (.created h) →
      ∃ z, z ≠ x ∧ special.holds w z = some (.created h)
  | _ => True

/-- A copy replaces the pointer at one address by the one at another. -/
theorem holds_copied [DecidableEq ι] {w : World ι (Parameters η δ) DestroyFunction (Block η δ)}
    (x : ι) {y : ι} {other new left : Parameters η δ} (hy : w.objects y = some other)
    (hnew : new.param_ = other.param_) (hleft : left.param_ = other.param_) :
    special.holds ((w.put y (some left)).put x (some new)) =
      Function.update (special.holds w) x (special.holds w y) := by
  rw [Class.holds_put, Class.holds_put_same hy hleft, Class.holds_of_objects hy]
  exact congrArg _ hnew

/-- A copy of the pointer at `y` in place of the one at `x`: whatever was held still is, as long as
`x` did not hold the last pointer to it. -/
theorem held_of_copied [DecidableEq ι]
    {w w' : World ι (Parameters η δ) DestroyFunction (Block η δ)} {x y : ι}
    (hholds : special.holds w' = Function.update (special.holds w) x (special.holds w y))
    {b : Block η δ}
    (hx : special.holds w x = some b → ∃ z, z ≠ x ∧ special.holds w z = some b) :
    special.Held w' b ↔ special.Held w b := by
  refine ⟨?_, ?_⟩
  · intro h
    obtain ⟨z, hz⟩ := h
    rw [hholds, Function.update_apply] at hz
    split_ifs at hz
    · exact ⟨y, hz⟩
    · exact ⟨z, hz⟩
  · intro h
    obtain ⟨z, hz⟩ := h
    by_cases hzx : z = x
    · obtain ⟨z', hne, hz'⟩ := hx (hzx ▸ hz)
      exact ⟨z', by rw [hholds, Function.update_of_ne hne, hz']⟩
    · exact ⟨z, by rw [hholds, Function.update_of_ne hzx, hz]⟩

variable [DecidableEq η] [DecidableEq δ]

/-- Every block is accounted for, and the blocks granted are the created ones. -/
structure Accounted (w : World ι (Parameters η δ) DestroyFunction (Block η δ)) : Prop where
  covered : ∀ b, special.Covered w b
  created : ∀ b ∈ w.granted, ∃ h, b = .created h
  granted : ∀ x h, special.holds w x = some (.created h) → .created h ∈ w.granted

/-- Created blocks are destroyed once, and only when no object holds them; blocks of event data are
not destroyed. -/
structure Law (w : World ι (Parameters η δ) DestroyFunction (Block η δ)) : Prop where
  once : w.AllDestroyed → ∀ b ∈ w.granted,
    w.calls.count (.OH_CommonEvent_DestroyParameters, some b) = 1
  not_held : ∀ b, (.OH_CommonEvent_DestroyParameters, some b) ∈ w.calls →
    ∀ x, special.holds w x ≠ some b
  received : ∀ d, (.OH_CommonEvent_DestroyParameters, some (.received d)) ∉ w.calls

theorem Accounted.law {w : World ι (Parameters η δ) DestroyFunction (Block η δ)}
    (hw : Accounted w) : Law w := by
  have hs := Class.sound_of_covered hw.covered
  refine ⟨hs.once, hs.not_held, fun d hd => ?_⟩
  obtain ⟨h, hh⟩ := hw.created _ (hs.granted _ hd)
  cases hh

/-- Blocks stay accounted for when none is granted or destroyed and the created ones are held as
before. -/
theorem Accounted.frame {w w' : World ι (Parameters η δ) DestroyFunction (Block η δ)}
    (hw : Accounted w) (hg : w'.granted = w.granted)
    (hd : ∀ b, special.disposals w' b = special.disposals w b)
    (hh : ∀ h, special.Held w' (.created h) ↔ special.Held w (.created h)) : Accounted w' := by
  refine ⟨fun b => ?_, by rw [hg]; exact hw.created, fun x h hx => ?_⟩
  · refine (hw.covered b).frame (by rw [hg]) (hd b) fun hb => ?_
    obtain ⟨h, rfl⟩ := hw.created b hb
    exact hh h
  · obtain ⟨y, hy⟩ := (hh h).1 ⟨x, hx⟩
    rw [hg]
    exact hw.granted y h hy

variable [DecidableEq ι]

/-- Careful steps keep every block accounted for. -/
theorem Accounted.step {w w' : World ι (Parameters η δ) DestroyFunction (Block η δ)}
    {op : Op ι (ParametersCall η δ) Unit} (hstep : special.step w op = some w')
    (hc : Careful w op) (hw : Accounted w) : Accounted w' := by
  cases Class.step_cases hstep with
  | construct x a o hx ha =>
    have hnone : special.holds w x = none := Class.holds_of_objects hx
    refine hw.frame rfl (fun b => rfl) fun h => ?_
    rw [Class.held_put_of_ne (by rw [hnone]; simp), or_iff_right]
    intro ho
    have hgrant := granted_of_construct (a := a) (by rw [ha]; exact ho)
    rw [ha] at hgrant
    cases hgrant
  | grant x a o b hx ha hn =>
    have hnone : special.holds w x = none := Class.holds_of_objects hx
    obtain ⟨h, rfl, ho⟩ : ∃ h, b = .created h ∧ o.bind special.held = some (.created h) := by
      cases a with
      | create result =>
        cases result with
        | none => cases (Prod.ext_iff.1 ha).2
        | some h =>
          obtain ⟨rfl, hb⟩ := Prod.ext_iff.1 ha
          exact ⟨h, (Option.some.inj hb).symm, rfl⟩
      | borrow param => cases (Prod.ext_iff.1 ha).2
    have hheld : ∀ b', special.Held ((w.put x o).grant (.created h)) b' ↔
        b' = .created h ∨ special.Held w b' := by
      intro b'
      refine (Class.held_put_of_ne (by rw [hnone]; simp)).trans ?_
      rw [ho, Option.some.injEq, eq_comm]
    refine ⟨fun b' => ?_, fun b' hb' => ?_, fun y k hy => ?_⟩
    · by_cases hb : b' = .created h
      · subst hb
        exact (hw.covered _).grant hn (by simp [World.grant]) rfl ((hheld _).2 (Or.inl rfl))
      · exact (hw.covered b').frame (by simp [World.grant, World.put, hb]) rfl
          fun _ => (hheld b').trans (or_iff_right hb)
    · rcases List.mem_append.1 hb' with hb' | hb'
      · exact hw.created b' hb'
      · exact ⟨h, List.mem_singleton.1 hb'⟩
    · rcases (hheld _).1 ⟨y, hy⟩ with hk | ⟨z, hz⟩
      · rw [hk]
        simp [World.grant]
      · exact List.mem_append_left _ (hw.granted z k hz)
  | constructFrom x y other hx hy =>
    have hnone : special.holds w x = none := Class.holds_of_objects hx
    exact hw.frame rfl (fun b => rfl) fun h =>
      held_of_copied (holds_copied x hy rfl rfl) (by simp [hnone])
  | assignSelf x this hx =>
    have hholds : special.holds (w.put x (some (special.assign true this this).this)) =
        special.holds w := Class.holds_put_same hx rfl
    refine hw.frame rfl (fun b => by simp [special, copyAssign]) fun h => ?_
    rw [Class.Held, Class.holds_call, hholds, Class.Held]
  | assign x y this other hxy hx hy =>
    exact hw.frame rfl (fun b => by simp [special, copyAssign]) fun h =>
      held_of_copied (holds_copied x hy rfl rfl) (hc hxy h)
  | destroy x r this hx =>
    have hx' : special.holds w x = this.param_ := Class.holds_of_objects hx
    obtain ⟨_ | b⟩ := this
    · refine hw.frame rfl (fun b => by simp [special, destroy]) fun h => ?_
      rw [Class.Held, Class.holds_finish, Class.holds_call, ← Class.Held,
        Class.held_put_of_ne (by rw [hx']; simp)]
      simp
    · obtain ⟨⟨h, rfl⟩, hunique⟩ := hc b hx'
      have hcalls : ∀ thrown b', special.disposals (((w.put x none).call
          (destroy ⟨some (.created h)⟩)).finish thrown) b' =
          special.disposals w b' + if some (.created h) = some b' then 1 else 0 := by
        intro thrown b'
        rw [Class.disposals_finish, Class.disposals_call, Class.disposals_put]
        exact congrArg _ (Class.givesBack_singleton (some (.created h)) b')
      refine ⟨fun b' => ?_, hw.created, fun y k hy => ?_⟩
      · by_cases hb : some (.created h) = some b'
        · obtain rfl := Option.some.inj hb
          refine (hw.covered _).giveBack (hw.granted x h hx') ⟨x, hx'⟩ (hw.granted x h hx')
            ((hcalls _ _).trans (by rw [if_pos rfl])) fun hheld => ?_
          rcases Class.held_put.1 hheld with ho | ⟨z, hzx, hz⟩
          · cases ho
          · exact hzx (hunique z hz)
        · refine (hw.covered b').frame Iff.rfl
            ((hcalls _ _).trans (by rw [if_neg hb, Nat.add_zero])) fun _ => ?_
          refine (Class.held_put_of_ne (by rw [hx']; exact hb)).trans (or_iff_right ?_)
          intro ho
          cases ho
      · rcases Class.held_put.1 ⟨y, hy⟩ with ho | ⟨z, -, hz⟩
        · cases ho
        · exact hw.granted z k hz

/-! ## Programs -/

/-- An assignment that is not careful loses a created block. -/
theorem lost_of_assign {w w' : World ι (Parameters η δ) DestroyFunction (Block η δ)} {x y : ι}
    {h : η} (hstep : special.step w (.assign x y) = some w') (hxy : x ≠ y)
    (hx : special.holds w x = some (.created h))
    (hlast : ∀ z, special.holds w z = some (.created h) → z = x) (hw : Accounted w) :
    special.Lost w' (.created h) := by
  cases Class.step_cases hstep with
  | assignSelf => exact absurd rfl hxy
  | assign x y this other _ hthis hy =>
    have hgranted := hw.granted x h hx
    refine (hw.covered _).lost hgranted ⟨x, hx⟩ hgranted (by simp [special, copyAssign]) ?_
    intro hheld
    obtain ⟨z, hz⟩ := hheld
    have hholds : special.holds ((w.put y (some (special.assign false this other).other)).put x
        (some (special.assign false this other).this)) =
        Function.update (special.holds w) x (special.holds w y) := holds_copied x hy rfl rfl
    rw [Class.holds_call, hholds, Function.update_apply] at hz
    split_ifs at hz with hzx
    · exact hxy (hlast y hz).symm
    · exact hzx (hlast z hz)

/-- **Parameter blocks.** The law holds throughout a careful program, and throughout a program that
destroys all its objects only if the program is careful. -/
theorem parameters_iff {ops : List (Op ι (ParametersCall η δ) Unit)}
    {w : World ι (Parameters η δ) DestroyFunction (Block η δ)}
    (hrun : special.machine.run ops = some w) :
    (special.machine.Along Careful ops → special.machine.Always Law ops) ∧
    (w.AllDestroyed → special.machine.Always Law ops → special.machine.Along Careful ops) := by
  have hinv : ∀ {ops : List (Op ι (ParametersCall η δ) Unit)} {w},
      special.machine.Along Careful ops → special.machine.run ops = some w → Accounted w := by
    intro ops w hc hrun
    refine Machine.invariant_along ⟨fun b => .absent List.not_mem_nil rfl, ?_, ?_⟩
      (fun _ _ _ hstep hc hw => hw.step hstep hc) hc hrun
    · exact fun b hb => nomatch hb
    · exact fun x h hx => nomatch hx
  refine ⟨?_, ?_⟩
  · exact Machine.always_of_along fun hc ht => (hinv hc ht).law
  · intro hall hlaw
    by_contra hnot
    obtain ⟨pre, op, post, t, t', rfl, ht, hpre, hop, ht', hmid⟩ :=
      Machine.exists_first_violation hrun hnot
    have hacc := hinv hpre ht
    have hlaw' : Law t' := hlaw.of_append.last hmid
    cases op with
    | construct x a | constructFrom x y => exact hop trivial
    | assign x y =>
      apply hop
      intro hxy h hx
      by_contra hlast
      have hlost : special.Lost w (.created h) := by
        refine Class.Lost.run conservative (fun a => granted_of_construct) hmid
          (lost_of_assign ht' hxy hx (fun z hz => ?_) hacc) hrun
        by_contra hzx
        exact hlast ⟨z, hzx, hz⟩
      have hone := (hlaw.last hrun).once hall _ hlost.1
      have hzero : w.calls.count (.OH_CommonEvent_DestroyParameters, some (.created h)) = 0 :=
        hlost.2.1
      omega
    | destroy x r =>
      apply hop
      intro b hx
      have hstep : special.step t (.destroy x r) = some t' := ht'
      cases Class.step_cases hstep with
      | destroy x r this hthis =>
        obtain rfl : this = ⟨some b⟩ := by
          rw [Class.holds_of_objects hthis] at hx
          cases this
          exact congrArg _ hx
        have hcall : (.OH_CommonEvent_DestroyParameters, some b) ∈ (((t.put x none).call
            (special.destroy ⟨some b⟩ r).1).finish (special.destroy ⟨some b⟩ r).2).calls :=
          List.mem_append_right _ (List.mem_singleton.2 rfl)
        refine ⟨?_, fun y hy => ?_⟩
        · cases b with
          | created h => exact ⟨h, rfl⟩
          | received d => exact absurd hcall (hlaw'.received d)
        · by_contra hyx
          apply hlaw'.not_held b hcall y
          simp [Function.update_of_ne hyx, hy]

/-- The instance at a block with a copy that lets go of it before it is destroyed. -/
theorem parameters_iff_copied : special.machine.Always (Law (ι := ℕ) (η := ℕ) (δ := ℕ))
    [.construct 0 (.create (some 60)), .construct 1 (.create none), .constructFrom 2 0,
      .assign 2 1, .destroy 0 ()] := by
  have hcopied : special.machine.Along (Careful (ι := ℕ) (η := ℕ) (δ := ℕ))
      [.construct 0 (.create (some 60)), .construct 1 (.create none), .constructFrom 2 0] :=
    Machine.along_of_forall (by simp [Careful])
  have hassigned := hcopied.concat (b := .assign 2 1) (by
    intro t ht _ h hx
    cases ht
    cases hx
    exact ⟨0, by decide, rfl⟩)
  have hdestroyed := hassigned.concat (b := .destroy 0 ()) (by
    intro t ht b hx
    cases ht
    cases hx
    refine ⟨⟨60, rfl⟩, fun y hy => ?_⟩
    match y with
    | 0 => rfl
    | 1 | 2 | y + 3 => cases hy)
  exact (parameters_iff rfl).1 hdestroyed

/-- The temporary that wraps a block of event data destroys it. -/
theorem not_parameters : ¬ ∀ (ops : List (Op ℕ (ParametersCall ℕ ℕ) Unit))
    (w : World ℕ (Parameters ℕ ℕ) DestroyFunction (Block ℕ ℕ)),
    special.machine.run ops = some w → Law w := by
  intro h
  have hlaw := h [.construct 0 (RcvData.parameters (some 80)), .destroy 0 ()] _ rfl
  exact hlaw.received 80 (by decide)

end Parameters

end OhosWrapper.Commev
