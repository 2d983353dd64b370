import OhosWrapper.Usb.Handles

/-!
# Configuration descriptors

`USBConfig::Descriptor` holds a descriptor obtained for a device id and a configuration index, and
these two, which are constant. It cannot be copied. Move construction takes over all three. Move
assignment takes over the pointer alone: it does not free the descriptor the target had, and it
cannot change the target's ids.

**Theorem (`descriptor_iff`).** A program frees every descriptor exactly once, and each object
reports the ids its descriptor was obtained for, if every move assignment between two objects has a
target without a descriptor, and a source without one or with the target's ids. A program that
destroys all its objects does so only if.

A descriptor overwritten by an assignment is lost, and a lost descriptor is never freed.
-/

namespace OhosWrapper.Usb

open Ownership

variable {ι κ : Type}

/-! ## The class -/

/-- A descriptor handed out by the driver: what it was obtained for, and its address. -/
structure ObtainedDescriptor (κ : Type) where
  deviceId : UInt64
  configIndex : UInt8
  address : κ
  deriving DecidableEq, Repr

/-- `OH_Usb_FreeConfigDescriptor`. -/
inductive FreeFunction
  | OH_Usb_FreeConfigDescriptor
  deriving DecidableEq, Repr

structure USBConfig.Descriptor (κ : Type) where
  deviceId_ : UInt64
  configIndex_ : UInt8
  ddk_descriptor_ : Option (ObtainedDescriptor κ)
  deriving DecidableEq, Repr

/-- A call of the constructor, with the results of `OH_Usb_GetConfigDescriptor`. -/
structure GetCall (κ : Type) where
  deviceId : UInt64
  configIndex : UInt8
  code : USBErrCode
  address : κ
  deriving DecidableEq, Repr

namespace USBConfig.Descriptor

/-- The descriptor `OH_Usb_GetConfigDescriptor` obtains, if it succeeds. -/
def obtained (c : GetCall κ) : ObtainedDescriptor κ := ⟨c.deviceId, c.configIndex, c.address⟩

def new (c : GetCall κ) : Except (DdkSystemError USBErrCode) (Descriptor κ) := do
  usbCheckError c.code "OH_Usb_GetConfigDescriptor(deviceId, configIndex, &ddk_descriptor_)"
  return { deviceId_ := c.deviceId, configIndex_ := c.configIndex,
           ddk_descriptor_ := some (obtained c) }

def deviceId (this : Descriptor κ) : UInt64 := this.deviceId_

def configIndex (this : Descriptor κ) : UInt8 := this.configIndex_

def moveConstruct (other : Descriptor κ) : Descriptor κ × Descriptor κ :=
  ({ deviceId_ := other.deviceId_, configIndex_ := other.configIndex_,
     ddk_descriptor_ := other.ddk_descriptor_ }, { other with ddk_descriptor_ := none })

/-- Move assignment, with `same` for `this == &other`. -/
def moveAssign (same : Bool) (this other : Descriptor κ) :
    Assigned (Descriptor κ) FreeFunction (ObtainedDescriptor κ) :=
  if !same then
    { this := { this with ddk_descriptor_ := other.ddk_descriptor_ }
      other := { other with ddk_descriptor_ := none }
      calls := [] }
  else { this, other, calls := [] }

/-- The destructor. The pointer may be null when it is passed on. -/
def destroy (this : Descriptor κ) : List (FreeFunction × Option (ObtainedDescriptor κ)) :=
  [(.OH_Usb_FreeConfigDescriptor, this.ddk_descriptor_)]

def special : Class (GetCall κ) (Descriptor κ) Unit FreeFunction (ObtainedDescriptor κ) where
  held := ddk_descriptor_
  dispose := .OH_Usb_FreeConfigDescriptor
  construct c :=
    ((new c).toOption, outParameter .USB_DDK_SUCCESS c.code (obtained c))
  constructFrom := moveConstruct
  assign := moveAssign
  destroy this _ := (this.destroy, false)

/-! ## Identity -/

/-- The object reports the ids its descriptor was obtained for. -/
def ReportsOrigin (o : Descriptor κ) : Prop :=
  ∀ d, o.ddk_descriptor_ = some d → o.deviceId = d.deviceId ∧ o.configIndex = d.configIndex

/-- Every object reports the ids its descriptor was obtained for. -/
def Identifies (w : World ι (Descriptor κ) FreeFunction (ObtainedDescriptor κ)) : Prop :=
  ∀ x o, w.objects x = some o → o.ReportsOrigin

theorem reportsOrigin_of_none {o : Descriptor κ} (h : o.ddk_descriptor_ = none) :
    o.ReportsOrigin := by
  intro d hd
  rw [h] at hd
  cases hd

theorem reportsOrigin_of_new {c : GetCall κ} {o : Descriptor κ} (h : (new c).toOption = some o) :
    o.ReportsOrigin := by
  unfold new usbCheckError checkError at h
  split_ifs at h
  · cases h
  · obtain rfl := Option.some.inj h
    intro d hd
    obtain rfl := Option.some.inj hd
    exact ⟨rfl, rfl⟩

theorem conservative : (special : Class (GetCall κ) _ _ _ _).Conservative where
  constructFrom o d h := by
    rcases h with h | h
    · exact h
    · cases h
  assign b this other d h := by
    cases b with
    | true =>
      rcases h with h | h | h
      · exact Or.inl h
      · exact Or.inr h
      · cases h
    | false =>
      rcases h with h | h | h
      · exact Or.inr h
      · cases h
      · cases h
  destroy this r d h := (Prod.ext_iff.1 (List.mem_singleton.1 h)).2.symm

/-- A constructor leaves in the object what it obtained. -/
theorem held_of_new (c : GetCall κ) : (special.construct c).1.bind special.held =
    (special.construct c).2 := held_of_checked _ c.code (obtained c) _ rfl

/-! ## Matched moves -/

/-- A move assignment between two objects has a target without a descriptor, and a source without
one or with the same ids. -/
def Matched (w : World ι (Descriptor κ) FreeFunction (ObtainedDescriptor κ)) :
    Op ι (GetCall κ) Unit → Prop
  | .assign x y => ∀ this other, x ≠ y → w.objects x = some this → w.objects y = some other →
      this.ddk_descriptor_ = none ∧ (other.ddk_descriptor_ = none ∨
        (this.deviceId_ = other.deviceId_ ∧ this.configIndex_ = other.configIndex_))
  | _ => True

theorem Identifies.put [DecidableEq ι]
    {w : World ι (Descriptor κ) FreeFunction (ObtainedDescriptor κ)}
    (hw : Identifies w) (x : ι) {o : Option (Descriptor κ)}
    (ho : ∀ o', o = some o' → o'.ReportsOrigin) : Identifies (w.put x o) := by
  intro y o' hy
  change Function.update w.objects x o y = some o' at hy
  rw [Function.update_apply] at hy
  split_ifs at hy
  · exact ho o' hy
  · exact hw y o' hy

variable [DecidableEq ι] [DecidableEq κ]

/-- Matched steps are proper. -/
theorem Matched.proper {w : World ι (Descriptor κ) FreeFunction (ObtainedDescriptor κ)}
    {op : Op ι (GetCall κ) Unit} (h : Matched w op) : special.Proper w op := by
  cases op with
  | construct x c => exact held_of_new c
  | constructFrom x y => exact fun other _ => ⟨rfl, rfl⟩
  | assign x y =>
    intro this other hx hy
    split_ifs with hxy
    · exact ⟨rfl, Class.givesBack_nil⟩
    · obtain ⟨hnone, -⟩ := h this other hxy hx hy
      refine ⟨rfl, rfl, ?_⟩
      show special.GivesBack [] this.ddk_descriptor_
      rw [hnone]
      exact Class.givesBack_nil
  | destroy x r => exact fun this _ => Class.givesBack_singleton this.ddk_descriptor_

/-- Matched steps keep the ids right. -/
theorem Identifies.step {w w' : World ι (Descriptor κ) FreeFunction (ObtainedDescriptor κ)}
    {op : Op ι (GetCall κ) Unit} (hstep : special.step w op = some w') (hm : Matched w op)
    (hw : Identifies w) : Identifies w' := by
  cases Class.step_cases hstep with
  | construct x c o hx ha | grant x c o d hx ha hn =>
    apply hw.put
    intro o' ho'
    exact reportsOrigin_of_new ((Prod.ext_iff.1 ha).1.trans ho')
  | constructFrom x y other hx hy =>
    refine (hw.put y fun o' ho' => ?_).put x fun o' ho' => ?_
    · obtain rfl := Option.some.inj ho'
      exact reportsOrigin_of_none rfl
    · obtain rfl := Option.some.inj ho'
      exact hw y other hy
  | assignSelf x this hx =>
    refine hw.put x fun o' ho' => ?_
    obtain rfl := Option.some.inj ho'
    exact hw x this hx
  | assign x y this other hxy hx hy =>
    obtain ⟨-, hsource⟩ := hm this other hxy hx hy
    refine (hw.put y fun o' ho' => ?_).put x fun o' ho' => ?_
    · obtain rfl := Option.some.inj ho'
      exact reportsOrigin_of_none rfl
    · obtain rfl := Option.some.inj ho'
      rcases hsource with hnone | ⟨hdev, hcfg⟩
      · exact reportsOrigin_of_none hnone
      · intro d hd
        obtain ⟨hdev', hcfg'⟩ := hw y other hy d hd
        exact ⟨hdev.trans hdev', hcfg.trans hcfg'⟩
  | destroy x r this hx =>
    exact hw.put x fun o' ho' => nomatch ho'

/-- A move assignment to another object loses the descriptor it overwrites. -/
theorem lost_of_assign {w w' : World ι (Descriptor κ) FreeFunction (ObtainedDescriptor κ)}
    {x y : ι} {this : Descriptor κ} {d : ObtainedDescriptor κ}
    (hstep : special.step w (.assign x y) = some w') (hxy : x ≠ y)
    (hthis : w.objects x = some this) (hd : this.ddk_descriptor_ = some d)
    (hw : special.SingleOwner w) : special.Lost w' d := by
  have hholds : special.holds w x = some d := by
    rw [Class.holds_of_objects hthis]
    exact hd
  cases Class.step_cases hstep with
  | assignSelf => exact absurd rfl hxy
  | assign x y this' other _ hx hy =>
    have hgranted := hw.granted x d hholds
    refine (hw.covered d).lost hgranted ⟨x, hholds⟩ hgranted
      (by simp [special, moveAssign]) fun hheld => ?_
    rcases Class.held_put.1 hheld with ho | ⟨z, hzx, hz⟩
    · refine hxy (hw.unique x y d hholds ?_)
      rw [Class.holds_of_objects hy]
      exact ho
    · rw [Class.holds_put, Function.update_apply] at hz
      split_ifs at hz
      · cases hz
      · exact hzx (hw.unique z x d hz hholds)

/-- After a move assignment between two objects the target has the source's descriptor and its
own ids. -/
theorem reports_of_assign
    {w w' : World ι (Descriptor κ) FreeFunction (ObtainedDescriptor κ)} {x y : ι}
    {this other : Descriptor κ} {d : ObtainedDescriptor κ}
    (hstep : special.step w (.assign x y) = some w') (hxy : x ≠ y)
    (hthis : w.objects x = some this) (hother : w.objects y = some other)
    (hd : other.ddk_descriptor_ = some d) (hw : Identifies w') :
    this.deviceId_ = d.deviceId ∧ this.configIndex_ = d.configIndex := by
  cases Class.step_cases hstep with
  | assignSelf => exact absurd rfl hxy
  | assign x y this' other' _ hx hy =>
    obtain rfl := Option.some.inj (hthis.symm.trans hx)
    obtain rfl := Option.some.inj (hother.symm.trans hy)
    exact hw x { this with ddk_descriptor_ := other.ddk_descriptor_ }
      (Function.update_self ..) d hd

/-! ## Programs -/

/-- Descriptors are freed as they should be, and objects report the ids they were obtained for. -/
structure Law (w : World ι (Descriptor κ) FreeFunction (ObtainedDescriptor κ)) : Prop where
  sound : special.Sound w
  identifies : Identifies w

/-- **Ownership and identity.** They hold throughout a program whose assignments between two
objects are matched, and throughout a program that destroys all its objects only if they are. -/
theorem descriptor_iff {ops : List (Op ι (GetCall κ) Unit)}
    {w : World ι (Descriptor κ) FreeFunction (ObtainedDescriptor κ)}
    (hrun : special.machine.run ops = some w) :
    (special.machine.Along Matched ops → special.machine.Always Law ops) ∧
    (w.AllDestroyed → special.machine.Always Law ops → special.machine.Along Matched ops) := by
  have hinv : ∀ {ops : List (Op ι (GetCall κ) Unit)} {w},
      special.machine.Along Matched ops → special.machine.run ops = some w →
      special.SingleOwner w ∧ Identifies w := by
    intro ops w hm hrun
    refine ⟨.run (fun pre op post t hops ht => (hm pre op post t hops ht).proper) hrun, ?_⟩
    exact Machine.invariant_along (fun _ _ h => nomatch h)
      (fun _ _ _ hstep hm hw => hw.step hstep hm) hm hrun
  refine ⟨?_, ?_⟩
  · refine Machine.always_of_along fun hm ht => ?_
    obtain ⟨howner, hid⟩ := hinv hm ht
    exact ⟨Class.sound_of_covered howner.covered, hid⟩
  · intro hall hlaw
    by_contra hnot
    obtain ⟨pre, op, post, t, t', rfl, ht, hpre, hop, ht', hmid⟩ :=
      Machine.exists_first_violation hrun hnot
    obtain ⟨howner, hid⟩ := hinv hpre ht
    have hlaw' : Law t' := hlaw.of_append.last hmid
    cases op with
    | construct x c | constructFrom x y | destroy x r => exact hop trivial
    | assign x y =>
      apply hop
      intro this other hxy hx hy
      cases hd : this.ddk_descriptor_ with
      | some d =>
        -- The descriptor that is overwritten is never freed.
        have hlost : special.Lost w d := by
          refine Class.Lost.run conservative (fun c hc => ?_) hmid
            (lost_of_assign ht' hxy hx hd howner) hrun
          rw [← hc]
          exact (held_of_new c).symm
        exact absurd (hlaw.last hrun).sound (hlost.not_sound hall)
      | none =>
        refine ⟨rfl, ?_⟩
        cases ho : other.ddk_descriptor_ with
        | none => exact Or.inl rfl
        | some d =>
          -- The target now reports its own ids, and holds the source's descriptor.
          obtain ⟨hdev, hcfg⟩ := reports_of_assign ht' hxy hx hy ho hlaw'.identifies
          obtain ⟨hdev', hcfg'⟩ := hid y other hy d ho
          exact Or.inr ⟨hdev.trans hdev'.symm, hcfg.trans hcfg'.symm⟩

/-- The instance at a descriptor that is moved on, and back into the moved-from object. -/
theorem descriptor_iff_moved : special.machine.Always (Law (ι := ℕ) (κ := ℕ))
    [.construct 0 ⟨7, 1, .USB_DDK_SUCCESS, 100⟩, .construct 1 ⟨7, 2, .USB_DDK_FAILED, 0⟩,
      .constructFrom 2 0, .assign 0 2, .destroy 0 (), .destroy 2 ()] := by
  have hmoved : special.machine.Along (Matched (ι := ℕ) (κ := ℕ))
      [.construct 0 ⟨7, 1, .USB_DDK_SUCCESS, 100⟩, .construct 1 ⟨7, 2, .USB_DDK_FAILED, 0⟩,
        .constructFrom 2 0] :=
    Machine.along_of_forall (by simp [Matched])
  have hback := hmoved.concat (b := .assign 0 2) (by
    intro t ht this other _ hthis hother
    cases ht
    cases hthis
    cases hother
    -- The target gave its descriptor to the source, and has the same ids.
    exact ⟨rfl, Or.inr ⟨rfl, rfl⟩⟩)
  have hfirst := hback.concat (b := .destroy 0 ()) (fun _ _ => by trivial)
  have hdestroyed := hfirst.concat (b := .destroy 2 ()) (fun _ _ => by trivial)
  exact (descriptor_iff rfl).1 hdestroyed

/-- A move assignment leaks the target's descriptor and gives the target another one than it
reports. -/
theorem not_descriptor_moved : ¬ ∀ (ops : List (Op ℕ (GetCall ℕ) Unit))
    (w : World ℕ (Descriptor ℕ) FreeFunction (ObtainedDescriptor ℕ)),
    special.machine.run ops = some w → Law w := by
  intro h
  have hlaw := h [.construct 0 ⟨7, 1, .USB_DDK_SUCCESS, 100⟩,
    .construct 1 ⟨7, 2, .USB_DDK_SUCCESS, 101⟩, .assign 0 1] _ rfl
  exact absurd (hlaw.identifies 0 _ rfl ⟨7, 2, 101⟩ rfl).2 (by decide)

end USBConfig.Descriptor

end OhosWrapper.Usb
