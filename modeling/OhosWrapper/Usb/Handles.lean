import OhosWrapper.Lib.Aliasing

/-!
# Claimed interfaces and shared memory blocks

Two wrappers of the driver kit whose special members were left to the compiler. `Handle` claims an
interface; it cannot be copied, and its moves are defaulted, so they copy the integer `handle_` and
leave it in the source. `Ashmem` holds a block of shared memory; it declares a destructor and
nothing else, so it is copied with its pointer, and "moved" by a copy. Both destructors give back
what the object holds, without a trace of whether another object holds it too.

The constructors check the code the C function returns and throw unless it succeeded; the
destructors check it too, and an exception that leaves a destructor ends the program.

**Theorem (`released_once_iff`).** For both classes: a program is sound throughout if it
neither constructs an object from another nor assigns one to another, and only then if it destroys
all its objects.
-/

namespace OhosWrapper.Usb

open Ownership

/-- `OH_Usb_ReleaseInterface` and `OH_DDK_DestroyAshmem`. -/
inductive ReleaseFunction
  | OH_Usb_ReleaseInterface
  | OH_DDK_DestroyAshmem
  deriving DecidableEq, Repr

variable {ι η : Type} [DecidableEq ι] [DecidableEq η]

/-! ## Errors -/

inductive USBErrCode
  | USB_DDK_SUCCESS
  | USB_DDK_FAILED
  | USB_DDK_NO_PERM
  | USB_DDK_INVALID_PARAMETER
  | USB_DDK_MEMORY_ERROR
  | USB_DDK_NULL_PTR
  | USB_DDK_DEVICE_BUSY
  | USB_DDK_INVALID_OPERATION
  | USB_DDK_IO_FAILED
  | USB_DDK_TIMEOUT
  deriving DecidableEq, Repr

inductive DDK_RetCode
  | DDK_SUCCESS
  | DDK_FAILURE
  | DDK_INVALID_PARAMETER
  | DDK_INVALID_OPERATION
  | DDK_NULL_PTR
  deriving DecidableEq, Repr

/-- A thrown `std::system_error`: its code, and the text the check macros give it. -/
structure DdkSystemError (ε : Type) where
  code : ε
  what : String
  deriving DecidableEq, Repr

/-- `USB_CHECK_ERROR` and `DDK_CHECK_ERROR`: throw unless the code is `success`. -/
def checkError {ε : Type} [DecidableEq ε] (success code : ε) (exp : String) :
    Except (DdkSystemError ε) Unit :=
  if code ≠ success then .error ⟨code, exp⟩ else .ok ()

def usbCheckError : USBErrCode → String → Except (DdkSystemError USBErrCode) Unit :=
  checkError .USB_DDK_SUCCESS

def ddkCheckError : DDK_RetCode → String → Except (DdkSystemError DDK_RetCode) Unit :=
  checkError .DDK_SUCCESS

/-- What a C function hands out: something only if it succeeds. -/
def outParameter {ε : Type} [DecidableEq ε] (success code : ε) (h : η) : Option η :=
  if code = success then some h else none

/-- A destructor throws when the check in it does. -/
def throws {ε : Type} (r : Except ε Unit) : Bool := !r.isOk

/-! ## `USBInterface::Handle` -/

structure USBInterface.Handle (η : Type) where
  deviceId_ : UInt64
  interfaceIndex_ : UInt8
  handle_ : η
  deriving DecidableEq, Repr

/-- A call of the constructor, with the results of `OH_Usb_ClaimInterface`. -/
structure ClaimCall (η : Type) where
  deviceId : UInt64
  interfaceIndex : UInt8
  code : USBErrCode
  handle : η
  deriving DecidableEq, Repr

namespace USBInterface.Handle

/-- The handle that `OH_Usb_ClaimInterface` grants. -/
def granted (c : ClaimCall η) : Option η := outParameter .USB_DDK_SUCCESS c.code c.handle

def new (c : ClaimCall η) : Except (DdkSystemError USBErrCode) (Handle η) := do
  usbCheckError c.code "OH_Usb_ClaimInterface(deviceId, interfaceIndex, &handle_)"
  return { deviceId_ := c.deviceId, interfaceIndex_ := c.interfaceIndex, handle_ := c.handle }

/-- The defaulted move constructor: each member is copied, and `other` keeps its own. -/
def moveConstruct (other : Handle η) : Handle η × Handle η :=
  ({ deviceId_ := other.deviceId_, interfaceIndex_ := other.interfaceIndex_,
     handle_ := other.handle_ }, other)

/-- The defaulted move assignment. The handle held before is overwritten. -/
def moveAssign (_same : Bool) (_this other : Handle η) :
    Assigned (Handle η) ReleaseFunction η where
  this := { deviceId_ := other.deviceId_, interfaceIndex_ := other.interfaceIndex_,
            handle_ := other.handle_ }
  other := other
  calls := []

/-- The destructor, with the code `OH_Usb_ReleaseInterface` returns. -/
def destroy (this : Handle η) (code : USBErrCode) : List (ReleaseFunction × Option η) × Bool :=
  ([(.OH_Usb_ReleaseInterface, some this.handle_)],
    throws (usbCheckError code "OH_Usb_ReleaseInterface(handle_)"))

def special : Class (ClaimCall η) (Handle η) USBErrCode ReleaseFunction η where
  held this := some this.handle_
  dispose := .OH_Usb_ReleaseInterface
  construct c := ((new c).toOption, granted c)
  constructFrom := moveConstruct
  assign := moveAssign
  destroy := destroy

end USBInterface.Handle

/-! ## `Ashmem` -/

/-- The pointer is null only while the constructor runs. -/
structure Ashmem (η : Type) where
  ashmem_ : Option η
  created : ashmem_.isSome

/-- A call of the constructor, with the results of `OH_DDK_CreateAshmem`. -/
structure CreateCall (η : Type) where
  name : String
  size : UInt32
  code : DDK_RetCode
  ashmem : η
  deriving DecidableEq, Repr

namespace Ashmem

/-- The block that `OH_DDK_CreateAshmem` yields. -/
def granted (c : CreateCall η) : Option η := outParameter .DDK_SUCCESS c.code c.ashmem

def new (c : CreateCall η) : Except (DdkSystemError DDK_RetCode) (Ashmem η) := do
  ddkCheckError c.code "OH_DDK_CreateAshmem(name, size, &ashmem_)"
  return { ashmem_ := some c.ashmem, created := rfl }

/-- The implicit copy constructor. -/
def copyConstruct (other : Ashmem η) : Ashmem η × Ashmem η :=
  ({ ashmem_ := other.ashmem_, created := other.created }, other)

/-- The implicit copy assignment. The block held before is overwritten. -/
def copyAssign (_same : Bool) (_this other : Ashmem η) :
    Assigned (Ashmem η) ReleaseFunction η where
  this := { ashmem_ := other.ashmem_, created := other.created }
  other := other
  calls := []

/-- The destructor, with the code `OH_DDK_DestroyAshmem` returns. -/
def destroy (this : Ashmem η) (code : DDK_RetCode) : List (ReleaseFunction × Option η) × Bool :=
  if this.ashmem_.isSome then
    ([(.OH_DDK_DestroyAshmem, this.ashmem_)],
      throws (ddkCheckError code "OH_DDK_DestroyAshmem(ashmem_)"))
  else ([], false)

def special : Class (CreateCall η) (Ashmem η) DDK_RetCode ReleaseFunction η where
  held this := this.ashmem_
  dispose := .OH_DDK_DestroyAshmem
  construct c := ((new c).toOption, granted c)
  constructFrom := copyConstruct
  assign := copyAssign
  destroy := destroy

end Ashmem

/-! ## Both classes copy -/

open USBInterface (Handle)

omit [DecidableEq η] in
/-- A constructor that checks the code of its C call holds what the call handed out. -/
theorem held_of_checked {ε σ : Type} [DecidableEq ε] (success code : ε) {exp : String} (h : η)
    (o : σ) {held : σ → Option η} (ho : held o = some h) :
    (do checkError success code exp; return o : Except (DdkSystemError ε) σ).toOption.bind held =
      outParameter success code h := by
  by_cases hok : code = success
  · rw [checkError, if_neg (not_not.2 hok), outParameter, if_pos hok]
    exact ho
  · rw [checkError, if_pos hok, outParameter, if_neg hok]
    rfl

theorem USBInterface.Handle.copies : (special : Class _ (Handle η) _ _ η).Copies where
  held _ := rfl
  construct c := held_of_checked _ c.code c.handle _ rfl
  constructFrom _ := ⟨rfl, rfl⟩
  assign _ _ _ := ⟨rfl, rfl, rfl⟩
  destroy this _ := Class.givesBack_singleton (some this.handle_)

theorem Ashmem.copies : (special : Class _ (Ashmem η) _ _ η).Copies where
  held o := o.created
  construct c := held_of_checked _ c.code c.ashmem _ rfl
  constructFrom _ := ⟨rfl, rfl⟩
  assign _ _ _ := ⟨rfl, rfl, rfl⟩
  destroy this code := by
    have hcalls : (special.destroy this code).1 = [(.OH_DDK_DestroyAshmem, this.ashmem_)] := by
      simp [special, destroy, this.created]
    rw [hcalls]
    exact Class.givesBack_singleton this.ashmem_

/-! ## Programs -/

/-- **Released once.** For each of the two classes, a program that neither constructs an object
from another nor assigns one to another is sound throughout, and a program that destroys all its
objects is sound throughout only if it does neither. -/
theorem released_once_iff :
    (∀ (ops : List (Op ι (ClaimCall η) USBErrCode)) (w : World ι (Handle η) ReleaseFunction η),
      Handle.special.machine.run ops = some w →
      ((∀ op ∈ ops, op.Harmless) → Handle.special.machine.Always Handle.special.Sound ops) ∧
      (w.AllDestroyed → Handle.special.machine.Always Handle.special.Sound ops →
        ∀ op ∈ ops, op.Harmless)) ∧
    ∀ (ops : List (Op ι (CreateCall η) DDK_RetCode)) (w : World ι (Ashmem η) ReleaseFunction η),
      Ashmem.special.machine.run ops = some w →
      ((∀ op ∈ ops, op.Harmless) → Ashmem.special.machine.Always Ashmem.special.Sound ops) ∧
      (w.AllDestroyed → Ashmem.special.machine.Always Ashmem.special.Sound ops →
        ∀ op ∈ ops, op.Harmless) :=
  ⟨fun _ _ hrun => ⟨Handle.copies.sound_of_harmless, Handle.copies.harmless_of_sound hrun⟩,
    fun _ _ hrun => ⟨Ashmem.copies.sound_of_harmless, Ashmem.copies.harmless_of_sound hrun⟩⟩

/-- The instance at a claim, and at a block, that is assigned to itself and destroyed. -/
theorem released_once_self_assigned :
    (Handle.special (η := ℕ)).machine.Always (Class.Sound Handle.special (ι := ℕ))
      [.construct 0 ⟨7, 1, .USB_DDK_SUCCESS, 40⟩, .assign 0 0, .destroy 0 .USB_DDK_SUCCESS] ∧
    (Ashmem.special (η := ℕ)).machine.Always (Class.Sound Ashmem.special (ι := ℕ))
      [.construct 0 ⟨"m", 64, .DDK_SUCCESS, 50⟩, .assign 0 0, .destroy 0 .DDK_SUCCESS] := by
  refine ⟨(released_once_iff.1 _ _ rfl).1 ?_, (released_once_iff.2 _ _ rfl).1 ?_⟩
  · simp [Op.Harmless]
  · simp [Op.Harmless]

/-- A moved claim and a copied block are given back while another object holds them. -/
theorem not_released_once :
    (¬ ∀ (ops : List (Op ℕ (ClaimCall ℕ) USBErrCode)) (w : World ℕ (Handle ℕ) ReleaseFunction ℕ),
      Handle.special.machine.run ops = some w → Handle.special.Sound w) ∧
    ¬ ∀ (ops : List (Op ℕ (CreateCall ℕ) DDK_RetCode)) (w : World ℕ (Ashmem ℕ) ReleaseFunction ℕ),
      Ashmem.special.machine.run ops = some w → Ashmem.special.Sound w := by
  refine ⟨fun h => ?_, fun h => ?_⟩
  · have hs := h [.construct 0 ⟨7, 1, .USB_DDK_SUCCESS, 40⟩, .constructFrom 1 0,
      .destroy 0 .USB_DDK_SUCCESS] _ rfl
    exact hs.not_held 40 (by decide) 1 rfl
  · have hs := h [.construct 0 ⟨"m", 64, .DDK_SUCCESS, 50⟩, .constructFrom 1 0,
      .destroy 0 .DDK_SUCCESS] _ rfl
    exact hs.not_held 50 (by decide) 1 rfl

end OhosWrapper.Usb
