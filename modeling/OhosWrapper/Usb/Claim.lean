import OhosWrapper.Lib.Machine
import OhosWrapper.Lib.SharedPtr
import OhosWrapper.Usb.Handles
import OhosWrapper.Usb.Interface

/-!
# Claiming interfaces

`USBInterface` has its claim on the interface in a `std::shared_ptr<Handle>`. Copies of the
interface share it, `handle()` hands it out, and an interface can be constructed from it. `claim`
makes a new `Handle` for the ids of the interface and assigns it to `handle_`; `release` resets
`handle_`. The members that identify the interface are constants, so interfaces are not assigned.

**Programs.** A program constructs, copies and destroys interfaces at addresses `ι`, calls `claim`
and `release` on them, and keeps results of `handle()` in variables `κ`. Claims can fail; a claim
that succeeds grants a fresh handle. Releases succeed.

**Theorem (`claims_released_once`).** A handle is released in the step in which the last interface
or kept pointer that refers to it lets go, and at no other time. After a claim the interface
refers to a handle granted for its own ids, and a claim that throws changes nothing.
-/

namespace OhosWrapper.Usb

open SharedPtr
open USBInterface (Handle)

variable {ι κ η : Type} [DecidableEq η]

/-! ## The class -/

/-- `Handle` as the owner of its handle. `OH_Usb_ReleaseInterface` succeeds. -/
def USBInterface.Handle.raii : Raii (Handle η) η (ReleaseFunction × Option η) where
  owns := handle_
  giveBack h := (.OH_Usb_ReleaseInterface, some h)
  destroy this := (this.destroy .USB_DDK_SUCCESS).1
  gives_back o h := by
    have hinj : Function.Injective fun k : η => (ReleaseFunction.OH_Usb_ReleaseInterface, some k) :=
      fun k k' hk => Option.some.inj (Prod.ext_iff.1 hk).2
    exact count_giveBack hinj o.handle_ h

/-- `Handle::Claim`, up to `std::make_shared`. -/
def USBInterface.Handle.Claim (c : ClaimCall η) : Except (DdkSystemError USBErrCode) (Handle η) :=
  Handle.new c

/-- The constructor from a pointer to a `Handle`, which must not be null. -/
def USBInterface.ofHandle (handle : Handle η) : USBInterface :=
  { deviceId_ := handle.deviceId_, interfaceIndex_ := handle.interfaceIndex_ }

namespace Claims

/-- The pointers: the member `handle_` of each interface, and the kept results of `handle()`. -/
inductive Variable (ι κ : Type)
  | handle_ (x : ι)
  | kept (k : κ)
  deriving DecidableEq, Repr

/-- The interfaces alive, without `handle_`, and the `Handle` objects with the pointers to them. -/
structure World (ι κ η : Type) where
  interfaces : ι → Option USBInterface
  shared : Store (Variable ι κ) (Handle η) (ReleaseFunction × Option η)

/-- The operations. `construct` stands for the constructors that leave `handle_` null, with the
interface they build, and `claim` has the results of `OH_Usb_ClaimInterface`. -/
inductive Op (ι κ η : Type)
  | construct (x : ι) (i : USBInterface)
  | constructFrom (x : ι) (k : κ)
  | copy (x other : ι)
  | claim (x : ι) (code : USBErrCode) (handle : η)
  | release (x : ι)
  | keep (k : κ) (x : ι)
  | drop (k : κ)
  | destroy (x : ι)
  deriving DecidableEq, Repr

variable [DecidableEq ι] [DecidableEq κ]

namespace World

def empty : World ι κ η := ⟨fun _ => none, .empty⟩

def put (w : World ι κ η) (x : ι) (i : Option USBInterface) : World ι κ η :=
  { w with interfaces := Function.update w.interfaces x i }

/-- A pointer is initialised, assigned or reset. -/
def assign (w : World ι κ η) (v : Variable ι κ) (p : Option ℕ) : World ι κ η :=
  { w with shared := w.shared.assign Handle.raii v p }

/-- `USBInterface::claim`, on the interface `i` at `x`. -/
def claim (w : World ι κ η) (x : ι) (i : USBInterface) (code : USBErrCode) (h : η) :
    Except (DdkSystemError USBErrCode) (World ι κ η) := do
  let handle ← Handle.Claim
    { deviceId := i.deviceId_, interfaceIndex := i.interfaceIndex_, code, handle := h }
  return { w with shared := w.shared.assignNew Handle.raii (.handle_ x) handle }

/-- `USBInterface::release`. -/
def release (w : World ι κ η) (x : ι) : World ι κ η := w.assign (.handle_ x) none

/-- `USBInterface::handle`. -/
def handle (w : World ι κ η) (x : ι) : Option ℕ := w.shared.pointers (.handle_ x)

end World

/-- One operation. Interfaces are constructed only where there is none, only live ones are used,
and a handle that is granted is a fresh one. -/
def step (w : World ι κ η) : Op ι κ η → Option (World ι κ η)
  | .construct x i =>
    match w.interfaces x with
    | none => some ((w.put x (some i)).assign (.handle_ x) none)
    | some _ => none
  | .constructFrom x k =>
    match w.interfaces x, w.shared.deref (.kept k) with
    | none, some handle =>
      some ((w.put x (some (.ofHandle handle))).assign (.handle_ x) (w.shared.pointers (.kept k)))
    | _, _ => none
  | .copy x y =>
    match w.interfaces x, w.interfaces y with
    | none, some other => some ((w.put x (some other)).assign (.handle_ x) (w.handle y))
    | _, _ => none
  | .claim x code h =>
    match w.interfaces x with
    | some i =>
      match w.claim x i code h with
      | .ok w' => if h ∈ w.shared.made.map Handle.handle_ then none else some w'
      | .error _ => some w
    | none => none
  | .release x =>
    match w.interfaces x with
    | some _ => some (w.release x)
    | none => none
  | .keep k x =>
    match w.interfaces x with
    | some _ => some (w.assign (.kept k) (w.handle x))
    | none => none
  | .drop k => some (w.assign (.kept k) none)
  | .destroy x =>
    match w.interfaces x with
    | some _ => some ((w.put x none).assign (.handle_ x) none)
    | none => none

/-- Programs over interfaces, started without any. -/
def machine : Machine (World ι κ η) (Op ι κ η) := ⟨.empty, step⟩

/-! ## Steps -/

theorem claim_of_success (w : World ι κ η) (x : ι) (i : USBInterface) (h : η) :
    w.claim x i .USB_DDK_SUCCESS h = .ok { w with
      shared := w.shared.assignNew Handle.raii (.handle_ x) ⟨i.deviceId_, i.interfaceIndex_, h⟩ } :=
  rfl

theorem claim_of_ne (w : World ι κ η) (x : ι) (i : USBInterface) {code : USBErrCode}
    (hcode : code ≠ .USB_DDK_SUCCESS) (h : η) : ∃ e, w.claim x i code h = .error e := by
  refine ⟨⟨code, "OH_Usb_ClaimInterface(deviceId, interfaceIndex, &handle_)"⟩, ?_⟩
  simp [World.claim, Handle.Claim, Handle.new, usbCheckError, checkError, hcode]

/-- What a step does. -/
inductive Step (w : World ι κ η) : Op ι κ η → World ι κ η → Prop
  | construct (x : ι) (i : USBInterface) : w.interfaces x = none →
      Step w (.construct x i) ((w.put x (some i)).assign (.handle_ x) none)
  | constructFrom (x : ι) (k : κ) (handle : Handle η) : w.interfaces x = none →
      w.shared.deref (.kept k) = some handle →
      Step w (.constructFrom x k)
        ((w.put x (some (.ofHandle handle))).assign (.handle_ x) (w.shared.pointers (.kept k)))
  | copy (x y : ι) (other : USBInterface) : w.interfaces x = none → w.interfaces y = some other →
      Step w (.copy x y) ((w.put x (some other)).assign (.handle_ x) (w.handle y))
  | claim (x : ι) (h : η) (i : USBInterface) : w.interfaces x = some i →
      ¬ w.shared.Granted Handle.raii h →
      Step w (.claim x .USB_DDK_SUCCESS h) { w with
        shared :=
          w.shared.assignNew Handle.raii (.handle_ x) ⟨i.deviceId_, i.interfaceIndex_, h⟩ }
  | claimThrows (x : ι) (code : USBErrCode) (h : η) (i : USBInterface)
      (e : DdkSystemError USBErrCode) : w.interfaces x = some i → w.claim x i code h = .error e →
      Step w (.claim x code h) w
  | release (x : ι) (i : USBInterface) : w.interfaces x = some i →
      Step w (.release x) (w.assign (.handle_ x) none)
  | keep (k : κ) (x : ι) : Step w (.keep k x) (w.assign (.kept k) (w.handle x))
  | drop (k : κ) : Step w (.drop k) (w.assign (.kept k) none)
  | destroy (x : ι) : Step w (.destroy x) ((w.put x none).assign (.handle_ x) none)

theorem step_cases {w w' : World ι κ η} {op : Op ι κ η} (hstep : step w op = some w') :
    Step w op w' := by
  cases op with
  | construct x i =>
    simp only [step] at hstep
    split at hstep
    case h_1 hx => exact Option.some.inj hstep ▸ .construct x i hx
    case h_2 => cases hstep
  | constructFrom x k =>
    simp only [step] at hstep
    split at hstep
    case h_1 hx hk => exact Option.some.inj hstep ▸ .constructFrom x k _ hx hk
    case h_2 => cases hstep
  | copy x y =>
    simp only [step] at hstep
    split at hstep
    case h_1 hx hy => exact Option.some.inj hstep ▸ .copy x y _ hx hy
    case h_2 => cases hstep
  | claim x code h =>
    simp only [step] at hstep
    split at hstep
    case h_2 => cases hstep
    case h_1 i hi =>
      by_cases hcode : code = .USB_DDK_SUCCESS
      · subst hcode
        rw [claim_of_success] at hstep
        split_ifs at hstep with hfresh
        exact Option.some.inj hstep ▸ .claim x h i hi fun hg => hfresh (List.mem_map.2 hg)
      · obtain ⟨e, he⟩ := claim_of_ne w x i hcode h
        rw [he] at hstep
        exact Option.some.inj hstep ▸ .claimThrows x code h i e hi he
  | release x =>
    simp only [step] at hstep
    split at hstep
    case h_1 hx => exact Option.some.inj hstep ▸ .release x _ hx
    case h_2 => cases hstep
  | keep k x =>
    simp only [step] at hstep
    split at hstep
    case h_1 => exact Option.some.inj hstep ▸ .keep k x
    case h_2 => cases hstep
  | drop k => exact Option.some.inj hstep ▸ .drop k
  | destroy x =>
    simp only [step] at hstep
    split at hstep
    case h_1 => exact Option.some.inj hstep ▸ .destroy x
    case h_2 => cases hstep

/-! ## The invariant -/

/-- Handles are shared as they should be, and `handle_` is null where there is no interface. -/
structure Valid (w : World ι κ η) : Prop where
  shared : SharedPtr.Valid Handle.raii w.shared
  null : ∀ x, w.interfaces x = none → w.handle x = none

omit [DecidableEq ι] [DecidableEq κ] in
theorem Valid.empty : Valid (.empty : World ι κ η) := ⟨.empty, fun _ _ => rfl⟩

/-- What a step does to the pointers: it sets one of them to null or to the value of another, or
it makes a handle, or it changes nothing. -/
theorem Step.shared {w w' : World ι κ η} {op : Op ι κ η} (hstep : Step w op w') :
    (∃ v p, w'.shared = w.shared.assign Handle.raii v p ∧
      ∀ a, p = some a → ∃ v', w.shared.pointers v' = some a) ∨
    (∃ v o, w'.shared = w.shared.assignNew Handle.raii v o ∧
      ¬ w.shared.Granted Handle.raii o.handle_) ∨
    w'.shared = w.shared := by
  cases hstep with
  | construct | release | drop | destroy => exact Or.inl ⟨_, none, rfl, fun _ h => nomatch h⟩
  | constructFrom | copy | keep => exact Or.inl ⟨_, _, rfl, fun _ h => ⟨_, h⟩⟩
  | claim x h i hi hn => exact Or.inr (Or.inl ⟨_, _, rfl, hn⟩)
  | claimThrows => exact Or.inr (Or.inr rfl)

theorem handle_assign (w : World ι κ η) (v : Variable ι κ) (p : Option ℕ) (x : ι) :
    (w.assign v p).handle x = if .handle_ x = v then p else w.handle x := by
  rw [World.handle, World.assign, Store.assign_pointers, Function.update_apply, World.handle]

/-- An interface is constructed or destroyed. -/
theorem Valid.null_put {w : World ι κ η} (hw : Valid w) {x : ι} {i : Option USBInterface}
    {p : Option ℕ} (hp : i = none → p = none) (y : ι)
    (hy : ((w.put x i).assign (.handle_ x) p).interfaces y = none) :
    ((w.put x i).assign (.handle_ x) p).handle y = none := by
  have hy' : Function.update w.interfaces x i y = none := hy
  rw [handle_assign]
  by_cases hyx : y = x
  · subst hyx
    rw [Function.update_self] at hy'
    rw [if_pos rfl, hp hy']
  · rw [Function.update_of_ne hyx] at hy'
    rw [if_neg (by simpa using hyx)]
    exact hw.null y hy'

theorem Valid.step {w w' : World ι κ η} {op : Op ι κ η} (hw : Valid w) (hstep : Step w op w') :
    Valid w' := by
  refine ⟨?_, fun x hx => ?_⟩
  · rcases hstep.shared with ⟨v, p, hshared, hp⟩ | ⟨v, o, hshared, hn⟩ | hshared
    · rw [hshared]
      exact hw.shared.assign v hp
    · rw [hshared]
      exact hw.shared.assignNew v hn
    · rw [hshared]
      exact hw.shared
  · cases hstep with
    | construct | constructFrom | copy | destroy => exact hw.null_put (by simp) x hx
    | claim y h i hi hn =>
      have hyx : x ≠ y := by
        intro hyx
        rw [hyx] at hx
        exact absurd (hi.symm.trans hx) (by simp)
      rw [World.handle, Store.assignNew_pointers, Function.update_of_ne (by simpa using hyx)]
      exact hw.null x hx
    | claimThrows => exact hw.null x hx
    | release y i hi =>
      rw [handle_assign, hw.null x hx, ite_self]
    | keep k y | drop k =>
      rw [handle_assign, if_neg (by simp)]
      exact hw.null x hx

theorem Valid.run {ops : List (Op ι κ η)} {w : World ι κ η} (hrun : machine.run ops = some w) :
    Valid w :=
  Machine.invariant .empty (fun _ _ _ hstep hw => hw.step (step_cases hstep)) hrun

theorem Valid.extends {w w' : World ι κ η} {op : Op ι κ η} (hw : Valid w)
    (hstep : Step w op w') : Extends Handle.raii w.shared w'.shared := by
  rcases hstep.shared with ⟨v, p, hshared, -⟩ | ⟨v, o, hshared, -⟩ | hshared
  · rw [hshared]
    exact extends_assign w.shared v p
  · rw [hshared]
    exact hw.shared.extends_assignNew v o
  · rw [hshared]
    exact .refl w.shared

/-! ## Programs -/

namespace World

/-- A live interface or a kept pointer refers to the handle. -/
def Refers (w : World ι κ η) (h : η) : Prop :=
  (∃ x i o, w.interfaces x = some i ∧ w.shared.deref (.handle_ x) = some o ∧ o.handle_ = h) ∨
    ∃ k o, w.shared.deref (.kept k) = some o ∧ o.handle_ = h

/-- The handle was granted for the ids. -/
def Granted (w : World ι κ η) (deviceId : UInt64) (interfaceIndex : UInt8) (h : η) : Prop :=
  ⟨deviceId, interfaceIndex, h⟩ ∈ w.shared.made

/-- How often `OH_Usb_ReleaseInterface` was called with the handle. -/
def released (w : World ι κ η) (h : η) : ℕ := w.shared.givenBack Handle.raii h

end World

omit [DecidableEq ι] [DecidableEq κ] in
theorem Valid.refers_iff {w : World ι κ η} (hw : Valid w) (h : η) :
    w.Refers h ↔ w.shared.Refers Handle.raii h := by
  refine ⟨?_, ?_⟩
  · intro hr
    rcases hr with ⟨x, i, o, -, ho, hh⟩ | ⟨k, o, ho, hh⟩
    · exact ⟨.handle_ x, o, ho, hh⟩
    · exact ⟨.kept k, o, ho, hh⟩
  · intro hr
    obtain ⟨v, o, ho, hh⟩ := hr
    cases v with
    | kept k => exact Or.inr ⟨k, o, ho, hh⟩
    | handle_ x =>
      cases hx : w.interfaces x with
      | some i => exact Or.inl ⟨x, i, o, hx, ho, hh⟩
      | none =>
        have hnull : w.shared.pointers (.handle_ x) = none := hw.null x hx
        rw [Store.deref, hnull] at ho
        cases ho

/-- Handles are released once, when nothing refers to them any more. -/
structure ReleasedOnce (w : World ι κ η) : Prop where
  referred : ∀ h, w.Refers h → w.released h = 0
  once : ∀ deviceId interfaceIndex h, w.Granted deviceId interfaceIndex h → ¬ w.Refers h →
    w.released h = 1
  granted : ∀ h, w.released h ≠ 0 → ∃ deviceId interfaceIndex, w.Granted deviceId interfaceIndex h

/-- Between the two states, exactly the handles are released that the last one lets go of. -/
def LastLetsGo (w w' : World ι κ η) : Prop := ∀ h,
  (w.Refers h ∧ ¬ w'.Refers h → w'.released h = w.released h + 1) ∧
  (¬ (w.Refers h ∧ ¬ w'.Refers h) → w'.released h = w.released h)

/-- A call of `claim` on the interface at `x`, with its C results. -/
structure Claimed (x : ι) (code : USBErrCode) (h : η) (w w' : World ι κ η) : Prop where
  success : code = .USB_DDK_SUCCESS → ∃ i, w'.interfaces x = some i ∧
    w'.shared.deref (.handle_ x) = some ⟨i.deviceId, i.interfaceIndex, h⟩ ∧
    w'.Granted i.deviceId i.interfaceIndex h ∧ w'.released h = 0
  throws : code ≠ .USB_DDK_SUCCESS →
    (∀ i, w.interfaces x = some i → ∃ e, w.claim x i code h = .error e) ∧
    (∀ v, w'.shared.deref v = w.shared.deref v) ∧ ∀ h', w'.released h' = w.released h'

omit [DecidableEq ι] [DecidableEq κ] in
theorem Valid.releasedOnce {w : World ι κ η} (hw : Valid w) : ReleasedOnce w := by
  refine ⟨fun h hr => ?_, fun d k h hg hr => ?_, fun h hn => ?_⟩
  · exact (hw.shared.given_back h).1 ((hw.refers_iff h).1 hr)
  · exact (hw.shared.given_back h).2.1 (mt (hw.refers_iff h).2 hr) ⟨_, hg, rfl⟩
  · by_contra hnot
    refine hn ((hw.shared.given_back h).2.2 fun hg => hnot ?_)
    obtain ⟨o, ho, rfl⟩ := hg
    exact ⟨o.deviceId_, o.interfaceIndex_, ho⟩

theorem Valid.lastLetsGo {w w' : World ι κ η} {op : Op ι κ η} (hw : Valid w)
    (hstep : Step w op w') : LastLetsGo w w' := by
  intro h
  rw [hw.refers_iff, (hw.step hstep).refers_iff]
  exact hw.shared.step_given_back (hw.step hstep).shared (hw.extends hstep) h

theorem Valid.claimed {w w' : World ι κ η} {x : ι} {code : USBErrCode} {h : η} (hw : Valid w)
    (hstep : Step w (.claim x code h) w') : Claimed x code h w w' := by
  have hw' := hw.step hstep
  cases hstep with
  | claim x h i hi hn =>
    have hderef := hw.shared.deref_assignNew (.handle_ x) ⟨i.deviceId_, i.interfaceIndex_, h⟩
    refine ⟨fun _ => ⟨i, hi, hderef, ?_, ?_⟩, fun hcode => absurd rfl hcode⟩
    · simp [World.Granted, USBInterface.deviceId, USBInterface.interfaceIndex]
    · exact (hw'.shared.given_back h).1 ⟨.handle_ x, _, hderef, rfl⟩
  | claimThrows x code h i e hi he =>
    refine ⟨fun hcode => ?_, fun hcode => ?_⟩
    · subst hcode
      rw [claim_of_success] at he
      cases he
    · exact ⟨fun i _ => claim_of_ne w x i hcode h, fun _ => rfl, fun _ => rfl⟩

/-- **Claim and release.** After every run, each handle granted is released once if nothing refers
to it and not yet if something does; the next step releases what the last reference lets go of;
and if it is a claim, it takes over a handle granted for the interface's own ids or throws and
changes nothing. -/
theorem claims_released_once {ops : List (Op ι κ η)} {w : World ι κ η}
    (hrun : machine.run ops = some w) :
    ReleasedOnce w ∧ ∀ op w', step w op = some w' →
      LastLetsGo w w' ∧ ∀ x code h, op = .claim x code h → Claimed x code h w w' := by
  have hw := Valid.run hrun
  refine ⟨hw.releasedOnce, fun op w' hstep => ⟨hw.lastLetsGo (step_cases hstep), ?_⟩⟩
  intro x code h hop
  subst hop
  exact hw.claimed (step_cases hstep)

/-- The instance at an interface that is claimed, copied, claimed again, fails to claim once more
and is destroyed while its second handle is kept. -/
theorem claims_released_once_reclaimed : ∃ w, machine.run
    ([.construct 0 (.ofIndex 7 1), .claim 0 .USB_DDK_SUCCESS 100, .copy 1 0,
      .claim 0 .USB_DDK_SUCCESS 101, .claim 0 .USB_DDK_DEVICE_BUSY 0, .keep 0 0, .destroy 0,
      .release 1] : List (Op ℕ ℕ ℕ)) = some w ∧
    w.released 100 = 1 ∧ w.released 101 = 0 ∧ ReleasedOnce w := by
  have hrun : ∃ w, machine.run
      ([.construct 0 (.ofIndex 7 1), .claim 0 .USB_DDK_SUCCESS 100, .copy 1 0,
        .claim 0 .USB_DDK_SUCCESS 101, .claim 0 .USB_DDK_DEVICE_BUSY 0, .keep 0 0, .destroy 0,
        .release 1] : List (Op ℕ ℕ ℕ)) = some w ∧ w.released 100 = 1 ∧ w.released 101 = 0 :=
    ⟨_, rfl, rfl, rfl⟩
  obtain ⟨w, hrun, h₀, h₁⟩ := hrun
  exact ⟨w, hrun, h₀, h₁, (claims_released_once hrun).1⟩

end Claims

end OhosWrapper.Usb
