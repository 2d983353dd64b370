import OhosWrapper.Lib.CountedLoop
import OhosWrapper.Usb.Claim

/-!
# Requests to claimed interfaces

`Handle` sends control requests and selects alternate settings with the handle it was granted, and
`USBInterface` forwards to the `Handle` its pointer `handle_` refers to. It does not check the
pointer, so a request to an interface that is not claimed dereferences null.

**Values (`Holdings`).** `Handle` has no member function that changes it. So what a variable refers
to can be told from the operations as if pointers were values, without objects and use counts
(`holds_as_values`).

**The driver.** A claim that succeeds grants a handle that was not granted before, and a release
succeeds.

**Theorem (`requests_in_claim`).** The program calls the C functions with a handle only between the
call that grants it and the call that releases it.

**Theorem (`request_outcome`).** What a request to an interface does, in every state: it uses the
handle granted last for the ids of the interface, or dereferences null.
-/

namespace OhosWrapper.Usb

open SharedPtr
open CountedLoop (BadAccess deref)
open USBInterface (Handle)

variable {ι κ η : Type} [DecidableEq η]

/-! ## Requests -/

def USB_ENDPOINT_DIR_OUT : UInt32 := 0

def USB_ENDPOINT_DIR_IN : UInt32 := 0x80

structure UsbControlRequestSetup where
  bmRequestType : UInt8
  bRequest : UInt8
  wValue : UInt16
  wIndex : UInt16
  wLength : UInt16
  deriving DecidableEq, Repr

/-- The C functions that are called with a handle, and their other arguments. Of the buffer
of a read request only its length is passed, and of that of a write request the data too. -/
inductive HandleCall
  | OH_Usb_GetCurrentInterfaceSetting
  | OH_Usb_SelectInterfaceSetting (settingIndex : UInt8)
  | OH_Usb_SendControlReadRequest (setup : UsbControlRequestSetup) (timeout : UInt32)
      (dataLen : UInt32)
  | OH_Usb_SendControlWriteRequest (setup : UsbControlRequestSetup) (timeout : UInt32)
      (data : List UInt8) (dataLen : UInt32)
  deriving DecidableEq, Repr

/-- The results of the C functions: the code, the current setting, and the data read. -/
structure Response where
  code : USBErrCode
  settingIndex : UInt8
  data : List UInt8
  deriving DecidableEq, Repr

/-- The member functions. -/
inductive Request
  | currentInterfacesetting
  | selectInterfacesetting (settingIndex : UInt8)
  | read (dataReadLen : UInt32) (timeout_ms : UInt32)
  | write (dataWrite : List UInt8) (dataWriteLen : UInt32) (timeout_ms : UInt32)
  deriving DecidableEq, Repr

/-- What the member functions return. -/
inductive Returned
  | settingIndex (s : UInt8)
  | data (bytes : List UInt8)
  | void
  deriving DecidableEq, Repr

namespace USBInterface.Handle

def currentInterfacesetting (this : Handle η) (r : Response) :
    (η × HandleCall) × Except (DdkSystemError USBErrCode) Returned :=
  ((this.handle_, .OH_Usb_GetCurrentInterfaceSetting), do
    usbCheckError r.code "OH_Usb_GetCurrentInterfaceSetting(handle_, &settingIndex)"
    return .settingIndex r.settingIndex)

def selectInterfacesetting (this : Handle η) (settingIndex : UInt8) (r : Response) :
    (η × HandleCall) × Except (DdkSystemError USBErrCode) Returned :=
  ((this.handle_, .OH_Usb_SelectInterfaceSetting settingIndex), do
    usbCheckError r.code "OH_Usb_SelectInterfaceSetting(handle_, settingIndex)"
    return .void)

def read (this : Handle η) (dataReadLen timeout_ms : UInt32) (r : Response) :
    (η × HandleCall) × Except (DdkSystemError USBErrCode) Returned :=
  let setupRead : UsbControlRequestSetup :=
    { bmRequestType := USB_ENDPOINT_DIR_IN.toUInt8, bRequest := 0x08, wValue := 0, wIndex := 0,
      wLength := 0x01 }
  ((this.handle_, .OH_Usb_SendControlReadRequest setupRead timeout_ms dataReadLen), do
    usbCheckError r.code
      "OH_Usb_SendControlReadRequest(handle_, &setupRead, timeout_ms, dataRead, dataReadLen)"
    return .data r.data)

def write (this : Handle η) (dataWrite : List UInt8) (dataWriteLen timeout_ms : UInt32)
    (r : Response) : (η × HandleCall) × Except (DdkSystemError USBErrCode) Returned :=
  let setupWrite : UsbControlRequestSetup :=
    { bmRequestType := USB_ENDPOINT_DIR_OUT.toUInt8, bRequest := 0x09, wValue := 1, wIndex := 0,
      wLength := 0 }
  ((this.handle_, .OH_Usb_SendControlWriteRequest setupWrite timeout_ms dataWrite dataWriteLen), do
    usbCheckError r.code
      "OH_Usb_SendControlWriteRequest(handle_, &setupWrite, timeout_ms, dataWrite, dataWriteLen)"
    return .void)

/-- A call of one of them. -/
def request (this : Handle η) (r : Response) :
    Request → (η × HandleCall) × Except (DdkSystemError USBErrCode) Returned
  | .currentInterfacesetting => this.currentInterfacesetting r
  | .selectInterfacesetting settingIndex => this.selectInterfacesetting settingIndex r
  | .read dataReadLen timeout_ms => this.read dataReadLen timeout_ms r
  | .write dataWrite dataWriteLen timeout_ms => this.write dataWrite dataWriteLen timeout_ms r

omit [DecidableEq η] in
/-- A request is one C call, with the handle the object was made with. -/
theorem request_handle (this : Handle η) (r : Response) (q : Request) :
    (this.request r q).1.1 = this.handle_ := by
  cases q <;> rfl

omit [DecidableEq η] in
/-- A request returns unless the C call fails. -/
theorem request_isOk (this : Handle η) (r : Response) (q : Request) :
    (this.request r q).2.isOk ↔ r.code = .USB_DDK_SUCCESS := by
  by_cases hcode : r.code = .USB_DDK_SUCCESS
  · cases q <;> simp [request, currentInterfacesetting, selectInterfacesetting, read, write,
      usbCheckError, checkError, hcode, Except.isOk, Except.toBool]
  · cases q <;> simp [request, currentInterfacesetting, selectInterfacesetting, read, write,
      usbCheckError, checkError, hcode, Except.isOk, Except.toBool]

end USBInterface.Handle

namespace Claims

/-- `USBInterface::read` and its companions, and the same through what `handle()` returned. -/
def World.request (w : World ι κ η) (v : Variable ι κ) (q : Request) (r : Response) :
    Except BadAccess ((η × HandleCall) × Except (DdkSystemError USBErrCode) Returned) := do
  return (← deref (w.shared.deref v)).request r q

/-! ## Values -/

/-- The interfaces alive, and what the variables refer to. -/
structure Holdings (ι κ η : Type) where
  interfaces : ι → Option USBInterface
  holds : Variable ι κ → Option (Handle η)

variable [DecidableEq ι] [DecidableEq κ]

namespace Holdings

def empty : Holdings ι κ η := ⟨fun _ => none, fun _ => none⟩

def put (s : Holdings ι κ η) (x : ι) (i : Option USBInterface) : Holdings ι κ η :=
  { s with interfaces := Function.update s.interfaces x i }

def assign (s : Holdings ι κ η) (v : Variable ι κ) (o : Option (Handle η)) : Holdings ι κ η :=
  { s with holds := Function.update s.holds v o }

/-- An operation, if pointers were values. -/
def step (s : Holdings ι κ η) : Op ι κ η → Holdings ι κ η
  | .construct x i => (s.put x (some i)).assign (.handle_ x) none
  | .constructFrom x k =>
    (s.put x ((s.holds (.kept k)).map .ofHandle)).assign (.handle_ x) (s.holds (.kept k))
  | .copy x y => (s.put x (s.interfaces y)).assign (.handle_ x) (s.holds (.handle_ y))
  | .claim x code h =>
    match s.interfaces x with
    | some i =>
      if code = .USB_DDK_SUCCESS then
        s.assign (.handle_ x) (some ⟨i.deviceId_, i.interfaceIndex_, h⟩)
      else s
    | none => s
  | .release x => s.assign (.handle_ x) none
  | .keep k x => s.assign (.kept k) (s.holds (.handle_ x))
  | .drop k => s.assign (.kept k) none
  | .destroy x => (s.put x none).assign (.handle_ x) none

/-- The values after the operations. -/
def after (ops : List (Op ι κ η)) : Holdings ι κ η := ops.foldl step empty

end Holdings

/-- The values of a state. -/
def World.holdings (w : World ι κ η) : Holdings ι κ η := ⟨w.interfaces, w.shared.deref⟩

omit [DecidableEq η] [DecidableEq κ] in
theorem World.holdings_put (w : World ι κ η) (x : ι) (i : Option USBInterface) :
    (w.put x i).holdings = w.holdings.put x i := rfl

theorem holdings_assign {w : World ι κ η} (hw : SharedPtr.Valid Handle.raii w.shared)
    (v : Variable ι κ) {p : Option ℕ}
    (hp : ∀ a, p = some a → ∃ v', w.shared.pointers v' = some a) :
    (w.assign v p).holdings = w.holdings.assign v (p.bind w.shared.objectAt) :=
  congrArg (Holdings.mk w.interfaces) (hw.deref_assign v hp)

theorem Valid.holdings_step {w w' : World ι κ η} {op : Op ι κ η} (hw : Valid w)
    (hstep : Step w op w') : w'.holdings = w.holdings.step op := by
  have hnull : ∀ (w₁ : World ι κ η) (v : Variable ι κ), w₁.shared = w.shared →
      (w₁.assign v none).holdings = w₁.holdings.assign v none :=
    fun w₁ v hw₁ => holdings_assign (hw₁ ▸ hw.shared) v fun _ h => nomatch h
  have hcopy : ∀ (w₁ : World ι κ η) (v v' : Variable ι κ), w₁.shared = w.shared →
      (w₁.assign v (w.shared.pointers v')).holdings = w₁.holdings.assign v (w.shared.deref v') := by
    intro w₁ v v' hw₁
    rw [holdings_assign (hw₁ ▸ hw.shared) v fun a ha => ⟨v', hw₁ ▸ ha⟩, hw₁]
    rfl
  cases hstep with
  | construct x i hx => exact hnull (w.put x (some i)) _ rfl
  | constructFrom x k handle hx hk =>
    have hholds : w.holdings.holds (.kept k) = some handle := hk
    rw [hcopy (w.put x (some (.ofHandle handle))) _ _ rfl, World.holdings_put, hk, Holdings.step,
      hholds, Option.map_some]
  | copy x y other hx hy =>
    have hinterfaces : w.holdings.interfaces y = some other := hy
    rw [Holdings.step, hinterfaces]
    exact hcopy (w.put x (some other)) _ _ rfl
  | claim x h i hi hn =>
    have hinterfaces : w.holdings.interfaces x = some i := hi
    rw [Holdings.step, hinterfaces]
    exact congrArg (Holdings.mk w.interfaces) (hw.shared.deref_assignNew_eq _ _)
  | claimThrows x code h i e hi he =>
    have hinterfaces : w.holdings.interfaces x = some i := hi
    have hcode : code ≠ .USB_DDK_SUCCESS := by
      intro hcode
      rw [hcode, claim_of_success] at he
      cases he
    simp only [Holdings.step, hinterfaces, if_neg hcode]
  | release x i hi => exact hnull w _ rfl
  | keep k x => exact hcopy w _ _ rfl
  | drop k => exact hnull w _ rfl
  | destroy x => exact hnull (w.put x none) _ rfl

/-- **Pointers as values.** -/
theorem holds_as_values {ops : List (Op ι κ η)} {w : World ι κ η}
    (hrun : machine.run ops = some w) :
    w.interfaces = (Holdings.after ops).interfaces ∧
      ∀ v, w.shared.deref v = (Holdings.after ops).holds v := by
  suffices hholdings : w.holdings = Holdings.after ops by
    rw [← hholdings]
    exact ⟨rfl, fun _ => rfl⟩
  induction ops using List.reverseRecOn generalizing w with
  | nil => exact Option.some.inj hrun ▸ rfl
  | append_singleton ops op ih =>
    obtain ⟨t, ht, hw⟩ := Machine.run_concat_eq_some.1 hrun
    rw [(Valid.run ht).holdings_step (step_cases hw), ih ht, Holdings.after, Holdings.after,
      List.foldl_append, List.foldl_cons, List.foldl_nil]

/-- What an interface holds was granted for its own ids. -/
def Holdings.OwnIds (s : Holdings ι κ η) : Prop := ∀ x i this, s.interfaces x = some i →
  s.holds (.handle_ x) = some this →
  this.deviceId_ = i.deviceId ∧ this.interfaceIndex_ = i.interfaceIndex

omit [DecidableEq η] in
/-- An interface is constructed, destroyed, claimed or released. -/
theorem Holdings.OwnIds.put {s : Holdings ι κ η} (hs : s.OwnIds) (x : ι) {i : Option USBInterface}
    {o : Option (Handle η)} (h : ∀ i' this, i = some i' → o = some this →
      this.deviceId_ = i'.deviceId ∧ this.interfaceIndex_ = i'.interfaceIndex) :
    ((s.put x i).assign (.handle_ x) o).OwnIds := by
  intro y i' this hi ho
  by_cases hy : y = x
  · subst hy
    simp only [Holdings.assign, Holdings.put, Function.update_self] at hi ho
    exact h i' this hi ho
  · have hne : Variable.handle_ y ≠ (.handle_ x : Variable ι κ) := by simpa using hy
    simp only [Holdings.assign, Holdings.put, Function.update_of_ne hy,
      Function.update_of_ne hne] at hi ho
    exact hs y i' this hi ho

omit [DecidableEq η] in
theorem Holdings.OwnIds.step {s : Holdings ι κ η} (hs : s.OwnIds) (op : Op ι κ η) :
    (s.step op).OwnIds := by
  have hassign : ∀ (x : ι) (o : Option (Handle η)), (∀ i this, s.interfaces x = some i →
      o = some this → this.deviceId_ = i.deviceId ∧ this.interfaceIndex_ = i.interfaceIndex) →
      (s.assign (.handle_ x) o).OwnIds := by
    intro x o ho
    have hput := hs.put x ho
    rwa [Holdings.put, Function.update_eq_self] at hput
  have hkept : ∀ (k : κ) (o : Option (Handle η)), (s.assign (.kept k) o).OwnIds := by
    intro k o x i this hi ho
    have hne : Variable.handle_ x ≠ (.kept k : Variable ι κ) := by simp
    simp only [Holdings.assign, Function.update_of_ne hne] at hi ho
    exact hs x i this hi ho
  cases op with
  | construct x i => exact hs.put x fun _ _ _ h => nomatch h
  | constructFrom x k =>
    refine hs.put x fun i' this hi ho => ?_
    rw [ho] at hi
    exact Option.some.inj hi ▸ ⟨rfl, rfl⟩
  | copy x y => exact hs.put x fun i' this hi ho => hs y i' this hi ho
  | claim x code h =>
    simp only [Holdings.step]
    split
    case h_2 => exact hs
    case h_1 i hi =>
      split_ifs
      · refine hassign x _ fun i' this hi' ho => ?_
        rw [hi] at hi'
        cases hi'
        cases ho
        exact ⟨rfl, rfl⟩
      · exact hs
  | release x => exact hassign x _ fun _ _ _ h => nomatch h
  | keep k x => exact hkept k _
  | drop k => exact hkept k _
  | destroy x => exact hs.put x fun _ _ h => nomatch h

omit [DecidableEq η] in
theorem Holdings.ownIds_after (ops : List (Op ι κ η)) : (Holdings.after ops).OwnIds := by
  induction ops using List.reverseRecOn with
  | nil => exact fun _ _ _ h => nomatch h
  | append_singleton ops op ih =>
    rw [Holdings.after, List.foldl_append, List.foldl_cons, List.foldl_nil]
    exact ih.step op

/-- What a variable refers to was made by a claim. -/
theorem mem_made {ops : List (Op ι κ η)} {w : World ι κ η} (hrun : machine.run ops = some w)
    {v : Variable ι κ} {this : Handle η} (hv : w.shared.deref v = some this) :
    this ∈ w.shared.made := by
  induction ops using List.reverseRecOn generalizing w v with
  | nil =>
    cases hrun
    cases hv
  | append_singleton ops op ih =>
    obtain ⟨t, ht, hw⟩ := Machine.run_concat_eq_some.1 hrun
    have hshared := (Valid.run ht).shared
    rcases (step_cases hw).shared with ⟨v₀, p, heq, hp⟩ | ⟨v₀, o, heq, -⟩ | heq
    · have hmade : (t.shared.assign Handle.raii v₀ p).made = t.shared.made := by simp
      rw [heq, hshared.deref_assign v₀ hp, Function.update_apply] at hv
      rw [heq, hmade]
      split_ifs at hv
      · obtain ⟨a, ha, ho⟩ := Option.bind_eq_some_iff.1 hv
        obtain ⟨v', hv'⟩ := hp a ha
        exact ih ht (v := v') (by rw [Store.deref, hv', Option.bind_some, ho])
      · exact ih ht hv
    · rw [heq, hshared.deref_assignNew_eq, Function.update_apply] at hv
      rw [heq, Store.assignNew_made, List.mem_append, List.mem_singleton]
      split_ifs at hv
      · exact Or.inr (Option.some.inj hv).symm
      · exact Or.inl (ih ht hv)
    · rw [heq] at hv ⊢
      exact ih ht hv

/-- **Requests.** After every run, a request to an interface dereferences null if the operations
left the interface without a handle. Otherwise it is the C call of the member function, with a
handle that was granted for the ids of the interface and is not released, and it throws if that
call fails. The driver grants new handles, and releases succeed. -/
theorem request_outcome {ops : List (Op ι κ η)} {w : World ι κ η}
    (hrun : machine.run ops = some w) {x : ι} {i : USBInterface}
    (hi : w.interfaces x = some i) (q : Request) (r : Response) :
    ((Holdings.after ops).holds (.handle_ x) = none ∧
      w.request (.handle_ x) q r = .error .nullPointer) ∨
    ∃ this : Handle η, (Holdings.after ops).holds (.handle_ x) = some this ∧
      w.request (.handle_ x) q r = .ok (this.request r q) ∧
      (this.request r q).1.1 = this.handle_ ∧
      w.Granted i.deviceId i.interfaceIndex this.handle_ ∧ w.released this.handle_ = 0 ∧
      ((this.request r q).2.isOk ↔ r.code = .USB_DDK_SUCCESS) := by
  obtain ⟨hinterfaces, hholds⟩ := holds_as_values hrun
  have hw := Valid.run hrun
  cases hx : (Holdings.after ops).holds (.handle_ x) with
  | none =>
    refine Or.inl ⟨rfl, ?_⟩
    rw [World.request, hholds, hx]
    rfl
  | some this =>
    have hderef : w.shared.deref (.handle_ x) = some this := by rw [hholds, hx]
    have hrefers : w.shared.Refers Handle.raii this.handle_ := ⟨_, this, hderef, rfl⟩
    obtain ⟨hd, hk⟩ := Holdings.ownIds_after ops x i this (hinterfaces ▸ hi) hx
    refine Or.inr ⟨this, rfl, ?_, this.request_handle r q, ?_, ?_, this.request_isOk r q⟩
    · rw [World.request, hderef]
      rfl
    · rw [World.Granted, ← hd, ← hk]
      exact mem_made hrun hderef
    · exact (hw.shared.given_back _).1 hrefers

/-- The instance at a released copy of a claimed interface. -/
theorem request_outcome_released : ∃ w, machine.run
    ([.construct 0 (.ofIndex 7 1), .claim 0 .USB_DDK_SUCCESS 100, .copy 1 0, .release 1] :
      List (Op ℕ ℕ ℕ)) = some w ∧
    w.request (.handle_ 1) (.read 1 500) ⟨.USB_DDK_SUCCESS, 0, [1]⟩ = .error .nullPointer := by
  have hrun : ∃ w, machine.run
      ([.construct 0 (.ofIndex 7 1), .claim 0 .USB_DDK_SUCCESS 100, .copy 1 0, .release 1] :
        List (Op ℕ ℕ ℕ)) = some w ∧ w.interfaces 1 = some (.ofIndex 7 1) := ⟨_, rfl, rfl⟩
  obtain ⟨w, hrun, hi⟩ := hrun
  rcases request_outcome hrun hi (.read 1 500) ⟨.USB_DDK_SUCCESS, 0, [1]⟩ with
    ⟨-, hnull⟩ | ⟨this, hx, -⟩
  · exact ⟨w, hrun, hnull⟩
  · cases hx

/-! ## The calls a program makes -/

/-- The C calls with handles: a claim that succeeds, a release, a request. -/
inductive Event (η : Type)
  | claimed (deviceId : UInt64) (interfaceIndex : UInt8) (handle : η)
  | released (handle : η)
  | called (handle : η) (c : HandleCall)
  deriving DecidableEq, Repr

/-- The calls that lead from one state to the next: a claim, then what the destructors call. -/
def events (w w' : World ι κ η) : List (Event η) :=
  (w'.shared.made.drop w.shared.made.length).map
      (fun o => .claimed o.deviceId_ o.interfaceIndex_ o.handle_) ++
    (w'.shared.calls.drop w.shared.calls.length).filterMap fun c => c.2.map .released

/-- A program that makes requests too. -/
inductive TransferOp (ι κ η : Type)
  | claims (op : Op ι κ η)
  | request (v : Variable ι κ) (q : Request) (r : Response)

structure TransferWorld (ι κ η : Type) where
  claims : World ι κ η
  trace : List (Event η)

/-- One operation. A request through a null pointer has no defined result. -/
def transferStep (w : TransferWorld ι κ η) : TransferOp ι κ η → Option (TransferWorld ι κ η)
  | .claims op =>
    match step w.claims op with
    | some c => some ⟨c, w.trace ++ events w.claims c⟩
    | none => none
  | .request v q r =>
    match w.claims.request v q r with
    | .ok (call, _) => some ⟨w.claims, w.trace ++ [.called call.1 call.2]⟩
    | .error _ => none

def transferMachine : Machine (TransferWorld ι κ η) (TransferOp ι κ η) :=
  ⟨⟨.empty, []⟩, transferStep⟩

/-- What may follow the calls `pre`. -/
def Allowed (pre : List (Event η)) : Event η → Prop
  | .claimed _ _ h => ∀ deviceId interfaceIndex, .claimed deviceId interfaceIndex h ∉ pre
  | .released h | .called h _ =>
    (∃ deviceId interfaceIndex, .claimed deviceId interfaceIndex h ∈ pre) ∧ .released h ∉ pre

/-- Each handle is granted, then used, then released, and nothing more. -/
def Disciplined (trace : List (Event η)) : Prop :=
  ∀ pre e post, trace = pre ++ e :: post → Allowed pre e

omit [DecidableEq η] in
theorem Disciplined.concat {t : List (Event η)} {e : Event η} (ht : Disciplined t)
    (he : Allowed t e) : Disciplined (t ++ [e]) := by
  intro pre e' post heq
  rcases post.eq_nil_or_concat' with rfl | ⟨post, b, rfl⟩
  · obtain ⟨rfl, hee⟩ := List.append_inj' heq rfl
    exact List.singleton_inj.1 hee ▸ he
  · rw [← List.cons_append, ← List.append_assoc] at heq
    obtain ⟨rfl, -⟩ := List.append_inj' heq rfl
    exact ht pre e' post rfl

/-- The trace tells which handles were granted and which were released. -/
structure Traced (w : World ι κ η) (trace : List (Event η)) : Prop where
  claimed : ∀ deviceId interfaceIndex h,
    .claimed deviceId interfaceIndex h ∈ trace ↔ w.Granted deviceId interfaceIndex h
  released : ∀ h, .released h ∈ trace ↔ w.released h ≠ 0
  disciplined : Disciplined trace

omit [DecidableEq ι] [DecidableEq κ] in
theorem traced_empty : Traced (.empty : World ι κ η) [] where
  claimed _ _ _ := by simp [World.Granted, World.empty, Store.empty]
  released _ := by simp [World.released, World.empty, Store.empty, Store.givenBack]
  disciplined _ _ _ h := by simp at h

/-- A claim may make one object, and an assignment destroys one at most. -/
theorem Step.made_calls {w w' : World ι κ η} {op : Op ι κ η} (hstep : Step w op w') :
    (w'.shared.made = w.shared.made ∨
      ∃ o, w'.shared.made = w.shared.made ++ [o] ∧ ¬ w.shared.Granted Handle.raii o.handle_) ∧
    (w'.shared.calls = w.shared.calls ∨
      ∃ o, w'.shared.calls = w.shared.calls ++ Handle.raii.destroy o) := by
  have hletGo : ∀ (s : Store (Variable ι κ) (Handle η) (ReleaseFunction × Option η)) t,
      (s.letGo Handle.raii t).calls = s.calls ∨
        ∃ o, (s.letGo Handle.raii t).calls = s.calls ++ Handle.raii.destroy o := by
    intro s t
    obtain ⟨-, -, ⟨-, hcalls⟩ | ⟨a, o, -, -, hcalls⟩⟩ := s.letGo_cases Handle.raii t
    · exact Or.inl hcalls
    · exact Or.inr ⟨o, hcalls⟩
  rcases hstep.shared with ⟨v, p, heq, -⟩ | ⟨v, o, heq, hn⟩ | heq
  · rw [heq]
    have hcalls := hletGo ((w.shared.retain p).swap v p) (w.shared.pointers v)
    rw [Store.swap_calls, Store.retain_calls] at hcalls
    exact ⟨Or.inl (Store.assign_made _ _ _ _), hcalls⟩
  · rw [heq]
    refine ⟨Or.inr ⟨o, Store.assignNew_made _ _ _ _, hn⟩, ?_⟩
    exact hletGo ((w.shared.alloc o).swap v (some w.shared.next)) (w.shared.pointers v)
  · rw [heq]
    exact ⟨Or.inl rfl, Or.inl rfl⟩

omit [DecidableEq η] [DecidableEq ι] [DecidableEq κ] in
theorem events_eq {w w' : World ι κ η} {os : List (Handle η)}
    {cs : List (ReleaseFunction × Option η)} (hmade : w'.shared.made = w.shared.made ++ os)
    (hcalls : w'.shared.calls = w.shared.calls ++ cs) :
    events w w' = os.map (fun o => .claimed o.deviceId_ o.interfaceIndex_ o.handle_) ++
      cs.filterMap fun c => c.2.map .released := by
  rw [events, hmade, hcalls, List.drop_left, List.drop_left]

omit [DecidableEq ι] [DecidableEq κ] in
/-- An object is made. -/
theorem Traced.claim {w w' : World ι κ η} {trace : List (Event η)} (h : Traced w trace)
    {o : Handle η} (hmade : w'.shared.made = w.shared.made ++ [o])
    (hcalls : w'.shared.calls = w.shared.calls) (hn : ¬ w.shared.Granted Handle.raii o.handle_) :
    Traced w' (trace ++ [.claimed o.deviceId_ o.interfaceIndex_ o.handle_]) := by
  refine ⟨fun d k g => ?_, fun g => ?_, h.disciplined.concat fun d k hg => hn ?_⟩
  · rw [List.mem_append, List.mem_singleton, h.claimed, World.Granted, World.Granted, hmade,
      List.mem_append, List.mem_singleton, Event.claimed.injEq, Handle.mk.injEq]
  · rw [List.mem_append, List.mem_singleton, or_iff_left (by simp), h.released, World.released,
      World.released, Store.givenBack, Store.givenBack, hcalls]
  · exact ⟨_, (h.claimed d k o.handle_).1 hg, rfl⟩

omit [DecidableEq ι] [DecidableEq κ] in
/-- An object is destroyed. Its handle was not released before, since no handle is released
twice. -/
theorem Traced.destroy {w w' : World ι κ η} {trace : List (Event η)} (h : Traced w trace)
    (hw' : Valid w') {o : Handle η} (hmade : w'.shared.made = w.shared.made)
    (hcalls : w'.shared.calls = w.shared.calls ++ Handle.raii.destroy o) :
    Traced w' (trace ++ [.released o.handle_]) := by
  have hcount : ∀ g, w'.released g = w.released g + if o.handle_ = g then 1 else 0 :=
    Store.givenBack_of_destroy hcalls
  have hpos : w'.released o.handle_ ≠ 0 := by
    rw [hcount, if_pos rfl]
    exact Nat.succ_ne_zero _
  obtain ⟨d, k, hg⟩ := hw'.releasedOnce.granted _ hpos
  have hone : w'.released o.handle_ = 1 :=
    hw'.releasedOnce.once d k _ hg fun hr => hpos (hw'.releasedOnce.referred _ hr)
  have hclaimed : ∀ d k g, w'.Granted d k g ↔ w.Granted d k g := by
    intro d k g
    rw [World.Granted, hmade, World.Granted]
  refine ⟨fun d k g => ?_, fun g => ?_, h.disciplined.concat ⟨⟨d, k, ?_⟩, fun hr => ?_⟩⟩
  · rw [List.mem_append, List.mem_singleton, or_iff_left (by simp), h.claimed, hclaimed]
  · rw [List.mem_append, List.mem_singleton, h.released, hcount, Event.released.injEq]
    split_ifs with hog
    · simp [hog]
    · simp [Ne.symm hog]
  · exact (h.claimed d k _).2 ((hclaimed d k _).1 hg)
  · have hzero := (h.released _).1 hr
    rw [hcount, if_pos rfl] at hone
    omega

omit [DecidableEq ι] [DecidableEq κ] in
theorem Traced.congr {w w' : World ι κ η} {trace : List (Event η)} (h : Traced w trace)
    (hmade : w'.shared.made = w.shared.made) (hcalls : w'.shared.calls = w.shared.calls) :
    Traced w' trace := by
  refine ⟨fun d k g => ?_, fun g => ?_, h.disciplined⟩
  · rw [h.claimed, World.Granted, World.Granted, hmade]
  · rw [h.released, World.released, World.released, Store.givenBack, Store.givenBack, hcalls]

/-- An operation on interfaces. -/
theorem Traced.step {w w' : World ι κ η} {trace : List (Event η)} {op : Op ι κ η} (hw : Valid w)
    (h : Traced w trace) (hstep : Step w op w') : Traced w' (trace ++ events w w') := by
  have hw' := hw.step hstep
  obtain ⟨hmade, hcalls⟩ := hstep.made_calls
  -- The state between the claim and the destructors.
  obtain ⟨mid, hmid, hmidcalls⟩ : ∃ mid : World ι κ η, w'.shared.made = mid.shared.made ∧
      mid.shared.calls = w.shared.calls :=
    ⟨{ w' with shared := { w'.shared with calls := w.shared.calls } }, rfl, rfl⟩
  obtain ⟨os, hos, htraced⟩ : ∃ os, w'.shared.made = w.shared.made ++ os ∧
      Traced mid (trace ++ os.map fun o => .claimed o.deviceId_ o.interfaceIndex_ o.handle_) := by
    rcases hmade with hmade | ⟨o, hmade, hn⟩
    · refine ⟨[], by rw [hmade, List.append_nil], ?_⟩
      rw [List.map_nil, List.append_nil]
      exact h.congr (hmid.symm.trans hmade) hmidcalls
    · exact ⟨[o], hmade, h.claim (hmid.symm.trans hmade) hmidcalls hn⟩
  rcases hcalls with hcalls | ⟨o, hcalls⟩
  · have hnone : w'.shared.calls = w.shared.calls ++ [] := by rw [hcalls, List.append_nil]
    rw [events_eq hos hnone, List.filterMap_nil, List.append_nil]
    exact htraced.congr hmid (hcalls.trans hmidcalls.symm)
  · rw [events_eq hos hcalls, ← List.append_assoc]
    exact htraced.destroy hw' hmid (by rw [hcalls, hmidcalls])

omit [DecidableEq ι] [DecidableEq κ] in
/-- A request through a pointer that refers to a `Handle`. -/
theorem Traced.call {w : World ι κ η} {trace : List (Event η)} (hw : Valid w) (h : Traced w trace)
    {v : Variable ι κ} {this : Handle η} (hv : w.shared.deref v = some this) (c : HandleCall) :
    Traced w (trace ++ [.called this.handle_ c]) := by
  have hrefers : w.shared.Refers Handle.raii this.handle_ := ⟨v, this, hv, rfl⟩
  obtain ⟨o, ho, hoh⟩ := hw.shared.granted_of_refers hrefers
  have hclaimed : w.Granted o.deviceId_ o.interfaceIndex_ this.handle_ := hoh ▸ ho
  refine ⟨fun d k g => ?_, fun g => ?_, h.disciplined.concat
    ⟨⟨o.deviceId_, o.interfaceIndex_, (h.claimed _ _ _).2 hclaimed⟩, fun hr => ?_⟩⟩
  · rw [List.mem_append, List.mem_singleton, or_iff_left (by simp), h.claimed]
  · rw [List.mem_append, List.mem_singleton, or_iff_left (by simp), h.released]
  · exact (h.released _).1 hr ((hw.shared.given_back _).1 hrefers)

/-- **Use in time.** With a driver that grants new handles, and releases that succeed, a handle is
granted before it is used or released, is granted and released once, and is not used after it is
released, in the C calls of every program. -/
theorem requests_in_claim {ops : List (TransferOp ι κ η)} {w : TransferWorld ι κ η}
    (hrun : transferMachine.run ops = some w) : Disciplined w.trace := by
  suffices h : Valid w.claims ∧ Traced w.claims w.trace from h.2.disciplined
  refine Machine.invariant (I := fun w => Valid w.claims ∧ Traced w.claims w.trace)
    ⟨.empty, traced_empty⟩ (fun w op w' hstep hw => ?_) hrun
  obtain ⟨hvalid, htraced⟩ := hw
  cases op with
  | claims op =>
    simp only [transferMachine, transferStep] at hstep
    split at hstep
    case h_2 => cases hstep
    case h_1 c hc =>
      cases hstep
      exact ⟨hvalid.step (step_cases hc), htraced.step hvalid (step_cases hc)⟩
  | request v q r =>
    simp only [transferMachine, transferStep] at hstep
    split at hstep
    case h_2 => cases hstep
    case h_1 call result hcall =>
      cases hstep
      refine ⟨hvalid, ?_⟩
      cases hv : w.claims.shared.deref v with
      | none =>
        rw [World.request, hv] at hcall
        cases hcall
      | some this =>
        have hthis : call.1 = this.handle_ := by
          rw [World.request, hv] at hcall
          rw [← this.request_handle r q]
          exact (congrArg (fun p => p.1.1) (Except.ok.inj hcall)).symm
        rw [hthis]
        exact htraced.call hvalid hv call.2

/-- The instance at an interface that is claimed, copied and read; its copy is read after it is
released. -/
theorem requests_in_claim_copied : ∃ w, transferMachine.run
    ([.claims (.construct 0 (.ofIndex 7 1)), .claims (.claim 0 .USB_DDK_SUCCESS 100),
      .request (.handle_ 0) (.read 1 500) ⟨.USB_DDK_SUCCESS, 0, [1]⟩, .claims (.copy 1 0),
      .claims (.release 0), .request (.handle_ 1) (.read 1 500) ⟨.USB_DDK_TIMEOUT, 0, []⟩,
      .claims (.destroy 1)] : List (TransferOp ℕ ℕ ℕ)) = some w ∧ w.trace.length = 4 ∧
    Disciplined w.trace := by
  have hrun : ∃ w, transferMachine.run
      ([.claims (.construct 0 (.ofIndex 7 1)), .claims (.claim 0 .USB_DDK_SUCCESS 100),
        .request (.handle_ 0) (.read 1 500) ⟨.USB_DDK_SUCCESS, 0, [1]⟩, .claims (.copy 1 0),
        .claims (.release 0), .request (.handle_ 1) (.read 1 500) ⟨.USB_DDK_TIMEOUT, 0, []⟩,
        .claims (.destroy 1)] : List (TransferOp ℕ ℕ ℕ)) = some w ∧ w.trace.length = 4 :=
    ⟨_, rfl, rfl⟩
  obtain ⟨w, hrun, hlen⟩ := hrun
  exact ⟨w, hrun, hlen, requests_in_claim hrun⟩

end Claims

end OhosWrapper.Usb
