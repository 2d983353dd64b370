import OhosWrapper.Commev.Event
import OhosWrapper.Lib.Transducer

/-!
# The hot-plug listener `USBEventListener`

The listener is a singleton with four members: `subscriber_`, `subscribed_` and the two optional
callbacks. Its operations are the public ones (`onAttach`, `onDetach`, `start`, `reset`), the
delivery of an event by the system (`OnEvent`), and the destructor at the end of its life.

**Runs.** The operations are the inputs of a transducer, together with the results of the C
calls they make; its outputs are the C calls made, the callbacks invoked and the exceptions
thrown, in order. Dereferencing an empty `std::optional` is undefined and shows as the effect
`derefEmpty`.

The names of the two events are constants of the CommonEvent headers. They are a parameter here,
of which only that they differ is used.
-/

namespace OhosWrapper.Usb

open Commev Commev.CommonEvent_ErrCode

/-- `COMMON_EVENT_USB_DEVICE_ATTACHED` and `COMMON_EVENT_USB_DEVICE_DETACHED`. -/
structure EventNames where
  attached : String
  detached : String
  ne : attached ≠ detached

/-- A callback with its user data. -/
structure Notifyer (κ υ : Type*) where
  notify : κ
  userData : υ
  deriving DecidableEq, Repr

/-- What an operation does besides changing the members. -/
inductive Effect (κ υ : Type*)
  | createSubscribeInfo (events : List String)
  | destroySubscribeInfo
  | createSubscriber
  | subscribe (result : CommonEvent_ErrCode)
  | unSubscribe (result : CommonEvent_ErrCode)
  | destroySubscriber
  | invoke (cb : κ) (data : RcvData) (userData : υ)
  | derefEmpty
  | throw (e : SystemError)
  | terminate
  deriving DecidableEq, Repr

/-- The results of the C calls made by `start`. -/
structure StartResults where
  createSubscribeInfo : Bool
  createSubscriber : Bool
  subscribe : CommonEvent_ErrCode
  deriving DecidableEq, Repr

/-- The operations on the listener, with the results of their C calls. -/
inductive Op (κ υ : Type*)
  | onAttach (cb : κ) (userData : υ)
  | onDetach (cb : κ) (userData : υ)
  | start (r : StartResults)
  | reset (unSubscribe : CommonEvent_ErrCode)
  | deliver (data : RcvData)
  deriving DecidableEq, Repr

structure USBEventListener (κ υ : Type*) where
  subscribed_ : Bool
  subscriber_ : Option Subscriber
  onAttach_ : Option (Notifyer κ υ)
  onDetach_ : Option (Notifyer κ υ)
  deriving DecidableEq, Repr

namespace USBEventListener

variable {κ υ : Type*} (names : EventNames)

/-! ## The class -/

/-- The constructor. -/
def new : USBEventListener κ υ := ⟨false, none, none, none⟩

def onAttach (l : USBEventListener κ υ) (cb : κ) (userData : υ) : USBEventListener κ υ :=
  { l with onAttach_ := some ⟨cb, userData⟩ }

def onDetach (l : USBEventListener κ υ) (cb : κ) (userData : υ) : USBEventListener κ υ :=
  { l with onDetach_ := some ⟨cb, userData⟩ }

/-- The event names `start` collects. -/
def eventList (l : USBEventListener κ υ) : List String :=
  (if l.onAttach_.isSome then [names.attached] else []) ++
    (if l.onDetach_.isSome then [names.detached] else [])

/-- The effects of `~SubscribeInfo`. -/
def destroyInfo (info : SubscribeInfo) : List (Effect κ υ) :=
  if info.info_.isSome then [.destroySubscribeInfo] else []

/-- `subscriber_` keeps the new subscriber when `subscribe` throws: it was reset before. The
local `info` is destroyed on both ways out. -/
def start (l : USBEventListener κ υ) (r : StartResults) :
    USBEventListener κ υ × List (Effect κ υ) :=
  match l.subscriber_ with
  | some _ => (l, [])
  | none =>
    let info := SubscribeInfo.new r.createSubscribeInfo (l.eventList names)
    let sub := Subscriber.new r.createSubscriber info
    let called := sub.ohSubscribe r.subscribe
    let l' := { l with subscriber_ := some called.2 }
    let calls := [.createSubscribeInfo (l.eventList names), .createSubscriber,
      .subscribe called.1]
    match commonCheckError called.1 "OH_CommonEvent_Subscribe(subscriber_)" with
    | none => ({ l' with subscribed_ := true }, calls ++ destroyInfo info)
    | some e => (l', calls ++ destroyInfo info ++ [.throw e])

/-- `reset` never clears `subscriber_`. -/
def reset (l : USBEventListener κ υ) (r : CommonEvent_ErrCode) :
    USBEventListener κ υ × List (Effect κ υ) :=
  match l.subscriber_ with
  | none => (l, [])
  | some sub =>
    let called := sub.ohUnSubscribe r
    let l' := { l with subscriber_ := some called.2 }
    match commonCheckError called.1 "OH_CommonEvent_UnSubscribe(subscriber_)" with
    | none => ({ l' with subscribed_ := false }, [.unSubscribe called.1])
    | some e => (l', [.unSubscribe called.1, .throw e])

/-- `(*n)(rcvData)` on an optional callback. -/
def invoke (n : Option (Notifyer κ υ)) (data : RcvData) : List (Effect κ υ) :=
  match n with
  | some n => [.invoke n.notify data n.userData]
  | none => [.derefEmpty]

def OnEvent (l : USBEventListener κ υ) (data : RcvData) : List (Effect κ υ) :=
  if data.event = names.attached then invoke l.onAttach_ data
  else if data.event = names.detached then invoke l.onDetach_ data
  else []

/-- The destructor: `reset`, in a function that is `noexcept`, then the members. -/
def destroy (l : USBEventListener κ υ) (r : CommonEvent_ErrCode) : List (Effect κ υ) :=
  let called := l.reset r
  if called.2.any (· matches .throw _) then called.2 ++ [.terminate]
  else called.2 ++
    if (called.1.subscriber_.bind (·.subscriber_)).isSome then [.destroySubscriber] else []

def machine (names : EventNames) : Transducer (USBEventListener κ υ) (Op κ υ) (Effect κ υ) where
  step l
    | .onAttach cb userData => (l.onAttach cb userData, [])
    | .onDetach cb userData => (l.onDetach cb userData, [])
    | .start r => l.start names r
    | .reset r => l.reset r
    | .deliver data => (l, l.OnEvent names data)

/-- The listener has an active subscription at the system. -/
def active (l : USBEventListener κ υ) : Bool := l.subscriber_.any (·.active)

/-! ## What one operation does -/

@[simp] theorem step_onAttach (l : USBEventListener κ υ) (cb : κ) (userData : υ) :
    (machine names).step l (.onAttach cb userData) = (l.onAttach cb userData, []) := rfl

@[simp] theorem step_onDetach (l : USBEventListener κ υ) (cb : κ) (userData : υ) :
    (machine names).step l (.onDetach cb userData) = (l.onDetach cb userData, []) := rfl

@[simp] theorem step_start (l : USBEventListener κ υ) (r : StartResults) :
    (machine names).step l (.start r) = l.start names r := rfl

@[simp] theorem step_reset (l : USBEventListener κ υ) (r : CommonEvent_ErrCode) :
    (machine names).step l (.reset r) = l.reset r := rfl

@[simp] theorem step_deliver (l : USBEventListener κ υ) (data : RcvData) :
    (machine names).step l (.deliver data) = (l, l.OnEvent names data) := rfl

theorem start_of_some {l : USBEventListener κ υ} {sub : Subscriber}
    (h : l.subscriber_ = some sub) (r : StartResults) : l.start names r = (l, []) := by
  simp [start, h]

theorem reset_of_none {l : USBEventListener κ υ} (h : l.subscriber_ = none)
    (r : CommonEvent_ErrCode) : l.reset r = (l, []) := by
  simp [reset, h]

/-- `start` and `reset` keep the callbacks. -/
theorem start_callbacks (l : USBEventListener κ υ) (r : StartResults) :
    (l.start names r).1.onAttach_ = l.onAttach_ ∧
      (l.start names r).1.onDetach_ = l.onDetach_ := by
  unfold start
  split
  · exact ⟨rfl, rfl⟩
  · dsimp only
    split <;> exact ⟨rfl, rfl⟩

theorem reset_callbacks (l : USBEventListener κ υ) (r : CommonEvent_ErrCode) :
    (l.reset r).1.onAttach_ = l.onAttach_ ∧ (l.reset r).1.onDetach_ = l.onDetach_ := by
  unfold reset
  split
  · exact ⟨rfl, rfl⟩
  · dsimp only
    split <;> exact ⟨rfl, rfl⟩

/-- The subscriber a first `start` leaves behind, whether it throws or not. -/
theorem start_subscriber {l : USBEventListener κ υ} (h : l.subscriber_ = none)
    (r : StartResults) :
    (l.start names r).1.subscriber_ =
      some ((Subscriber.new r.createSubscriber
        (SubscribeInfo.new r.createSubscribeInfo (l.eventList names))).ohSubscribe
          r.subscribe).2 := by
  simp only [start, h]
  split <;> rfl

/-- The subscriber left behind by `reset`. -/
theorem reset_subscriber {l : USBEventListener κ υ} {sub : Subscriber}
    (h : l.subscriber_ = some sub) (r : CommonEvent_ErrCode) :
    (l.reset r).1.subscriber_ = some (sub.ohUnSubscribe r).2 := by
  simp only [reset, h]
  split <;> rfl

end USBEventListener

end OhosWrapper.Usb
