import Mathlib.Data.List.Basic

/-!
# The CommonEvent wrappers used by a listener

`SubscribeInfo` and `Subscriber` wrap handles of the CommonEvent C interface. The object behind
a subscriber handle belongs to the service; what matters of it is the list of event names the
subscriber was created for and whether its subscription is active. A null handle is `none`.

The results of the C calls are chosen by the environment: every call that can fail takes its
result as an argument. A call on a null handle always fails.
-/

namespace OhosWrapper.Commev

inductive CommonEvent_ErrCode
  | COMMONEVENT_ERR_OK
  | COMMONEVENT_ERR_PERMISSION_ERROR
  | COMMONEVENT_ERR_INVALID_PARAMETER
  | COMMONEVENT_ERR_NOT_SYSTEM_SERVICE
  | COMMONEVENT_ERR_SENDING_REQUEST_FAILED
  | COMMONEVENT_ERR_INIT_UNDONE
  | COMMONEVENT_ERR_OBTAIN_SYSTEM_PARAMS
  | COMMONEVENT_ERR_SUBSCRIBER_NUM_EXCEEDED
  | COMMONEVENT_ERR_ALLOC_MEMORY_FAILED
  deriving DecidableEq, Repr

open CommonEvent_ErrCode

/-- A thrown `std::system_error`: its code, and the text the check macro gives it. -/
structure SystemError where
  code : CommonEvent_ErrCode
  what : String
  deriving DecidableEq, Repr

/-- `COMMON_CHECK_ERROR(exp, #exp)`: the exception thrown for the result of `exp`, if any. -/
def commonCheckError (code : CommonEvent_ErrCode) (exp : String) : Option SystemError :=
  if code ≠ COMMONEVENT_ERR_OK then some ⟨code, exp⟩ else none

/-- `CommonEvent_RcvData` through the accessors of `RcvData`. -/
structure RcvData where
  event : String
  code : Int32
  dataStr : String
  bundleName : String
  deriving DecidableEq, Repr

/-- The service's side of a subscriber. -/
structure CommonEvent_Subscriber where
  events : List String
  active : Bool
  deriving DecidableEq, Repr

/-- The wrapper of a subscribe-info handle: the event names it was created with. -/
structure SubscribeInfo where
  info_ : Option (List String)
  deriving DecidableEq, Repr

/-- The wrapper of a subscriber handle. -/
structure Subscriber where
  subscriber_ : Option CommonEvent_Subscriber
  deriving DecidableEq, Repr

/-- `SubscribeInfo(events, eventsNum)`; `created` tells whether the C call returned a handle. -/
def SubscribeInfo.new (created : Bool) (events : List String) : SubscribeInfo :=
  ⟨if created then some events else none⟩

namespace Subscriber

/-- `Subscriber(&info, callback)`. -/
def new (created : Bool) (info : SubscribeInfo) : Subscriber :=
  ⟨if created then some ⟨info.info_.getD [], false⟩ else none⟩

/-- `OH_CommonEvent_Subscribe`, which returns `result` unless the handle is null. -/
def ohSubscribe (s : Subscriber) (result : CommonEvent_ErrCode) :
    CommonEvent_ErrCode × Subscriber :=
  match s.subscriber_ with
  | none => (COMMONEVENT_ERR_INVALID_PARAMETER, s)
  | some c => (result, ⟨some { c with active := c.active || result == COMMONEVENT_ERR_OK }⟩)

/-- `OH_CommonEvent_UnSubscribe`, which returns `result` unless the handle is null. -/
def ohUnSubscribe (s : Subscriber) (result : CommonEvent_ErrCode) :
    CommonEvent_ErrCode × Subscriber :=
  match s.subscriber_ with
  | none => (COMMONEVENT_ERR_INVALID_PARAMETER, s)
  | some c => (result, ⟨some { c with active := c.active && result != COMMONEVENT_ERR_OK }⟩)

/-- The subscriber exists and its subscription is active. -/
def active (s : Subscriber) : Bool := s.subscriber_.any (·.active)

end Subscriber

end OhosWrapper.Commev
