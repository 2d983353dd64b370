import Mathlib.Data.List.Induction
import OhosWrapper.Usb.Listener

/-!
# Subscriptions over the life of a listener

`start` returns early when `subscriber_` is set, and nothing ever clears `subscriber_`; the flag
`subscribed_` is written and never read. So a listener makes one attempt to subscribe in its
life, and every `reset` after it, the one in the destructor included, unsubscribes again.

**Lifecycle (`lifecycle_iff`).** When every C call succeeds, `subscribed_` always tells whether
the subscription is active, and a `reset` always ends it. Every `start` leaves an active
subscription exactly when no `start` follows a `reset` that follows a `start`.

**Pairing (`paired_iff`).** Unsubscriptions happen only while subscribed, and exactly once for
each successful subscription, exactly when the first `start`, if there is one, subscribes, and no
`reset` comes after it.
-/

namespace OhosWrapper.Usb

open Commev Commev.CommonEvent_ErrCode

open scoped List

/-- The last elements of two lists compared, for the sublist order. -/
theorem concat_sublist_concat_iff {α : Type*} {l l' : List α} {a b : α} :
    l ++ [a] <+ l' ++ [b] ↔ l ++ [a] <+ l' ∨ (a = b ∧ l <+ l') := by
  have hrev : l <+ l' ↔ l.reverse <+ l'.reverse := List.reverse_sublist.symm
  have hrev' : l ++ [a] <+ l' ↔ (l ++ [a]).reverse <+ l'.reverse := List.reverse_sublist.symm
  rw [hrev, hrev', ← List.reverse_sublist]
  simp only [List.reverse_append, List.reverse_cons, List.reverse_nil, List.nil_append,
    List.singleton_append]
  exact List.cons_sublist_cons'

namespace USBEventListener

variable {κ υ : Type*} (names : EventNames)

/-! ## Lifecycle -/

/-- Every C call made by `start` and `reset` succeeds. -/
def AllSucceed (ops : List (Op κ υ)) : Prop :=
  (∀ r, .start r ∈ ops → r = ⟨true, true, COMMONEVENT_ERR_OK⟩) ∧
  ∀ r, .reset r ∈ ops → r = COMMONEVENT_ERR_OK

/-- After each `start` the subscription is active, after each `reset` it is not, and
`subscribed_` is its state throughout. -/
structure LifecycleLaw (ops : List (Op κ υ)) : Prop where
  start : ∀ pre r post, ops = pre ++ .start r :: post →
    ((machine names).state new (pre ++ [.start r])).active = true
  reset : ∀ pre r post, ops = pre ++ .reset r :: post →
    ((machine names).state new (pre ++ [.reset r])).active = false
  subscribed : ∀ pre post, ops = pre ++ post →
    ((machine names).state new pre).subscribed_ = ((machine names).state new pre).active

/-- A `start` has been called. -/
def Started (ops : List (Op κ υ)) : Prop := ∃ r, .start r ∈ ops

/-- A `reset` has been called after a `start`. -/
def Stopped (ops : List (Op κ υ)) : Prop := ∃ r₁ r₂, [.start r₁, .reset r₂] <+ ops

theorem started_concat {ops : List (Op κ υ)} {op : Op κ υ} :
    Started (ops ++ [op]) ↔ Started ops ∨ ∃ r, op = .start r := by
  simp only [Started, List.mem_append, List.mem_singleton, exists_or, eq_comm]

theorem stopped_concat {ops : List (Op κ υ)} {op : Op κ υ} :
    Stopped (ops ++ [op]) ↔ Stopped ops ∨ (Started ops ∧ ∃ r, op = .reset r) := by
  have hcut (r₁ r₂) : [.start r₁, .reset r₂] <+ ops ++ [op] ↔
      [.start r₁, .reset r₂] <+ ops ∨ (.reset r₂ = op ∧ .start r₁ ∈ ops) := by
    rw [← List.singleton_sublist]
    exact concat_sublist_concat_iff (l := [Op.start r₁])
  simp only [Stopped, Started, hcut, exists_or]
  refine or_congr_right ⟨?_, ?_⟩
  · intro h
    obtain ⟨r₁, r₂, rfl, h⟩ := h
    exact ⟨⟨r₁, h⟩, r₂, rfl⟩
  · intro h
    obtain ⟨⟨r₁, h⟩, r₂, rfl⟩ := h
    exact ⟨r₁, r₂, rfl, h⟩

/-- The phases of a listener: no subscriber yet, subscribed, or unsubscribed for good. -/
inductive Phase (l : USBEventListener κ υ) : List (Op κ υ) → Prop
  | idle {ops : List (Op κ υ)} : ¬ Started ops → ¬ Stopped ops → l.subscriber_ = none →
      l.subscribed_ = false → Phase l ops
  | running {ops : List (Op κ υ)} (events : List String) : Started ops → ¬ Stopped ops →
      l.subscriber_ = some ⟨some ⟨events, true⟩⟩ → l.subscribed_ = true → Phase l ops
  | stopped {ops : List (Op κ υ)} (events : List String) : Started ops → Stopped ops →
      l.subscriber_ = some ⟨some ⟨events, false⟩⟩ → l.subscribed_ = false → Phase l ops

/-- What a listener's phase says about its subscription. -/
theorem Phase.active_iff {l : USBEventListener κ υ} {ops : List (Op κ υ)} (h : Phase l ops) :
    l.active = true ↔ Started ops ∧ ¬ Stopped ops := by
  cases h with
  | idle hs _ hsub _ => simp [active, hsub, hs]
  | running events hs hst hsub _ => simp [active, Subscriber.active, hsub, hs, hst]
  | stopped events hs hst hsub _ => simp [active, Subscriber.active, hsub, hst]

theorem Phase.subscribed_eq {l : USBEventListener κ υ} {ops : List (Op κ υ)} (h : Phase l ops) :
    l.subscribed_ = l.active := by
  cases h with
  | idle _ _ hsub hflag => simp [active, hsub, hflag]
  | running events _ _ hsub hflag => simp [active, Subscriber.active, hsub, hflag]
  | stopped events _ _ hsub hflag => simp [active, Subscriber.active, hsub, hflag]

/-- An operation other than `start` and `reset` keeps the phase. -/
theorem Phase.frame {l l' : USBEventListener κ υ} {ops : List (Op κ υ)} {op : Op κ υ}
    (h : Phase l ops) (hstart : ¬ ∃ r, op = .start r) (hreset : ¬ ∃ r, op = .reset r)
    (hsub : l'.subscriber_ = l.subscriber_) (hflag : l'.subscribed_ = l.subscribed_) :
    Phase l' (ops ++ [op]) := by
  have hs : Started (ops ++ [op]) ↔ Started ops := by rw [started_concat]; tauto
  have hst : Stopped (ops ++ [op]) ↔ Stopped ops := by rw [stopped_concat]; tauto
  cases h with
  | idle h₁ h₂ h₃ h₄ =>
    exact .idle (mt hs.1 h₁) (mt hst.1 h₂) (hsub.trans h₃) (hflag.trans h₄)
  | running events h₁ h₂ h₃ h₄ =>
    exact .running events (hs.2 h₁) (mt hst.1 h₂) (hsub.trans h₃) (hflag.trans h₄)
  | stopped events h₁ h₂ h₃ h₄ =>
    exact .stopped events (hs.2 h₁) (hst.2 h₂) (hsub.trans h₃) (hflag.trans h₄)

/-- A successful `start` subscribes an idle listener and does nothing to any other. -/
theorem Phase.start {l : USBEventListener κ υ} {ops : List (Op κ υ)} (h : Phase l ops) :
    Phase (l.start names ⟨true, true, COMMONEVENT_ERR_OK⟩).1
      (ops ++ [.start ⟨true, true, COMMONEVENT_ERR_OK⟩]) := by
  have hs : Started (ops ++ [.start ⟨true, true, COMMONEVENT_ERR_OK⟩]) :=
    started_concat.2 (Or.inr ⟨_, rfl⟩)
  have hst : Stopped (ops ++ [.start ⟨true, true, COMMONEVENT_ERR_OK⟩]) ↔ Stopped ops := by
    rw [stopped_concat]
    simp
  cases h with
  | idle h₁ h₂ h₃ h₄ =>
    refine .running (l.eventList names) hs (mt hst.1 h₂) ?_ ?_
    · rw [start_subscriber names h₃]
      rfl
    · simp [USBEventListener.start, h₃, SubscribeInfo.new, Subscriber.new, Subscriber.ohSubscribe,
        commonCheckError]
  | running events h₁ h₂ h₃ h₄ =>
    rw [start_of_some names h₃]
    exact .running events hs (mt hst.1 h₂) h₃ h₄
  | stopped events h₁ h₂ h₃ h₄ =>
    rw [start_of_some names h₃]
    exact .stopped events hs (hst.2 h₂) h₃ h₄

/-- A successful `reset` stops a listener that was started, now or earlier. -/
theorem Phase.reset {l : USBEventListener κ υ} {ops : List (Op κ υ)} (h : Phase l ops) :
    Phase (l.reset COMMONEVENT_ERR_OK).1 (ops ++ [.reset COMMONEVENT_ERR_OK]) := by
  have hs : Started (ops ++ [.reset COMMONEVENT_ERR_OK]) ↔ Started ops := by
    rw [started_concat]
    simp
  have hst : Stopped (ops ++ [.reset COMMONEVENT_ERR_OK]) ↔ Stopped ops ∨ Started ops := by
    rw [stopped_concat]
    simp
  cases h with
  | idle h₁ h₂ h₃ h₄ =>
    rw [reset_of_none h₃]
    exact .idle (mt hs.1 h₁) (by tauto) h₃ h₄
  | running events h₁ h₂ h₃ h₄ =>
    refine .stopped events (hs.2 h₁) (by tauto) ?_ ?_
    · rw [reset_subscriber h₃]
      rfl
    · simp [USBEventListener.reset, h₃, Subscriber.ohUnSubscribe, commonCheckError]
  | stopped events h₁ h₂ h₃ h₄ =>
    refine .stopped events (hs.2 h₁) (by tauto) ?_ ?_
    · rw [reset_subscriber h₃]
      rfl
    · simp [USBEventListener.reset, h₃, Subscriber.ohUnSubscribe, commonCheckError]

theorem AllSucceed.of_append {pre post : List (Op κ υ)} (h : AllSucceed (pre ++ post)) :
    AllSucceed pre :=
  ⟨fun r hr => h.1 r (List.mem_append_left _ hr), fun r hr => h.2 r (List.mem_append_left _ hr)⟩

/-- The phase of a listener after a run in which every C call succeeds. -/
theorem phase_state {ops : List (Op κ υ)} (h : AllSucceed ops) :
    Phase ((machine names).state new ops) ops := by
  induction ops using List.reverseRecOn with
  | nil => exact .idle (by simp [Started]) (by simp [Stopped]) rfl rfl
  | append_singleton ops op ih =>
    have hphase := ih h.of_append
    obtain ⟨hstart, hreset⟩ := h
    rw [Transducer.state_concat]
    cases op with
    | start r =>
      obtain rfl := hstart r (by simp)
      exact hphase.start names
    | reset r =>
      obtain rfl := hreset r (by simp)
      exact hphase.reset
    | onAttach cb userData | onDetach cb userData | deliver data =>
      exact hphase.frame (by simp) (by simp) rfl rfl

/-- **Lifecycle.** With every C call succeeding, the law holds of a run exactly when no `start`
follows a `reset` that follows a `start`. -/
theorem lifecycle_iff {ops : List (Op κ υ)} (h : AllSucceed ops) :
    LifecycleLaw names ops ↔ ∀ r₁ r₂ r₃, ¬ [.start r₁, .reset r₂, .start r₃] <+ ops := by
  have hphase : ∀ pre post, ops = pre ++ post → Phase ((machine names).state new pre) pre := by
    intro pre post hops
    subst hops
    exact phase_state names h.of_append
  have hcut : ∀ {pre post : List (Op κ υ)} {op : Op κ υ}, ops = pre ++ op :: post →
      ops = (pre ++ [op]) ++ post := fun hops => by simpa using hops
  refine ⟨?_, ?_⟩
  · intro hlaw r₁ r₂ r₃ hsub
    -- The last `start` of the three leaves the listener stopped.
    obtain ⟨l₁, l₂, rfl, h₁, h₂⟩ := List.append_sublist_iff.1
      (show [.start r₁, .reset r₂] ++ [.start r₃] <+ ops from hsub)
    obtain ⟨pre, post, rfl⟩ := List.append_of_mem (List.singleton_sublist.1 h₂)
    have hops : l₁ ++ (pre ++ .start r₃ :: post) = (l₁ ++ pre) ++ .start r₃ :: post := by simp
    have hactive := hlaw.start _ _ _ hops
    rw [(hphase _ _ (hcut hops)).active_iff] at hactive
    refine hactive.2 ⟨r₁, r₂, h₁.trans ?_⟩
    rw [List.append_assoc]
    exact List.sublist_append_left _ _
  · intro hno
    refine ⟨fun pre r post hops => ?_, fun pre r post hops => ?_, fun pre post hops => ?_⟩
    · rw [(hphase _ _ (hcut hops)).active_iff, started_concat, stopped_concat]
      refine ⟨Or.inr ⟨r, rfl⟩, ?_⟩
      rintro (⟨r₁, r₂, hst⟩ | ⟨-, r', hr'⟩)
      · refine hno r₁ r₂ r ?_
        rw [hops]
        exact hst.append ((List.singleton_sublist.2 List.mem_cons_self))
      · cases hr'
    · rw [← Bool.not_eq_true, (hphase _ _ (hcut hops)).active_iff, started_concat, stopped_concat]
      rintro ⟨hs | ⟨r', hr'⟩, hst⟩
      · exact hst (Or.inr ⟨hs, r, rfl⟩)
      · cases hr'
    · exact (hphase pre post hops).subscribed_eq

/-- A callback, a `start`, a second `start` and two `reset`s. -/
theorem lifecycle_start_start_reset_reset :
    LifecycleLaw (κ := ℕ) (υ := Unit) ⟨"attached", "detached", by decide⟩
      [.onAttach 0 (), .start ⟨true, true, COMMONEVENT_ERR_OK⟩,
        .start ⟨true, true, COMMONEVENT_ERR_OK⟩, .reset COMMONEVENT_ERR_OK,
        .reset COMMONEVENT_ERR_OK] := by
  refine (lifecycle_iff _ ⟨by simp, by simp⟩).2 ?_
  intro r₁ r₂ r₃ h
  simp [List.cons_sublist_cons'] at h

/-- A `start` after a `reset` does not subscribe again. -/
theorem not_lifecycle_restart :
    ¬ ∀ (names : EventNames) (ops : List (Op ℕ Unit)), AllSucceed ops →
      LifecycleLaw names ops := by
  intro h
  have hlaw := h ⟨"attached", "detached", by decide⟩
    [.start ⟨true, true, COMMONEVENT_ERR_OK⟩, .reset COMMONEVENT_ERR_OK,
      .start ⟨true, true, COMMONEVENT_ERR_OK⟩] ⟨by simp, by simp⟩
  exact absurd (hlaw.start [.start _, .reset _] _ [] rfl) (by decide)

/-! ## Pairing -/

/-- A C call on the subscriber. -/
inductive SubscriberCall
  | subscribe (result : CommonEvent_ErrCode)
  | unSubscribe (result : CommonEvent_ErrCode)
  | destroy
  deriving DecidableEq, Repr

/-- The C calls on the subscriber among the effects. -/
def subscriberCalls : List (Effect κ υ) → List SubscriberCall
  | [] => []
  | .subscribe r :: es => .subscribe r :: subscriberCalls es
  | .unSubscribe r :: es => .unSubscribe r :: subscriberCalls es
  | .destroySubscriber :: es => .destroy :: subscriberCalls es
  | _ :: es => subscriberCalls es

/-- Whether the subscription is active after the calls. -/
def activeAfter : List SubscriberCall → Bool :=
  List.foldl (fun a call => match call with
    | .subscribe r => a || r == COMMONEVENT_ERR_OK
    | .unSubscribe r => a && r != COMMONEVENT_ERR_OK
    | .destroy => false) false

/-- Unsubscriptions happen only while subscribed, and a successful subscription is followed by
exactly one of them before the subscriber is destroyed. -/
structure Paired (calls : List SubscriberCall) : Prop where
  active : ∀ pre r post, calls = pre ++ .unSubscribe r :: post → activeAfter pre = true
  once : ∀ pre post, calls = pre ++ .subscribe COMMONEVENT_ERR_OK :: post →
    (post.takeWhile (· ≠ .destroy)).countP (· matches .unSubscribe _) = 1

/-- The C calls on the subscriber over the life of a listener: a run, then the destructor. -/
def lifeCalls (ops : List (Op κ υ)) (r : CommonEvent_ErrCode) : List SubscriberCall :=
  subscriberCalls ((machine names).output (new : USBEventListener κ υ) ops ++
    ((machine names).state new ops).destroy r)

/-- This `start` subscribes, if it is the first. -/
def Subscribes (r : StartResults) : Prop :=
  r.createSubscriber = true ∧ r.subscribe = COMMONEVENT_ERR_OK

theorem subscriberCalls_append (es fs : List (Effect κ υ)) :
    subscriberCalls (es ++ fs) = subscriberCalls es ++ subscriberCalls fs := by
  induction es with
  | nil => rfl
  | cons e es ih => cases e <;> simp [subscriberCalls, ih]

theorem subscriberCalls_OnEvent (l : USBEventListener κ υ) (data : RcvData) :
    subscriberCalls (l.OnEvent names data) = [] := by
  unfold OnEvent invoke
  split_ifs <;> first | rfl | (split <;> rfl)

/-- The one call on the subscriber a first `start` makes. -/
theorem subscriberCalls_start {l : USBEventListener κ υ} (h : l.subscriber_ = none)
    (r : StartResults) :
    ∃ c, subscriberCalls (l.start names r).2 = [.subscribe c] ∧
      (c = COMMONEVENT_ERR_OK ↔ Subscribes r) := by
  refine ⟨((Subscriber.new r.createSubscriber
    (SubscribeInfo.new r.createSubscribeInfo (l.eventList names))).ohSubscribe r.subscribe).1,
    ?_, ?_⟩
  · simp only [start, h, destroyInfo]
    split <;> split_ifs <;> rfl
  · obtain ⟨created, _ | _, code⟩ := r <;>
      simp [Subscriber.new, Subscriber.ohSubscribe, Subscribes]

/-- The one call on the subscriber a `reset` makes. -/
theorem subscriberCalls_reset {l : USBEventListener κ υ} {sub : Subscriber}
    (h : l.subscriber_ = some sub) (r : CommonEvent_ErrCode) :
    ∃ c, subscriberCalls (l.reset r).2 = [.unSubscribe c] := by
  refine ⟨(sub.ohUnSubscribe r).1, ?_⟩
  simp only [reset, h]
  split <;> rfl

/-- The destructor of a listener with a subscriber unsubscribes once, and then destroys it
unless the exception has ended the process. -/
theorem subscriberCalls_destroy {l : USBEventListener κ υ} {sub : Subscriber}
    (h : l.subscriber_ = some sub) (r : CommonEvent_ErrCode) :
    ∃ c tail, subscriberCalls (l.destroy r) = .unSubscribe c :: tail ∧
      (tail = [] ∨ tail = [.destroy]) := by
  obtain ⟨c, hc⟩ := subscriberCalls_reset h r
  unfold destroy
  dsimp only
  split_ifs
  · exact ⟨c, [], by rw [subscriberCalls_append, hc]; rfl, Or.inl rfl⟩
  · exact ⟨c, [.destroy], by rw [subscriberCalls_append, hc]; rfl, Or.inr rfl⟩
  · exact ⟨c, [], by rw [subscriberCalls_append, hc]; rfl, Or.inl rfl⟩

/-! ### The calls of a run -/

/-- Before the first `start` there is no subscriber, and no call on one. -/
theorem run_before_start {ops : List (Op κ υ)} (h : ∀ r, .start r ∉ ops) :
    ((machine names).state (new : USBEventListener κ υ) ops).subscriber_ = none ∧
      subscriberCalls ((machine names).output (new : USBEventListener κ υ) ops) = [] := by
  induction ops using List.reverseRecOn with
  | nil => exact ⟨rfl, rfl⟩
  | append_singleton ops op ih =>
    obtain ⟨hsub, hcalls⟩ := ih fun r hr => h r (List.mem_append_left _ hr)
    rw [Transducer.state_concat, Transducer.output_concat, subscriberCalls_append, hcalls]
    cases op with
    | start r => exact absurd (by simp) (h r)
    | reset r =>
      rw [step_reset, reset_of_none hsub]
      exact ⟨hsub, rfl⟩
    | deliver data => exact ⟨hsub, subscriberCalls_OnEvent names _ data⟩
    | onAttach cb userData | onDetach cb userData => exact ⟨hsub, rfl⟩

/-- Once there is a subscriber, it stays, and the calls on it are one unsubscription for each
`reset`. -/
theorem run_after_start {l : USBEventListener κ υ} {sub : Subscriber}
    (h : l.subscriber_ = some sub) (ops : List (Op κ υ)) :
    (∃ sub', ((machine names).state l ops).subscriber_ = some sub') ∧
      ∃ results : List CommonEvent_ErrCode,
        results.length = ops.countP (· matches .reset _) ∧
        subscriberCalls ((machine names).output l ops) =
          results.map SubscriberCall.unSubscribe := by
  induction ops generalizing l sub with
  | nil => exact ⟨⟨sub, h⟩, [], rfl, rfl⟩
  | cons op ops ih =>
    rw [Transducer.state_cons, Transducer.output_cons, subscriberCalls_append]
    cases op with
    | start r =>
      rw [step_start, start_of_some names h]
      exact ih h
    | reset r =>
      obtain ⟨c, hc⟩ := subscriberCalls_reset h r
      obtain ⟨hsub, results, hlen, hcalls⟩ := ih (reset_subscriber h r)
      refine ⟨hsub, c :: results, by simp [hlen], ?_⟩
      rw [step_reset, hc, hcalls]
      rfl
    | deliver data =>
      rw [step_deliver, subscriberCalls_OnEvent]
      exact ih h
    | onAttach cb userData | onDetach cb userData => exact ih h

/-- The calls over the life of a listener that is started: one subscription, one unsubscription
for each `reset` after it, and one in the destructor. -/
theorem lifeCalls_of_start {pre post : List (Op κ υ)} (h : ∀ r, .start r ∉ pre)
    (s : StartResults) (r : CommonEvent_ErrCode) :
    ∃ (c : CommonEvent_ErrCode) (results : List CommonEvent_ErrCode) (tail : List SubscriberCall),
      (c = COMMONEVENT_ERR_OK ↔ Subscribes s) ∧
      results.length = post.countP (· matches .reset _) + 1 ∧ (tail = [] ∨ tail = [.destroy]) ∧
      lifeCalls names (pre ++ .start s :: post) r =
        .subscribe c :: (results.map SubscriberCall.unSubscribe ++ tail) := by
  obtain ⟨hnone, hpre⟩ := run_before_start names h
  obtain ⟨c, hc, hok⟩ := subscriberCalls_start names hnone s
  obtain ⟨⟨sub, hsub⟩, results, hlen, hpost⟩ :=
    run_after_start names (start_subscriber names hnone s) post
  obtain ⟨c', tail, hdestroy, htail⟩ := subscriberCalls_destroy hsub r
  refine ⟨c, results ++ [c'], tail, hok, by simp [hlen], htail, ?_⟩
  rw [lifeCalls, subscriberCalls_append, Transducer.output_append, Transducer.state_append,
    Transducer.output_cons, Transducer.state_cons, subscriberCalls_append, hpre,
    subscriberCalls_append, step_start, hc, hdestroy, hpost]
  simp

theorem lifeCalls_of_no_start {ops : List (Op κ υ)} (h : ∀ r, .start r ∉ ops)
    (r : CommonEvent_ErrCode) : lifeCalls names ops r = [] := by
  obtain ⟨hnone, hcalls⟩ := run_before_start names h
  rw [lifeCalls, subscriberCalls_append, hcalls]
  simp [destroy, reset_of_none hnone, hnone, subscriberCalls]

/-- A subscription and `k` unsubscriptions are paired exactly when it succeeded and `k = 1`. -/
theorem paired_subscribe_iff (c : CommonEvent_ErrCode) (results : List CommonEvent_ErrCode)
    (hne : results ≠ []) {tail : List SubscriberCall} (htail : tail = [] ∨ tail = [.destroy]) :
    Paired (.subscribe c :: (results.map SubscriberCall.unSubscribe ++ tail)) ↔
      c = COMMONEVENT_ERR_OK ∧ results.length = 1 := by
  have htake : ((results.map SubscriberCall.unSubscribe ++ tail).takeWhile (· ≠ .destroy)) =
      results.map SubscriberCall.unSubscribe := by
    rw [List.takeWhile_append_of_pos (by simp)]
    rcases htail with rfl | rfl <;> simp
  have hcount : (results.map SubscriberCall.unSubscribe).countP (· matches .unSubscribe _) =
      results.length := by
    simp [List.countP_eq_length.2]
  refine ⟨?_, ?_⟩
  · intro h
    obtain ⟨hactive, honce⟩ := h
    obtain ⟨r, rs, rfl⟩ := List.exists_cons_of_ne_nil hne
    have hc : c = COMMONEVENT_ERR_OK := by
      have := hactive [.subscribe c] r (rs.map .unSubscribe ++ tail) rfl
      simpa [activeAfter] using this
    subst hc
    refine ⟨rfl, ?_⟩
    rw [← hcount, ← htake]
    exact honce [] _ rfl
  · intro h
    obtain ⟨rfl, hlen⟩ := h
    obtain ⟨r, rfl⟩ := List.length_eq_one_iff.1 hlen
    refine ⟨fun pre r' post h => ?_, fun pre post h => ?_⟩
    · match pre with
      | [] => simp at h
      | [call] =>
        simp only [List.map_cons, List.map_nil, List.cons_append, List.nil_append,
          List.cons.injEq] at h
        rw [← h.1]
        rfl
      | _ :: _ :: pre =>
        have hmem : SubscriberCall.unSubscribe r' ∈ tail := by
          simp only [List.map_cons, List.map_nil, List.cons_append, List.nil_append,
            List.cons.injEq] at h
          simp [h.2.2]
        rcases htail with rfl | rfl <;> simp at hmem
    · match pre with
      | [] =>
        simp only [List.nil_append, List.cons.injEq, true_and] at h
        rw [← h, htake, hcount]
        rfl
      | _ :: pre =>
        have hmem : SubscriberCall.subscribe COMMONEVENT_ERR_OK ∈
            [r].map SubscriberCall.unSubscribe ++ tail := by
          simp only [List.cons_append, List.cons.injEq] at h
          rw [h.2]
          simp
        rcases htail with rfl | rfl <;> simp at hmem

/-- **Pairing.** Over the life of a listener, subscriptions and unsubscriptions are paired
exactly when its first `start` subscribes and no `reset` comes after it. -/
theorem paired_iff (ops : List (Op κ υ)) (r : CommonEvent_ErrCode) :
    Paired (lifeCalls names ops r) ↔
      ∀ pre s post, ops = pre ++ .start s :: post → (∀ s', .start s' ∉ pre) →
        Subscribes s ∧ ∀ r', .reset r' ∉ post := by
  refine ⟨?_, ?_⟩
  · rintro hpaired pre s post rfl hpre
    obtain ⟨c, results, tail, hok, hlen, htail, hcalls⟩ := lifeCalls_of_start names hpre s r
    have hne : results ≠ [] := by rintro rfl; simp at hlen
    rw [hcalls, paired_subscribe_iff c results hne htail] at hpaired
    refine ⟨hok.1 hpaired.1, fun r' hr' => ?_⟩
    have hzero : post.countP (· matches .reset _) = 0 := by omega
    exact absurd rfl (List.countP_eq_zero.1 hzero _ hr')
  · intro h
    by_cases hstarted : ∃ op ∈ ops, (op matches .start _) = true
    · -- The run is cut at its first `start`.
      obtain ⟨op, hop⟩ := Option.isSome_iff_exists.1 (List.find?_isSome.2 hstarted)
      obtain ⟨hstart, pre, post, rfl, hpre⟩ := List.find?_eq_some_iff_append.1 hop
      match op, hstart with
      | .start s, _ =>
        have hno : ∀ s', .start s' ∉ pre := fun s' hs' => by simpa using hpre _ hs'
        obtain ⟨c, results, tail, hok, hlen, htail, hcalls⟩ := lifeCalls_of_start names hno s r
        obtain ⟨hs, hreset⟩ := h pre s post rfl hno
        have hne : results ≠ [] := by rintro rfl; simp at hlen
        have hzero : post.countP (· matches .reset _) = 0 := by
          refine List.countP_eq_zero.2 fun op hop => ?_
          cases op with
          | reset r' => exact absurd hop (hreset r')
          | _ => simp
        rw [hcalls, paired_subscribe_iff c results hne htail]
        exact ⟨hok.2 hs, by omega⟩
    · have hno : ∀ s, .start s ∉ ops := fun s hs => hstarted ⟨_, hs, rfl⟩
      rw [lifeCalls_of_no_start names hno]
      exact ⟨fun pre r' post h => by simp at h, fun pre post h => by simp at h⟩

/-- A failed subscription is unsubscribed by the destructor. -/
theorem not_paired_failed_start :
    ¬ ∀ (names : EventNames) (ops : List (Op ℕ Unit)) (r : CommonEvent_ErrCode),
      Paired (lifeCalls names ops r) := by
  intro h
  have := (h ⟨"attached", "detached", by decide⟩
    [.start ⟨true, true, COMMONEVENT_ERR_SENDING_REQUEST_FAILED⟩]
    COMMONEVENT_ERR_INVALID_PARAMETER).active
    [.subscribe COMMONEVENT_ERR_SENDING_REQUEST_FAILED] _ [] rfl
  exact absurd this (by decide)

end USBEventListener

end OhosWrapper.Usb
