import OhosWrapper.Usb.Dispatch
import OhosWrapper.Usb.Lifecycle

/-!
# Failed starts and late registrations

`start` sets `subscriber_` before the call that can throw, and returns early if `subscriber_` is
set. And it collects the events to subscribe to from the callbacks registered so far, while
`OnEvent` looks for the callbacks at each delivery.

**Failed starts (`start_not_atomic`).** A `start` that throws leaves `subscriber_` set. It is the
last one that tried to subscribe, and the listener is never subscribed.

**Late registrations (`subscribed_iff`).** When every C call succeeds, an active subscription has
the events of all registered callbacks exactly when no callback is registered for the first time
while the subscription is active.
-/

namespace OhosWrapper.Usb

open Commev Commev.CommonEvent_ErrCode

namespace USBEventListener

variable {κ υ : Type*} (names : EventNames)

/-! ## Failed starts -/

/-- An exception left the operation. -/
def Throws (effects : List (Effect κ υ)) : Prop := ∃ e, .throw e ∈ effects

/-- A subscription whose result does not pass the check is not active. -/
theorem ohSubscribe_inactive {sub : Subscriber} (hsub : sub.active = false)
    {result : CommonEvent_ErrCode} {exp : String} {e : SystemError}
    (h : commonCheckError (sub.ohSubscribe result).1 exp = some e) :
    (sub.ohSubscribe result).2.active = false := by
  obtain ⟨_ | c⟩ := sub
  · rfl
  · by_cases hresult : result = COMMONEVENT_ERR_OK
    · simp [Subscriber.ohSubscribe, commonCheckError, hresult] at h
    · simpa [Subscriber.ohSubscribe, Subscriber.active, hresult] using hsub

/-- What a `start` that throws does: it sets `subscriber_`, and nothing else. -/
theorem start_of_throws {l : USBEventListener κ υ} {r : StartResults}
    (h : Throws (l.start names r).2) :
    l.subscriber_ = none ∧
      ∃ sub, sub.active = false ∧ (l.start names r).1 = { l with subscriber_ := some sub } := by
  cases hl : l.subscriber_ with
  | some sub =>
    obtain ⟨e, he⟩ := h
    rw [start_of_some names hl] at he
    cases he
  | none =>
    refine ⟨rfl, ?_⟩
    simp only [start, hl, destroyInfo] at h ⊢
    split at h
    · obtain ⟨e, he⟩ := h
      split_ifs at he <;> simp at he
    · rename_i hcheck
      refine ⟨_, ohSubscribe_inactive ?_ hcheck, rfl⟩
      obtain ⟨created, _ | _, code⟩ := r <;> rfl

theorem subscribe_mem_subscriberCalls {es : List (Effect κ υ)} {c : CommonEvent_ErrCode}
    (h : .subscribe c ∈ es) : .subscribe c ∈ subscriberCalls es := by
  obtain ⟨pre, post, rfl⟩ := List.append_of_mem h
  rw [subscriberCalls_append]
  exact List.mem_append_right _ List.mem_cons_self

/-- A listener with an inactive subscription stays as it is: no `start` subscribes again. -/
theorem run_of_inactive {l : USBEventListener κ υ} {sub : Subscriber}
    (h : l.subscriber_ = some sub) (hsub : sub.active = false) (ops : List (Op κ υ)) :
    ((machine names).state l ops).active = false := by
  induction ops generalizing l sub with
  | nil => simp [active, h, hsub]
  | cons op ops ih =>
    rw [Transducer.state_cons]
    cases op with
    | start r =>
      rw [step_start, start_of_some names h]
      exact ih h hsub
    | reset r =>
      refine ih (reset_subscriber h r) ?_
      obtain ⟨_ | c⟩ := sub
      · rfl
      · have hc : c.active = false := hsub
        simp [Subscriber.ohUnSubscribe, Subscriber.active, hc]
    | onAttach cb userData | onDetach cb userData | deliver data => exact ih h hsub

/-- **Failed starts.** In every reachable state, a `start` that throws leaves another state behind
than it found. No later `start` tries to subscribe, and the listener is never subscribed. -/
theorem start_not_atomic {ops : List (Op κ υ)} {r : StartResults}
    (h : Throws (((machine names).state new ops).start names r).2) :
    (machine names).state new (ops ++ [.start r]) ≠ (machine names).state new ops ∧
      ∀ post, ((machine names).state new (ops ++ .start r :: post)).active = false ∧
        ∀ c, .subscribe c ∉ (machine names).output
          ((machine names).state new (ops ++ [.start r])) post := by
  obtain ⟨hnone, sub, hsub, hstart⟩ := start_of_throws names h
  have hstate : (machine names).state new (ops ++ [.start r]) =
      { (machine names).state new ops with subscriber_ := some sub } := by
    rw [Transducer.state_concat, step_start, hstart]
  rw [hstate]
  refine ⟨?_, fun post => ⟨?_, fun c hc => ?_⟩⟩
  · intro heq
    rw [← heq] at hnone
    cases hnone
  · rw [← List.singleton_append, ← List.append_assoc, Transducer.state_append, hstate]
    exact run_of_inactive names rfl hsub post
  · obtain ⟨-, results, -, hcalls⟩ := run_after_start names
      (l := { (machine names).state new ops with subscriber_ := some sub }) rfl post
    have hmem := subscribe_mem_subscriberCalls hc
    rw [hcalls] at hmem
    simp at hmem

/-- A failed `start`, after which a `start` that would succeed does nothing. -/
theorem start_not_atomic_retry : ((machine (κ := ℕ) (υ := Unit) ⟨"attached", "detached",
    by decide⟩).state new ([.onAttach 0 ()] ++
      [.start ⟨true, true, COMMONEVENT_ERR_SENDING_REQUEST_FAILED⟩,
        .start ⟨true, true, COMMONEVENT_ERR_OK⟩])).active = false :=
  ((start_not_atomic _ ⟨⟨COMMONEVENT_ERR_SENDING_REQUEST_FAILED,
    "OH_CommonEvent_Subscribe(subscriber_)"⟩, by decide⟩).2 _).1

/-- The `start` of a fresh listener fails. -/
theorem not_start_atomic : ¬ ∀ (names : EventNames) (ops : List (Op ℕ Unit)) (r : StartResults),
    Throws (((machine names).state new ops).start names r).2 →
      (machine names).state new (ops ++ [.start r]) = (machine names).state new ops := by
  intro h
  have hsame := h ⟨"attached", "detached", by decide⟩ []
    ⟨true, true, COMMONEVENT_ERR_SENDING_REQUEST_FAILED⟩
    ⟨⟨COMMONEVENT_ERR_SENDING_REQUEST_FAILED, "OH_CommonEvent_Subscribe(subscriber_)"⟩, by decide⟩
  exact absurd hsame (by decide)

/-! ## Registered callbacks -/

/-- The operation registers a callback for the event `e`. -/
def Registers (e : String) : Op κ υ → Prop
  | .onAttach _ _ => e = names.attached
  | .onDetach _ _ => e = names.detached
  | _ => False

/-- A callback was registered for the event. -/
def Registered (e : String) (ops : List (Op κ υ)) : Prop := ∃ op ∈ ops, Registers names e op

/-- Whenever the subscription is active, it has the events of all callbacks registered so far. -/
def EventsSubscribed (ops : List (Op κ υ)) : Prop :=
  ∀ pre post sub, ops = pre ++ post →
    ((machine names).state new pre).subscriber_ = some ⟨some sub⟩ → sub.active = true →
    ∀ e, Registered names e pre → e ∈ sub.events

theorem registered_concat {e : String} {ops : List (Op κ υ)} {op : Op κ υ} :
    Registered names e (ops ++ [op]) ↔ Registered names e ops ∨ Registers names e op := by
  simp [Registered, or_and_right, exists_or]

theorem isSome_lastRegistered {e : String} {ops : List (Op κ υ)} :
    (lastRegistered names e ops).isSome ↔ Registered names e ops := by
  induction ops using List.reverseRecOn with
  | nil => simp [lastRegistered, Registered]
  | append_singleton ops op ih =>
    rw [registered_concat, lastRegistered_concat, ← ih]
    cases op with
    | onAttach cb userData | onDetach cb userData =>
      dsimp only [Registers]
      split_ifs with he <;> simp [he]
    | start r | reset r | deliver data => simp [Registers]

/-- `start` collects the events of the registered callbacks. -/
theorem mem_eventList_iff {e : String} {ops : List (Op κ υ)} :
    e ∈ ((machine names).state new ops).eventList names ↔ Registered names e ops := by
  rw [← isSome_lastRegistered, ← callbackOf_state]
  refine ⟨isSome_callbackOf_of_mem_eventList names, ?_⟩
  intro h
  unfold callbackOf at h
  unfold eventList
  rw [List.mem_append]
  split_ifs at h with hatt hdet
  · exact Or.inl (by rw [if_pos h, hatt]; exact List.mem_singleton.2 rfl)
  · exact Or.inr (by rw [if_pos h, hdet]; exact List.mem_singleton.2 rfl)
  · cases h

/-- A new subscriber has no events but those it was made with. -/
theorem mem_of_ohSubscribe {created created' : Bool} {events : List String}
    {result : CommonEvent_ErrCode} {sub : CommonEvent_Subscriber} {e : String}
    (h : ((Subscriber.new created' (SubscribeInfo.new created events)).ohSubscribe result).2 =
      ⟨some sub⟩) (he : e ∈ sub.events) : e ∈ events := by
  cases created' with
  | false => cases h
  | true =>
    cases h
    cases created with
    | false => cases he
    | true => exact he

/-- Unsubscribing keeps the events. -/
theorem events_ohUnSubscribe {sub : Subscriber} {result : CommonEvent_ErrCode}
    {c : CommonEvent_Subscriber} (h : (sub.ohUnSubscribe result).2 = ⟨some c⟩) :
    ∃ c', sub = ⟨some c'⟩ ∧ c'.events = c.events := by
  obtain ⟨_ | c'⟩ := sub
  · cases h
  · cases h
    exact ⟨c', rfl, rfl⟩

/-- Only events with a callback are ever subscribed to. -/
theorem registered_of_mem_events {ops : List (Op κ υ)} {sub : CommonEvent_Subscriber}
    (h : ((machine names).state new ops).subscriber_ = some ⟨some sub⟩) {e : String}
    (he : e ∈ sub.events) : Registered names e ops := by
  induction ops using List.reverseRecOn generalizing sub with
  | nil => cases h
  | append_singleton ops op ih =>
    rw [registered_concat]
    rw [Transducer.state_concat] at h
    cases op with
    | start r =>
      cases hsub : ((machine names).state (new : USBEventListener κ υ) ops).subscriber_ with
      | some sub' =>
        rw [step_start, start_of_some names hsub] at h
        exact Or.inl (ih h he)
      | none =>
        rw [step_start, start_subscriber names hsub] at h
        exact Or.inl ((mem_eventList_iff names).1 (mem_of_ohSubscribe (Option.some.inj h) he))
    | reset r =>
      cases hsub : ((machine names).state (new : USBEventListener κ υ) ops).subscriber_ with
      | none =>
        rw [step_reset, reset_of_none hsub, hsub] at h
        cases h
      | some sub' =>
        rw [step_reset, reset_subscriber hsub] at h
        obtain ⟨c, rfl, hc⟩ := events_ohUnSubscribe (Option.some.inj h)
        exact Or.inl (ih hsub (hc ▸ he))
    | onAttach cb userData | onDetach cb userData | deliver data => exact Or.inl (ih h he)

/-- No callback is registered for the first time after the first `start` and before a `reset` that
follows it. -/
def RegisteredInTime (ops : List (Op κ υ)) : Prop :=
  ∀ pre op post e, ops = pre ++ op :: post → Registers names e op →
    Started pre → ¬ Stopped pre → Registered names e pre

theorem RegisteredInTime.of_append {pre post : List (Op κ υ)}
    (h : RegisteredInTime names (pre ++ post)) : RegisteredInTime names pre := by
  intro pre' op post' e hpre
  refine h pre' op (post' ++ post) e ?_
  rw [hpre, List.append_assoc, List.cons_append]

/-- An active subscription has the events of the callbacks that were registered in time. -/
theorem mem_events_of_registered {ops : List (Op κ υ)} (h : AllSucceed ops)
    (hin : RegisteredInTime names ops) {sub : CommonEvent_Subscriber}
    (hsub : ((machine names).state new ops).subscriber_ = some ⟨some sub⟩)
    (hactive : sub.active = true) {e : String} (he : Registered names e ops) :
    e ∈ sub.events := by
  induction ops using List.reverseRecOn generalizing sub with
  | nil => cases hsub
  | append_singleton ops op ih =>
    have hprefix : ∀ {sub}, ((machine names).state new ops).subscriber_ = some ⟨some sub⟩ →
        sub.active = true → Registered names e ops → e ∈ sub.events :=
      fun hsub hactive he => ih h.of_append hin.of_append hsub hactive he
    have hphase := phase_state names h.of_append
    rw [registered_concat] at he
    rw [Transducer.state_concat] at hsub
    cases op with
    | start r =>
      obtain rfl := h.1 r (by simp)
      rw [step_start] at hsub
      cases hphase with
      | idle _ _ hnone _ =>
        rw [start_subscriber names hnone] at hsub
        cases hsub
        exact (mem_eventList_iff names).2 (he.resolve_right id)
      | running events _ _ hsome _ | stopped events _ _ hsome _ =>
        rw [start_of_some names hsome] at hsub
        exact hprefix hsub hactive (he.resolve_right id)
    | reset r =>
      obtain rfl := h.2 r (by simp)
      rw [step_reset] at hsub
      cases hphase with
      | idle _ _ hnone _ =>
        rw [reset_of_none hnone, hnone] at hsub
        cases hsub
      | running events _ _ hsome _ | stopped events _ _ hsome _ =>
        rw [reset_subscriber hsome] at hsub
        cases hsub
        cases hactive
    | deliver data => exact hprefix hsub hactive (he.resolve_right id)
    | onAttach cb userData | onDetach cb userData =>
      -- A callback registered while the subscription is active replaces another one.
      have hrunning : ((machine names).state new ops).active = true := by
        rw [active, show ((machine names).state new ops).subscriber_ = _ from hsub]
        exact hactive
      obtain ⟨hstarted, hstopped⟩ := hphase.active_iff.1 hrunning
      rcases he with he | hop
      · exact hprefix hsub hactive he
      · exact hprefix hsub hactive (hin ops _ [] e rfl hop hstarted hstopped)

/-- **Late registrations.** With every C call succeeding, an active subscription always has the
events of all registered callbacks exactly when `onAttach` and `onDetach`, if they are called after
the first `start` and before the first `reset` after it, replace a callback registered before. -/
theorem subscribed_iff {ops : List (Op κ υ)} (h : AllSucceed ops) :
    EventsSubscribed names ops ↔ RegisteredInTime names ops := by
  refine ⟨?_, ?_⟩
  · intro hlaw pre op post e hops hop hstarted hstopped
    subst hops
    have hops : pre ++ op :: post = (pre ++ [op]) ++ post := by simp
    cases phase_state names h.of_append with
    | idle hnot _ _ _ => exact absurd hstarted hnot
    | stopped events _ hst _ _ => exact absurd hst hstopped
    | running events _ _ hsub _ =>
      have hsub' : ((machine names).state new (pre ++ [op])).subscriber_ =
          some ⟨some ⟨events, true⟩⟩ := by
        rw [Transducer.state_concat]
        cases op with
        | onAttach cb userData | onDetach cb userData => exact hsub
        | start r | reset r | deliver data => exact hop.elim
      have he := hlaw (pre ++ [op]) post ⟨events, true⟩ hops hsub' rfl e
        ((registered_concat names).2 (Or.inr hop))
      exact registered_of_mem_events names hsub he
  · intro hin pre post sub hops hsub hactive e he
    subst hops
    exact mem_events_of_registered names h.of_append hin.of_append hsub hactive he

/-- A callback registered before `start` and replaced after it. -/
theorem subscribed_replaced :
    EventsSubscribed (κ := ℕ) (υ := Unit) ⟨"attached", "detached", by decide⟩
      [.onAttach 1 (), .start ⟨true, true, COMMONEVENT_ERR_OK⟩, .onAttach 2 ()] := by
  refine (subscribed_iff _ ⟨by simp, by simp⟩).2 ?_
  intro pre op post e hops hop hstarted hstopped
  match pre with
  | [] => simp [Started] at hstarted
  | [_] =>
    obtain ⟨rfl, -⟩ := List.cons_eq_cons.1 hops
    simp [Started] at hstarted
  | [_, _] =>
    simp only [List.cons_append, List.nil_append, List.cons.injEq] at hops
    obtain ⟨rfl, rfl, rfl, -⟩ := hops
    exact ⟨.onAttach 1 (), List.mem_cons_self, hop⟩
  | _ :: _ :: _ :: pre => simp at hops

/-- A callback registered for the first time after `start`. -/
theorem not_subscribed_late :
    ¬ ∀ (names : EventNames) (ops : List (Op ℕ Unit)), AllSucceed ops →
      EventsSubscribed names ops := by
  intro h
  have hlate := h ⟨"attached", "detached", by decide⟩
    [.onAttach 0 (), .start ⟨true, true, COMMONEVENT_ERR_OK⟩, .onDetach 1 ()]
    ⟨by simp, by simp⟩ _ [] ⟨["attached"], true⟩ (List.append_nil _).symm rfl rfl "detached"
    ⟨.onDetach 1 (), by simp, rfl⟩
  exact absurd hlate (by decide)

end USBEventListener

end OhosWrapper.Usb
