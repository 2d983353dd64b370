import Mathlib.Data.List.Induction
import OhosWrapper.Usb.Listener

/-!
# Dispatch of hot-plug events

`OnEvent` dereferences the callback of its event without looking whether there is one. That is
safe because of an invariant no member states: `start` collects the names of the events that
have a callback, `subscriber_` is made from that list once, and no operation ever clears a
callback. So an event on the list has a callback for good, and `OnEvent` reads it at delivery.

**Theorem (`dispatch`).** If the system delivers only events on the list passed to the
subscription, every delivery invokes one callback, the one registered last for its event, with
the user data registered with it.
-/

namespace OhosWrapper.Usb

open Commev Commev.CommonEvent_ErrCode

namespace USBEventListener

variable {κ υ : Type*} (names : EventNames)

/-- The callback registered last for the event `e`. -/
def lastRegistered (e : String) : List (Op κ υ) → Option (Notifyer κ υ) :=
  List.foldl (fun last op => match op with
    | .onAttach cb userData => if e = names.attached then some ⟨cb, userData⟩ else last
    | .onDetach cb userData => if e = names.detached then some ⟨cb, userData⟩ else last
    | _ => last) none

/-- The system delivers only events on a list that `start` passed to the subscribe info. -/
def SystemDelivers (ops : List (Op κ υ)) : Prop :=
  ∀ pre data post, ops = pre ++ .deliver data :: post →
    ∃ events, Effect.createSubscribeInfo events ∈
        (machine names).output (new : USBEventListener κ υ) pre ∧ data.event ∈ events

/-- The optional `OnEvent` dereferences for the event `e`. -/
def callbackOf (l : USBEventListener κ υ) (e : String) : Option (Notifyer κ υ) :=
  if e = names.attached then l.onAttach_ else if e = names.detached then l.onDetach_ else none

/-! ## The registrations -/

theorem lastRegistered_concat (e : String) (ops : List (Op κ υ)) (op : Op κ υ) :
    lastRegistered names e (ops ++ [op]) = match op with
      | .onAttach cb userData =>
        if e = names.attached then some ⟨cb, userData⟩ else lastRegistered names e ops
      | .onDetach cb userData =>
        if e = names.detached then some ⟨cb, userData⟩ else lastRegistered names e ops
      | _ => lastRegistered names e ops := by
  rw [lastRegistered, List.foldl_append]
  cases op <;> rfl

/-- The optionals hold the last registrations. -/
theorem callbacks_state (ops : List (Op κ υ)) :
    ((machine names).state new ops).onAttach_ = lastRegistered names names.attached ops ∧
      ((machine names).state new ops).onDetach_ = lastRegistered names names.detached ops := by
  induction ops using List.reverseRecOn with
  | nil => exact ⟨rfl, rfl⟩
  | append_singleton ops op ih =>
    rw [Transducer.state_concat, lastRegistered_concat, lastRegistered_concat]
    cases op with
    | onAttach cb userData =>
      exact ⟨(if_pos rfl).symm, ih.2.trans (if_neg names.ne.symm).symm⟩
    | onDetach cb userData =>
      exact ⟨ih.1.trans (if_neg names.ne).symm, (if_pos rfl).symm⟩
    | start r =>
      obtain ⟨ha, hd⟩ := start_callbacks names ((machine names).state new ops) r
      exact ⟨ha.trans ih.1, hd.trans ih.2⟩
    | reset r =>
      obtain ⟨ha, hd⟩ := reset_callbacks ((machine names).state new ops) r
      exact ⟨ha.trans ih.1, hd.trans ih.2⟩
    | deliver data => exact ih

theorem lastRegistered_of_ne {e : String} (ha : e ≠ names.attached) (hd : e ≠ names.detached)
    (ops : List (Op κ υ)) : lastRegistered names e ops = none := by
  induction ops using List.reverseRecOn with
  | nil => rfl
  | append_singleton ops op ih =>
    rw [lastRegistered_concat]
    cases op <;> simp [ih, ha, hd]

/-- What `OnEvent` dereferences is the last registration for the event. -/
theorem callbackOf_state (e : String) (ops : List (Op κ υ)) :
    ((machine names).state new ops).callbackOf names e = lastRegistered names e ops := by
  obtain ⟨ha, hd⟩ := callbacks_state names ops
  unfold callbackOf
  by_cases hatt : e = names.attached
  · rw [if_pos hatt, ha, hatt]
  · rw [if_neg hatt]
    by_cases hdet : e = names.detached
    · rw [if_pos hdet, hd, hdet]
    · rw [if_neg hdet, lastRegistered_of_ne names hatt hdet]

/-- A registration is only ever replaced. -/
theorem isSome_lastRegistered_concat {e : String} {ops : List (Op κ υ)}
    (h : (lastRegistered names e ops).isSome) (op : Op κ υ) :
    (lastRegistered names e (ops ++ [op])).isSome := by
  rw [lastRegistered_concat]
  cases op <;> dsimp only <;> first | exact h | (split_ifs <;> first | rfl | exact h)

/-! ## The subscribed events -/

/-- The events `start` collects have a callback. -/
theorem isSome_callbackOf_of_mem_eventList {l : USBEventListener κ υ} {e : String}
    (h : e ∈ l.eventList names) : (l.callbackOf names e).isSome := by
  unfold eventList at h
  rcases List.mem_append.1 h with h | h
  · split_ifs at h with hatt
    · rw [List.mem_singleton.1 h, callbackOf, if_pos rfl]
      exact hatt
    · cases h
  · split_ifs at h with hdet
    · rw [List.mem_singleton.1 h, callbackOf, if_neg names.ne.symm, if_pos rfl]
      exact hdet
    · cases h

/-- The only list an operation passes to the subscribe info is the one `start` collects. -/
theorem createSubscribeInfo_of_mem_step {l : USBEventListener κ υ} {op : Op κ υ}
    {events : List String}
    (h : Effect.createSubscribeInfo events ∈ ((machine names).step l op).2) :
    events = l.eventList names := by
  cases op with
  | onAttach cb userData => cases h
  | onDetach cb userData => cases h
  | start r =>
    rw [step_start] at h
    unfold start destroyInfo at h
    split at h
    · cases h
    · dsimp only at h
      split at h <;> split_ifs at h <;> simpa using h
  | reset r =>
    rw [step_reset] at h
    unfold reset at h
    split at h
    · cases h
    · dsimp only at h
      split at h <;> simp at h
  | deliver data =>
    rw [step_deliver] at h
    unfold OnEvent invoke at h
    split_ifs at h
    · split at h <;> simp at h
    · split at h <;> simp at h
    · cases h

/-- **The invariant.** Every event on a list passed to the subscribe info has a callback. -/
theorem isSome_of_subscribed {ops : List (Op κ υ)} {events : List String}
    (h : Effect.createSubscribeInfo events ∈
      (machine names).output (new : USBEventListener κ υ) ops) {e : String} (he : e ∈ events) :
    (lastRegistered names e ops).isSome := by
  induction ops using List.reverseRecOn with
  | nil => cases h
  | append_singleton ops op ih =>
    refine isSome_lastRegistered_concat names ?_ op
    rw [Transducer.output_concat] at h
    rcases List.mem_append.1 h with h | h
    · exact ih h
    · have hlist := createSubscribeInfo_of_mem_step names h
      subst hlist
      rw [← callbackOf_state]
      exact isSome_callbackOf_of_mem_eventList names he

/-! ## Deliveries -/

/-- `OnEvent` invokes the callback it dereferences, and nothing else. -/
theorem OnEvent_of_callbackOf {l : USBEventListener κ υ} {data : RcvData} {n : Notifyer κ υ}
    (h : l.callbackOf names data.event = some n) :
    l.OnEvent names data = [.invoke n.notify data n.userData] := by
  unfold callbackOf at h
  unfold OnEvent
  split_ifs at h ⊢ <;> rw [h] <;> rfl

/-- **Dispatch.** Every delivery finds its optional non-empty and does nothing but invoke, once,
the callback registered last for its event, with the user data registered with it. -/
theorem dispatch {ops : List (Op κ υ)} (hsys : SystemDelivers names ops) (pre : List (Op κ υ))
    (data : RcvData) (post : List (Op κ υ)) (hops : ops = pre ++ .deliver data :: post) :
    ∃ n, lastRegistered names data.event pre = some n ∧
      ((machine names).state new pre).callbackOf names data.event = some n ∧
      ((machine names).step ((machine names).state new pre) (.deliver data)).2 =
        [.invoke n.notify data n.userData] := by
  obtain ⟨events, hcreated, hmem⟩ := hsys pre data post hops
  obtain ⟨n, hn⟩ := Option.isSome_iff_exists.1 (isSome_of_subscribed names hcreated hmem)
  have hcallback := callbackOf_state names data.event pre
  rw [hn] at hcallback
  exact ⟨n, hn, hcallback, OnEvent_of_callbackOf names hcallback⟩

/-- A callback replaced after `start`. -/
theorem dispatch_replaced :
    ((machine (κ := ℕ) (υ := ℕ) ⟨"attached", "detached", by decide⟩).step
      ((machine ⟨"attached", "detached", by decide⟩).state new
        [.onAttach 1 10, .start ⟨true, true, COMMONEVENT_ERR_OK⟩, .onAttach 2 20])
      (.deliver ⟨"attached", 0, "", ""⟩)).2 = [.invoke 2 ⟨"attached", 0, "", ""⟩ 20] := by
  have hsys : SystemDelivers (κ := ℕ) (υ := ℕ) ⟨"attached", "detached", by decide⟩
      [.onAttach 1 10, .start ⟨true, true, COMMONEVENT_ERR_OK⟩, .onAttach 2 20,
        .deliver ⟨"attached", 0, "", ""⟩] := by
    intro pre data post hops
    match pre with
    | [] | [_] | [_, _] => simp at hops
    | [_, _, _] =>
      simp only [List.cons_append, List.nil_append, List.cons.injEq, Op.deliver.injEq] at hops
      obtain ⟨rfl, rfl, rfl, rfl, -⟩ := hops
      exact ⟨["attached"], by decide, by decide⟩
    | _ :: _ :: _ :: _ :: pre => simp at hops
  obtain ⟨n, hlast, -, hstep⟩ := dispatch _ hsys
    [.onAttach 1 10, .start ⟨true, true, COMMONEVENT_ERR_OK⟩, .onAttach 2 20] _ [] rfl
  obtain rfl : n = ⟨2, 20⟩ := by
    have : lastRegistered (κ := ℕ) (υ := ℕ) ⟨"attached", "detached", by decide⟩ "attached"
      [.onAttach 1 10, .start ⟨true, true, COMMONEVENT_ERR_OK⟩, .onAttach 2 20] =
        some ⟨2, 20⟩ := by decide
    exact Option.some.inj (hlast.symm.trans this)
  exact hstep

end USBEventListener

end OhosWrapper.Usb
