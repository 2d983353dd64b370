import OhosWrapper.Lib.Checked
import OhosWrapper.Usb.Dispatch
import OhosWrapper.Usb.Handles
import OhosWrapper.Usb.Lifecycle

/-!
# Destructors that end the program

The destructors of `Handle`, of `Ashmem` and of the listener check the result of the C call that
gives back what the object holds, and throw if it fails. A destructor is `noexcept`, so that ends
the program. Here the driver and the event service keep books: a handle, a block or a subscription
can be given back once.

**Theorem (`moved_or_copied_iff`).** A program that destroys all its handles, or all its blocks, is
ended by a destructor exactly when one of the objects was constructed from another or assigned
another.

**Theorem (`life_calls`).** The calls a listener makes in its life are those of its first `start`,
one unsubscription for each `reset` after it, and those of the destructor.

**Theorem (`destructor_ends_iff`).** The destructor of a listener ends the program exactly when a
`start` was called and the first one failed, or was followed by a `reset`.
-/

namespace OhosWrapper.Usb

open Ownership Commev Commev.CommonEvent_ErrCode

/-! ## Handles and blocks -/

section

variable {ι η : Type} [DecidableEq ι] [DecidableEq η]

open USBInterface (Handle)

/-- A destructor that checks a code throws unless the code is the one of success. -/
theorem throws_checkError_iff {ε : Type} [DecidableEq ε] {success code : ε} {exp : String} :
    throws (checkError success code exp) = false ↔ code = success := by
  unfold checkError
  split_ifs with h
  · exact ⟨fun hthrows => (nomatch hthrows), fun hcode => absurd hcode h⟩
  · exact ⟨fun _ => not_not.1 h, fun _ => rfl⟩

omit [DecidableEq η] in
theorem USBInterface.Handle.reports :
    (Handle.special (η := η)).Reports (· = USBErrCode.USB_DDK_SUCCESS) :=
  fun _ _ => throws_checkError_iff

omit [DecidableEq η] in
theorem Ashmem.reports : (Ashmem.special (η := η)).Reports (· = DDK_RetCode.DDK_SUCCESS) := by
  intro this code
  have hdestroy : (Ashmem.special.destroy this code).2 =
      throws (ddkCheckError code "OH_DDK_DestroyAshmem(ashmem_)") := by
    simp [Ashmem.special, Ashmem.destroy, this.created]
  rw [hdestroy]
  exact throws_checkError_iff

/-- **Moved handles and copied blocks.** With a driver that takes back only what is outstanding, a
program that destroys all its objects is ended by a destructor exactly when one of them was
constructed from another or assigned another. -/
theorem moved_or_copied_iff :
    (∀ (ops : List (Ownership.Op ι (ClaimCall η) USBErrCode))
        (w : World ι (Handle η) ReleaseFunction η), Handle.special.machine.run ops = some w →
      Handle.special.machine.Along
        (Handle.special.Checks (· = USBErrCode.USB_DDK_SUCCESS)) ops → w.AllDestroyed →
      (w.terminated = true ↔ ∃ op ∈ ops, ¬ op.Harmless)) ∧
    ∀ (ops : List (Ownership.Op ι (CreateCall η) DDK_RetCode))
        (w : World ι (Ashmem η) ReleaseFunction η), Ashmem.special.machine.run ops = some w →
      Ashmem.special.machine.Along
        (Ashmem.special.Checks (· = DDK_RetCode.DDK_SUCCESS)) ops → w.AllDestroyed →
      (w.terminated = true ↔ ∃ op ∈ ops, ¬ op.Harmless) :=
  ⟨fun _ _ => Handle.copies.terminated_iff Handle.reports,
    fun _ _ => Ashmem.copies.terminated_iff Ashmem.reports⟩

/-- The instances at a handle that is moved and a block that is copied, both of whose objects are
destroyed. -/
theorem moved_or_copied_ends :
    (∃ ops, ∃ w : World Bool (Handle ℕ) ReleaseFunction ℕ,
      Handle.special.machine.run ops = some w ∧ w.terminated = true) ∧
    ∃ ops, ∃ w : World Bool (Ashmem ℕ) ReleaseFunction ℕ,
      Ashmem.special.machine.run ops = some w ∧ w.terminated = true := by
  refine ⟨?_, ?_⟩
  · have hrun : Handle.special.machine.run [.construct false ⟨7, 1, .USB_DDK_SUCCESS, 40⟩,
        .constructFrom true false, .destroy false .USB_DDK_SUCCESS, .destroy true .USB_DDK_FAILED] =
          some _ := rfl
    refine ⟨_, _, hrun, (moved_or_copied_iff.1 _ _ hrun ?_ (fun x => by cases x <;> rfl)).2
      ⟨.constructFrom true false, by simp, id⟩⟩
    refine Machine.along_cons trivial fun s hs => ?_
    obtain rfl := Option.some.inj hs
    refine Machine.along_cons trivial fun s hs => ?_
    obtain rfl := Option.some.inj hs
    refine Machine.along_cons (fun h hh => ?_) fun s hs => ?_
    · cases hh
      exact ⟨fun _ => ⟨by decide, rfl⟩, fun _ => rfl⟩
    obtain rfl := Option.some.inj hs
    refine Machine.along_cons (fun h hh => ?_) fun s hs => Machine.along_nil _
    cases hh
    exact ⟨fun hcode => (nomatch hcode), fun hout => absurd hout.2 (by decide)⟩
  · have hrun : Ashmem.special.machine.run [.construct false ⟨"m", 64, .DDK_SUCCESS, 50⟩,
        .constructFrom true false, .destroy false .DDK_SUCCESS, .destroy true .DDK_FAILURE] =
          some _ := rfl
    refine ⟨_, _, hrun, (moved_or_copied_iff.2 _ _ hrun ?_ (fun x => by cases x <;> rfl)).2
      ⟨.constructFrom true false, by simp, id⟩⟩
    refine Machine.along_cons trivial fun s hs => ?_
    obtain rfl := Option.some.inj hs
    refine Machine.along_cons trivial fun s hs => ?_
    obtain rfl := Option.some.inj hs
    refine Machine.along_cons (fun h hh => ?_) fun s hs => ?_
    · cases hh
      exact ⟨fun _ => ⟨by decide, rfl⟩, fun _ => rfl⟩
    obtain rfl := Option.some.inj hs
    refine Machine.along_cons (fun h hh => ?_) fun s hs => Machine.along_nil _
    cases hh
    exact ⟨fun hcode => (nomatch hcode), fun hout => absurd hout.2 (by decide)⟩

end

/-! ## Listeners -/

namespace USBEventListener

variable {κ υ : Type*} (names : EventNames)

/-- The effect is a call of a C function, or the end of the program. -/
def isCall : Effect κ υ → Bool
  | .invoke _ _ _ | .derefEmpty | .throw _ => false
  | _ => true

def calls (es : List (Effect κ υ)) : List (Effect κ υ) := es.filter isCall

/-- The calls over the life of a listener: a run, then the destructor. -/
def life (ops : List (Op κ υ)) (r : CommonEvent_ErrCode) : List (Effect κ υ) :=
  calls ((machine names).output new ops ++ ((machine names).state new ops).destroy r)

/-- The events for which a callback was registered. -/
def registeredEvents (ops : List (Op κ υ)) : List String :=
  [names.attached, names.detached].filter fun e => (lastRegistered names e ops).isSome

theorem calls_append (es fs : List (Effect κ υ)) : calls (es ++ fs) = calls es ++ calls fs :=
  List.filter_append _ _

theorem calls_OnEvent (l : USBEventListener κ υ) (data : RcvData) :
    calls (l.OnEvent names data) = [] := by
  unfold OnEvent invoke
  split_ifs <;> first | rfl | (split <;> rfl)

/-- The calls of a first `start`, which destroys the subscribe info before it returns or throws. -/
theorem calls_start {l : USBEventListener κ υ} (h : l.subscriber_ = none) (s : StartResults) :
    ∃ c, (c = COMMONEVENT_ERR_OK ↔ Subscribes s) ∧ calls (l.start names s).2 =
      [.createSubscribeInfo (l.eventList names), .createSubscriber, .subscribe c] ++
        if s.createSubscribeInfo then [.destroySubscribeInfo] else [] := by
  refine ⟨((Subscriber.new s.createSubscriber
    (SubscribeInfo.new s.createSubscribeInfo (l.eventList names))).ohSubscribe s.subscribe).1,
    ?_, ?_⟩
  · obtain ⟨created, _ | _, code⟩ := s <;>
      simp [Subscriber.new, Subscriber.ohSubscribe, Subscribes]
  · obtain ⟨_ | _, created, code⟩ := s <;> simp only [start, h, destroyInfo] <;> split <;> rfl

theorem calls_reset {l : USBEventListener κ υ} {sub : Subscriber} (h : l.subscriber_ = some sub)
    (r : CommonEvent_ErrCode) : calls (l.reset r).2 = [.unSubscribe (sub.ohUnSubscribe r).1] := by
  simp only [reset, h]
  split <;> rfl

/-- The service ends a subscription exactly if it is active. A call is made only if there is a
subscriber. -/
def EndsActive (l : USBEventListener κ υ) (r : CommonEvent_ErrCode) : Prop :=
  l.subscriber_.isSome → (r = COMMONEVENT_ERR_OK ↔ l.active = true)

/-- The destructor unsubscribes, and then destroys the subscriber or ends the program. -/
theorem calls_destroy {l : USBEventListener κ υ} {sub : Subscriber} (h : l.subscriber_ = some sub)
    (r : CommonEvent_ErrCode) : ∃ c,
      (l.EndsActive r → (c = COMMONEVENT_ERR_OK ↔ l.active = true)) ∧
      calls (l.destroy r) = [.unSubscribe c,
        if c = COMMONEVENT_ERR_OK then .destroySubscriber else .terminate] := by
  refine ⟨(sub.ohUnSubscribe r).1, fun hr => ?_, ?_⟩
  · obtain ⟨_ | c⟩ := sub
    · simp [Subscriber.ohUnSubscribe, active, Subscriber.active, h]
    · exact hr (by rw [h]; rfl)
  obtain ⟨_ | c⟩ := sub
  · simp [destroy, reset, h, Subscriber.ohUnSubscribe, commonCheckError, calls, List.filter_cons,
      isCall]
  · by_cases hr : r = COMMONEVENT_ERR_OK <;>
      simp [destroy, reset, h, Subscriber.ohUnSubscribe, commonCheckError, calls, List.filter_cons,
        isCall, hr]

/-! ### A life -/

theorem eventList_state (ops : List (Op κ υ)) :
    ((machine names).state new ops).eventList names = registeredEvents names ops := by
  obtain ⟨ha, hd⟩ := callbacks_state names ops
  rw [eventList, ha, hd, registeredEvents, List.filter_cons, List.filter_cons, List.filter_nil]
  cases lastRegistered names names.attached ops <;>
    cases lastRegistered names names.detached ops <;> rfl

theorem calls_before_start {ops : List (Op κ υ)} (h : ∀ r, .start r ∉ ops) :
    calls ((machine names).output (new : USBEventListener κ υ) ops) = [] := by
  induction ops using List.reverseRecOn with
  | nil => rfl
  | append_singleton ops op ih =>
    have hops : ∀ r, .start r ∉ ops := fun r hr => h r (List.mem_append_left _ hr)
    rw [Transducer.output_concat, calls_append, ih hops, List.nil_append]
    cases op with
    | start r => exact absurd (by simp) (h r)
    | reset r => rw [step_reset, reset_of_none (run_before_start names hops).1]; rfl
    | deliver data => exact calls_OnEvent names _ data
    | onAttach cb userData | onDetach cb userData => rfl

/-- One unsubscription for each `reset`. -/
theorem calls_after_start {l : USBEventListener κ υ} {sub : Subscriber}
    (h : l.subscriber_ = some sub) (ops : List (Op κ υ)) :
    ∃ results : List CommonEvent_ErrCode, results.length = ops.countP (· matches .reset _) ∧
      calls ((machine names).output l ops) = results.map Effect.unSubscribe := by
  induction ops generalizing l sub with
  | nil => exact ⟨[], rfl, rfl⟩
  | cons op ops ih =>
    rw [Transducer.output_cons, calls_append]
    cases op with
    | start r =>
      rw [step_start, start_of_some names h]
      exact ih h
    | reset r =>
      obtain ⟨results, hlen, hcalls⟩ := ih (reset_subscriber h r)
      refine ⟨(sub.ohUnSubscribe r).1 :: results, by simp [hlen], ?_⟩
      rw [step_reset, calls_reset h, hcalls]
      rfl
    | deliver data =>
      rw [step_deliver, calls_OnEvent]
      exact ih h
    | onAttach cb userData | onDetach cb userData => exact ih h

theorem life_of_no_start {ops : List (Op κ υ)} (h : ∀ s, .start s ∉ ops)
    (r : CommonEvent_ErrCode) : life names ops r = [] := by
  obtain ⟨hnone, -⟩ := run_before_start names h
  rw [life, calls_append, calls_before_start names h, destroy, reset_of_none hnone, hnone]
  rfl

theorem life_of_start {pre : List (Op κ υ)} (hpre : ∀ s', .start s' ∉ pre) (s : StartResults)
    (post : List (Op κ υ)) (r : CommonEvent_ErrCode) :
    ∃ (c : CommonEvent_ErrCode) (results : List CommonEvent_ErrCode) (c' : CommonEvent_ErrCode),
      (c = COMMONEVENT_ERR_OK ↔ Subscribes s) ∧
      results.length = post.countP (· matches .reset _) ∧
      (((machine names).state new (pre ++ .start s :: post)).EndsActive r →
        (c' = COMMONEVENT_ERR_OK ↔
          ((machine names).state new (pre ++ .start s :: post)).active = true)) ∧
      life names (pre ++ .start s :: post) r =
        [.createSubscribeInfo (registeredEvents names pre), .createSubscriber, .subscribe c] ++
        (if s.createSubscribeInfo then [.destroySubscribeInfo] else []) ++
        results.map Effect.unSubscribe ++ [.unSubscribe c',
          if c' = COMMONEVENT_ERR_OK then .destroySubscriber else .terminate] := by
  obtain ⟨hnone, -⟩ := run_before_start names hpre
  obtain ⟨c, hc, hstart⟩ := calls_start names hnone s
  have hsub := start_subscriber names hnone s
  obtain ⟨results, hlen, hpost⟩ := calls_after_start names hsub post
  obtain ⟨⟨sub, hend⟩, -⟩ := run_after_start names hsub post
  have hstate : (machine names).state new (pre ++ .start s :: post) =
      (machine names).state (((machine names).state new pre).start names s).1 post := by
    rw [Transducer.state_append]
    rfl
  rw [← hstate] at hend
  obtain ⟨c', hc', hdestroy⟩ := calls_destroy hend r
  refine ⟨c, results, c', hc, hlen, hc', ?_⟩
  rw [life, calls_append, hdestroy, Transducer.output_append, Transducer.output_cons, calls_append,
    calls_append, calls_before_start names hpre, step_start, hstart, hpost, eventList_state]
  simp only [List.nil_append, List.append_assoc]

/-- **The life of a listener.** Without a `start` it makes no call. Otherwise its calls are those of
the first `start`, with the events that had a callback by then, one unsubscription for each `reset`
after it, and those of the destructor. -/
theorem life_calls (ops : List (Op κ υ)) (r : CommonEvent_ErrCode) :
    ((∀ s, .start s ∉ ops) → life names ops r = []) ∧
    ∀ pre s post, ops = pre ++ .start s :: post → (∀ s', .start s' ∉ pre) →
      ∃ (c : CommonEvent_ErrCode) (results : List CommonEvent_ErrCode) (c' : CommonEvent_ErrCode),
        (c = COMMONEVENT_ERR_OK ↔ Subscribes s) ∧
        results.length = post.countP (· matches .reset _) ∧
        life names ops r =
          [.createSubscribeInfo (registeredEvents names pre), .createSubscriber, .subscribe c] ++
          (if s.createSubscribeInfo then [.destroySubscribeInfo] else []) ++
          results.map Effect.unSubscribe ++ [.unSubscribe c',
            if c' = COMMONEVENT_ERR_OK then .destroySubscriber else .terminate] := by
  refine ⟨fun h => life_of_no_start names h r, fun pre s post hops hpre => ?_⟩
  subst hops
  obtain ⟨c, results, c', hc, hlen, -, hlife⟩ := life_of_start names hpre s post r
  exact ⟨c, results, c', hc, hlen, hlife⟩

/-! ### Services that keep books -/

/-- Each `reset` in a run, and the destructor, get their result from such a service. -/
structure Serves (ops : List (Op κ υ)) (r : CommonEvent_ErrCode) : Prop where
  resets : ∀ pre r' post, ops = pre ++ .reset r' :: post →
    ((machine names).state new pre).EndsActive r'
  destructor : ((machine names).state new ops).EndsActive r

/-- A `reset` leaves no active subscription. -/
theorem active_reset {l : USBEventListener κ υ} {sub : Subscriber} (h : l.subscriber_ = some sub)
    {r : CommonEvent_ErrCode} (hr : l.EndsActive r) : (l.reset r).1.active = false := by
  have hactive : l.active = sub.active := by rw [active, h]; rfl
  have hcode := hr (by rw [h]; rfl)
  rw [hactive] at hcode
  rw [active, reset_subscriber h, Option.any_some]
  obtain ⟨_ | c⟩ := sub
  · rfl
  · have hc : r = COMMONEVENT_ERR_OK ↔ c.active = true := hcode
    by_cases hok : r = COMMONEVENT_ERR_OK
    · simp [Subscriber.ohUnSubscribe, Subscriber.active, hok]
    · have hinactive : c.active = false := by simpa [hok] using hc
      simp [Subscriber.ohUnSubscribe, Subscriber.active, hinactive]

/-- A subscription is active until the first `reset`. -/
theorem active_after_start {l : USBEventListener κ υ} {sub : Subscriber}
    (h : l.subscriber_ = some sub) {ops : List (Op κ υ)}
    (hops : ∀ pre r post, ops = pre ++ .reset r :: post →
      ((machine names).state l pre).EndsActive r) :
    ((machine names).state l ops).active = true ↔ l.active = true ∧ ∀ r, .reset r ∉ ops := by
  induction ops using List.reverseRecOn with
  | nil => simp
  | append_singleton ops op ih =>
    have hbefore := ih fun pre r post hpre =>
      hops pre r (post ++ [op]) (by rw [hpre, List.append_assoc, List.cons_append])
    obtain ⟨⟨sub', hsub'⟩, -⟩ := run_after_start names h ops
    rw [Transducer.state_concat]
    cases op with
    | start s =>
      rw [step_start, start_of_some names hsub', hbefore]
      simp
    | reset r =>
      rw [step_reset, active_reset hsub' (hops ops r [] rfl)]
      exact ⟨fun hactive => (nomatch hactive),
        fun hnone => absurd (List.mem_append_right _ List.mem_cons_self) (hnone.2 r)⟩
    | onAttach cb userData | onDetach cb userData | deliver data =>
      refine hbefore.trans ?_
      simp

theorem active_start {l : USBEventListener κ υ} (h : l.subscriber_ = none) (s : StartResults) :
    (l.start names s).1.active = true ↔ Subscribes s := by
  rw [active, start_subscriber names h]
  obtain ⟨created, _ | _, code⟩ := s <;>
    simp [Subscriber.new, Subscriber.ohSubscribe, Subscriber.active, Subscribes]

/-- A run is cut at its first `start`. -/
theorem exists_first_start {ops : List (Op κ υ)} (h : ∃ s, .start s ∈ ops) :
    ∃ pre s post, ops = pre ++ .start s :: post ∧ ∀ s', .start s' ∉ pre := by
  have hsome : (ops.find? (· matches .start _)).isSome := by
    obtain ⟨s, hs⟩ := h
    exact List.find?_isSome.2 ⟨_, hs, rfl⟩
  obtain ⟨op, hop⟩ := Option.isSome_iff_exists.1 hsome
  obtain ⟨hstart, pre, post, rfl, hpre⟩ := List.find?_eq_some_iff_append.1 hop
  match op, hstart with
  | .start s, _ => exact ⟨pre, s, post, rfl, fun s' hs' => by simpa using hpre _ hs'⟩

/-- **The destructor of a listener.** It ends the program exactly when there was a `start`, and the
first one failed or a `reset` came after it. -/
theorem destructor_ends_iff {ops : List (Op κ υ)} {r : CommonEvent_ErrCode}
    (h : Serves names ops r) : .terminate ∈ life names ops r ↔
      ∃ pre s post, ops = pre ++ .start s :: post ∧ (∀ s', .start s' ∉ pre) ∧
        (¬ Subscribes s ∨ ∃ r', .reset r' ∈ post) := by
  have hends : ∀ pre s post, ops = pre ++ .start s :: post → (∀ s', .start s' ∉ pre) →
      (.terminate ∈ life names ops r ↔ ¬ Subscribes s ∨ ∃ r', .reset r' ∈ post) := by
    intro pre s post hops hpre
    subst hops
    obtain ⟨hnone, -⟩ := run_before_start names hpre
    obtain ⟨c, results, c', -, -, hc', hlife⟩ := life_of_start names hpre s post r
    have hactive : ((machine names).state new (pre ++ .start s :: post)).active = true ↔
        Subscribes s ∧ ∀ r', .reset r' ∉ post := by
      rw [Transducer.state_append, Transducer.state_cons, step_start, ← active_start names hnone s]
      refine active_after_start names (start_subscriber names hnone s) fun pre' r' post' hpost => ?_
      have hreset := h.resets (pre ++ .start s :: pre') r' post' (by rw [hpost]; simp)
      rwa [Transducer.state_append, Transducer.state_cons, step_start] at hreset
    have hcode := (hc' h.destructor).trans hactive
    have hmem : .terminate ∈ life names (pre ++ .start s :: post) r ↔ c' ≠ COMMONEVENT_ERR_OK := by
      rw [hlife]
      by_cases hok : c' = COMMONEVENT_ERR_OK <;> cases s.createSubscribeInfo <;> simp [hok]
    rw [hmem, ne_eq, hcode, not_and_or]
    simp only [not_forall, not_not]
  refine ⟨fun hmem => ?_, fun hstarted => ?_⟩
  · by_cases hstarted : ∃ s, .start s ∈ ops
    · obtain ⟨pre, s, post, hops, hpre⟩ := exists_first_start hstarted
      exact ⟨pre, s, post, hops, hpre, (hends pre s post hops hpre).1 hmem⟩
    · rw [life_of_no_start names (not_exists.1 hstarted)] at hmem
      cases hmem
  · obtain ⟨pre, s, post, hops, hpre, hbad⟩ := hstarted
    exact (hends pre s post hops hpre).2 hbad

/-- A listener that was stopped by hand before its end. -/
theorem destructor_ends_stopped :
    .terminate ∈ life (κ := ℕ) (υ := Unit) ⟨"attached", "detached", by decide⟩
      [.onAttach 0 (), .start ⟨true, true, COMMONEVENT_ERR_OK⟩, .reset COMMONEVENT_ERR_OK]
      COMMONEVENT_ERR_INVALID_PARAMETER := by
  refine (destructor_ends_iff _ ⟨fun pre r post hops => ?_, fun _ => by decide⟩).2
    ⟨[.onAttach 0 ()], ⟨true, true, COMMONEVENT_ERR_OK⟩, [.reset COMMONEVENT_ERR_OK], rfl, by simp,
      Or.inr ⟨COMMONEVENT_ERR_OK, by simp⟩⟩
  match pre with
  | [] | [_] | _ :: _ :: _ :: pre => simp at hops
  | [_, _] =>
    simp only [List.cons_append, List.nil_append, List.cons.injEq, Op.reset.injEq] at hops
    obtain ⟨rfl, rfl, rfl, -⟩ := hops
    exact fun _ => by decide

end USBEventListener

end OhosWrapper.Usb
