import NetBridge.Transport.WireFormat

/-!
# Service queries

`ZenohTransport::Query`, `src/swarm_ros_bridge/src/transport/zenoh_transport.cpp:494–578`. The
reply and done callbacks and the waiting caller share one `QueryState` under one mutex, so a
query is a sequence of atomic events: callbacks, expiry of the local wait, and the moments
at which the caller holds the mutex and looks at the state.
-/

namespace NetBridge.Transport

open NetBridge.Base

/-- What Zenoh hands to the reply callback: an ok or an error reply with its payload bytes. -/
inductive Reply where
  | ok (payload : Bytes)
  | err (payload : Bytes)
deriving DecidableEq

/-- `QueryState`; `zenoh_transport.cpp:508–514`. -/
structure QueryState where
  done : Bool := false
  received : Bool := false
  response : TransportEnvelope := {}
  error : Bytes := []
deriving DecidableEq

/-- `IsTimeoutError`; `zenoh_transport.cpp:33–42`. -/
def isTimeoutError (value : Bytes) : Bool :=
  let normalized := value.map toLower
  containsBytes normalized (ascii "timeout") || containsBytes normalized (ascii "timed out")

/-- `bytes.data()` of a vector: an empty vector has no storage to point to. -/
def vectorData (bytes : Bytes) : Option Bytes := if bytes = [] then none else some bytes

/-- The `on_reply` callback; `zenoh_transport.cpp:516–535`. -/
def onReply (reply : Reply) (state : QueryState) : QueryState :=
  if state.received then state
  else
    match reply with
    | .err payload => { state with error := payload, received := true }
    | .ok payload =>
      match decodeEnvelope (vectorData payload) (some state.response) (some state.error) with
      | (_, response, error) =>
        { state with
          response := response.getD state.response
          error := error.getD state.error
          received := true }

/-- The `on_done` callback; `zenoh_transport.cpp:536–540`. -/
def onDone (state : QueryState) : QueryState := { state with done := true }

/-- One call of `Query`: the shared state, whether the local wait has expired, what was
returned, and the targets of the two pointer parameters. -/
structure QueryCall where
  state : QueryState := {}
  expired : Bool := false
  returned : Option Bool := none
  response : Option TransportEnvelope
  error : Option Bytes
  serviceTimeouts : UInt64 := 0
deriving DecidableEq

/-- The text of both timeout reports; `zenoh_transport.cpp:564,570`. -/
def timedOut : Bytes := ascii "Zenoh service query timed out"

/-- The caller after its wait, still holding the mutex; `zenoh_transport.cpp:562–577`. -/
def endWait (call : QueryCall) : QueryCall :=
  if !call.state.received then
    { call with
      returned := some false
      error := writePointer timedOut call.error
      serviceTimeouts := call.serviceTimeouts + 1 }
  else if call.state.error ≠ [] then
    if isTimeoutError call.state.error then
      { call with
        returned := some false
        error := writePointer timedOut call.error
        serviceTimeouts := call.serviceTimeouts + 1 }
    else
      { call with returned := some false, error := writePointer call.state.error call.error }
  else
    { call with returned := some true, response := writePointer call.state.response call.response }

/-- How `Session().get` ends: the query is sent, or an exception with this text is thrown by a
closed session or by Zenoh; `zenoh_transport.cpp:542–555`. -/
inductive GetOutcome where
  | sent
  | threw (what : Bytes)
deriving DecidableEq

/-- The part of `Query` up to the wait; `zenoh_transport.cpp:499–555`. -/
def startQuery (request : TransportEnvelope) (response : Option TransportEnvelope)
    (error : Option Bytes) (get : GetOutcome) : QueryCall :=
  match response with
  | none => {
      returned := some false
      response := none
      error := setError "response is null" error }
  | some prior =>
    match encodeEnvelope request (some []) error with
    | (false, _, error) => { returned := some false, response := some prior, error }
    | (true, _, error) =>
      match get with
      | .threw what => {
          returned := some false
          response := some prior
          error := writePointer what error }
      | .sent => { response := some prior, error }

/-- An atomic event of a query: a callback, expiry of the local wait, or the caller waking up
(or entering the wait) with the mutex held. -/
inductive QueryEvent where
  | reply (reply : Reply)
  | done
  | expire
  | resume
deriving DecidableEq

/-- One event. The caller leaves `wait_for` once its predicate holds or the time is over; the
callbacks own the shared state and may run after that. -/
def QueryCall.step (call : QueryCall) : QueryEvent → QueryCall
  | .reply reply => { call with state := onReply reply call.state }
  | .done => { call with state := onDone call.state }
  | .expire => { call with expired := true }
  | .resume =>
    if call.returned.isNone && (call.state.received || call.state.done || call.expired) then
      endWait call
    else call

/-- A sequence of events. -/
def QueryCall.run (call : QueryCall) (events : List QueryEvent) : QueryCall :=
  events.foldl QueryCall.step call

/-- The first reply delivered before the wait of `call` ends. -/
def delivered : QueryCall → List QueryEvent → Option Reply
  | _, [] => none
  | call, event :: events =>
    match call.returned, event with
    | some _, _ => none
    | none, .reply reply => some reply
    | none, event => delivered (call.step event) events

@[simp] private theorem run_nil (call : QueryCall) : call.run [] = call := rfl

@[simp] private theorem run_cons (call : QueryCall) (event : QueryEvent)
    (events : List QueryEvent) : call.run (event :: events) = (call.step event).run events := rfl

/-! ## The shared state -/

/-- The shared state when the first reply, if any, is the only event so far. -/
def settle : Option Reply → QueryState
  | none => {}
  | some reply => onReply reply {}

/-- The state is the one left by `first` alone, up to the done flag. -/
structure Settled (first : Option Reply) (state : QueryState) : Prop where
  received : state.received = (settle first).received
  response : state.response = (settle first).response
  error : state.error = (settle first).error

private theorem settle_received (first : Option Reply) :
    (settle first).received = first.isSome := by
  cases first with
  | none => rfl
  | some reply => cases reply <;> rfl

/-- Only the first reply reaches the state. -/
theorem settled_onReply {first : Option Reply} {state : QueryState} (h : Settled first state)
    (reply : Reply) : Settled (first.or (some reply)) (onReply reply state) := by
  cases first with
  | none =>
    have hr : state.received = false := h.received
    have he : state.error = [] := h.error
    have hs : state.response = {} := h.response
    simp only [Option.none_or]
    cases reply with
    | err payload =>
      constructor
      · simp [onReply, settle, hr]
      · simp [onReply, settle, hr, hs]
      · simp [onReply, settle, hr]
    | ok payload =>
      constructor
      · simp [onReply, settle, hr]
      · simp [onReply, settle, hr, hs, he]
      · simp [onReply, settle, hr, hs, he]
  | some first =>
    have hr : state.received = true := by rw [h.received, settle_received]; rfl
    have hs : onReply reply state = state := by simp only [onReply, hr, if_true]
    rw [hs]
    exact h

/-- The done flag does not touch what the replies wrote. -/
theorem settled_onDone {first : Option Reply} {state : QueryState} (h : Settled first state) :
    Settled first (onDone state) :=
  ⟨h.received, h.response, h.error⟩

/-! ## The outcome of a run -/

/-- What a caller that leaves the wait after `first` returns and writes. -/
def outcome (first : Option Reply) (prior : TransportEnvelope) (error : Option Bytes) :
    QueryCall :=
  endWait { state := settle first, response := some prior, error }

private theorem endWait_settled {first : Option Reply} {call : QueryCall}
    {prior : TransportEnvelope} (h : Settled first call.state)
    (hp : call.response = some prior) :
    (endWait call).returned = (outcome first prior call.error).returned ∧
      (endWait call).response = (outcome first prior call.error).response ∧
      (endWait call).error = (outcome first prior call.error).error ∧
      (endWait call).serviceTimeouts =
        call.serviceTimeouts + (outcome first prior call.error).serviceTimeouts := by
  have hzero := (UInt64.add_zero call.serviceTimeouts).symm
  simp only [outcome, endWait, ← h.received, ← h.response, ← h.error, hp]
  split
  · exact ⟨rfl, rfl, rfl, by rw [UInt64.zero_add]⟩
  · split
    · split
      · exact ⟨rfl, rfl, rfl, by rw [UInt64.zero_add]⟩
      · exact ⟨rfl, rfl, rfl, hzero⟩
    · exact ⟨rfl, rfl, rfl, hzero⟩

private theorem step_of_returned {call : QueryCall} {b : Bool} (h : call.returned = some b)
    (event : QueryEvent) :
    (call.step event).returned = some b ∧ (call.step event).response = call.response ∧
      (call.step event).error = call.error ∧
      (call.step event).serviceTimeouts = call.serviceTimeouts := by
  cases event with
  | reply reply => exact ⟨h, rfl, rfl, rfl⟩
  | done => exact ⟨h, rfl, rfl, rfl⟩
  | expire => exact ⟨h, rfl, rfl, rfl⟩
  | resume =>
    simp only [QueryCall.step, h, Option.isNone_some, Bool.false_and]
    exact ⟨h, rfl, rfl, rfl⟩

/-- Nothing that happens after the return reaches the caller. -/
theorem run_of_returned {call : QueryCall} {b : Bool} (h : call.returned = some b)
    (events : List QueryEvent) :
    (call.run events).returned = some b ∧ (call.run events).response = call.response ∧
      (call.run events).error = call.error ∧
      (call.run events).serviceTimeouts = call.serviceTimeouts := by
  induction events generalizing call with
  | nil => exact ⟨h, rfl, rfl, rfl⟩
  | cons event events ih =>
    obtain ⟨hb, hr, he, ht⟩ := step_of_returned h event
    obtain ⟨hb', hr', he', ht'⟩ := ih hb
    exact ⟨hb', hr'.trans hr, he'.trans he, ht'.trans ht⟩

/-- Nothing is delivered to a call that has returned. -/
theorem delivered_of_returned {call : QueryCall} {b : Bool}
    (h : call.returned = some b) (events : List QueryEvent) : delivered call events = none := by
  cases events with
  | nil => rfl
  | cons event events => simp only [delivered, h]

/-- A call that returned after waiting returned the outcome of the first reply delivered before
its wait ended. The induction carries the reply seen so far. -/
theorem run_outcome {call : QueryCall} {first : Option Reply} {prior : TransportEnvelope}
    {b : Bool} (events : List QueryEvent) (hw : call.returned = none)
    (hs : Settled first call.state) (hp : call.response = some prior)
    (hb : (call.run events).returned = some b) :
    some b = (outcome (first.or (delivered call events)) prior call.error).returned ∧
      (call.run events).response =
        (outcome (first.or (delivered call events)) prior call.error).response ∧
      (call.run events).error =
        (outcome (first.or (delivered call events)) prior call.error).error ∧
      (call.run events).serviceTimeouts = call.serviceTimeouts +
        (outcome (first.or (delivered call events)) prior call.error).serviceTimeouts := by
  induction events generalizing call first with
  | nil => rw [run_nil, hw] at hb; exact absurd hb (by simp)
  | cons event events ih =>
    rw [run_cons] at hb ⊢
    cases event with
    | reply reply =>
      have hnext := @ih (call.step (.reply reply)) _ hw (settled_onReply hs reply) hp hb
      -- After a reply the replies still to come are shadowed by it.
      have hor : (first.or (some reply)).or (delivered (call.step (.reply reply)) events) =
          first.or (delivered call (.reply reply :: events)) := by
        simp only [delivered, hw]
        cases first with
        | none => rfl
        | some first => rfl
      rw [hor] at hnext
      exact hnext
    | done =>
      have hnext := @ih (call.step .done) _ hw (settled_onDone hs) hp hb
      simp only [delivered, hw]
      exact hnext
    | expire =>
      have hnext := @ih (call.step .expire) _ hw hs hp hb
      simp only [delivered, hw]
      exact hnext
    | resume =>
      simp only [delivered, hw]
      by_cases hready : (call.state.received || call.state.done || call.expired) = true
      · have hstep : call.step .resume = endWait call := by
          simp only [QueryCall.step, hw, hready, Option.isNone_none, Bool.and_self, if_true]
        obtain ⟨hret, hresp, herr, htimeouts⟩ := endWait_settled hs hp
        have hsome : ∃ b, (endWait call).returned = some b := by
          unfold endWait
          split
          · exact ⟨_, rfl⟩
          · split
            · split
              · exact ⟨_, rfl⟩
              · exact ⟨_, rfl⟩
            · exact ⟨_, rfl⟩
        obtain ⟨b', hb'⟩ := hsome
        rw [hstep] at hb ⊢
        rw [delivered_of_returned hb', Option.or_none]
        obtain ⟨h1, h2, h3, h4⟩ := run_of_returned hb' events
        rw [h1] at hb
        rw [← hret, ← hresp, ← herr, ← htimeouts, h2, h3, h4, hb']
        exact ⟨hb.symm, rfl, rfl, rfl⟩
      · have hstep : call.step .resume = call := by
          simp only [QueryCall.step, Bool.not_eq_true] at hready ⊢
          simp [hready]
        rw [hstep] at hb ⊢
        exact ih hw hs hp hb

/-! ## Outcomes -/

/-- The reply is an ok reply whose payload decodes to `e`. -/
def Carries (first : Option Reply) (e : TransportEnvelope) : Prop :=
  ∃ payload, first = some (.ok payload) ∧
    decodeEnvelope (vectorData payload) (some {}) (some []) = (true, some e, some [])

private theorem writeTimedOut_ne_nil (error : Option Bytes) :
    writePointer timedOut error ≠ some [] := by
  show setError "Zenoh service query timed out" error ≠ some []
  exact setError_ne_nil (by decide) error

/-- What an ok reply leaves behind: its envelope, or a non-empty error. -/
theorem settle_ok (payload : Bytes) :
    (∃ e, decodeEnvelope (vectorData payload) (some {}) (some []) = (true, some e, some []) ∧
      settle (some (.ok payload)) = { received := true, response := e }) ∨
    (∃ text, text ≠ [] ∧
      (decodeEnvelope (vectorData payload) (some {}) (some [])).1 = false ∧
      settle (some (.ok payload)) = { received := true, error := text }) := by
  by_cases hp : payload = []
  · refine Or.inr ⟨ascii "input or envelope is null", by decide, ?_, ?_⟩
    · rw [hp]
      rfl
    · rw [hp]
      rfl
  · have hv : vectorData payload = some payload := if_neg hp
    cases hd : (decodeEnvelope (some payload) (some {}) (some [])).1 with
    | true =>
      obtain ⟨e, flags, hf, hb, he⟩ := decodeEnvelope_sound payload {} (some []) hd
      refine Or.inl ⟨e, by rw [hv, he], ?_⟩
      simp [settle, onReply, hv, he]
    | false =>
      obtain ⟨text, ht, he⟩ := decodeEnvelope_rejected payload {} (some []) hd
      refine Or.inr ⟨ascii text, decodeErrors_ne_nil text ht, by rw [hv, hd], ?_⟩
      simp [settle, onReply, hv, he, setError]

/-- The outcome of an ok reply that decodes. -/
theorem outcome_of_carries {first : Option Reply} {e : TransportEnvelope} (h : Carries first e)
    (prior : TransportEnvelope) (error : Option Bytes) :
    (outcome first prior error).returned = some true ∧
      (outcome first prior error).response = some e := by
  obtain ⟨payload, hf, hd⟩ := h
  rw [hf]
  rcases settle_ok payload with ⟨e', hd', hs⟩ | ⟨text, -, hd', -⟩
  · rw [hd] at hd'
    have he : e = e' := by simpa using hd'
    rw [he]
    simp only [outcome, hs, endWait]
    exact ⟨rfl, rfl⟩
  · rw [hd] at hd'
    exact absurd hd' (by simp)

/-- The outcome of any other first reply but an error reply without bytes. -/
theorem outcome_of_not_carries {first : Option Reply} (h : ¬∃ e, Carries first e)
    (hne : first ≠ some (.err [])) (prior : TransportEnvelope) (error : Option Bytes) :
    (outcome first prior error).returned = some false ∧
      (outcome first prior error).response = some prior ∧
      (outcome first prior error).error ≠ some [] := by
  have failed : ∀ text, text ≠ [] → settle first = { received := true, error := text } →
      (outcome first prior error).returned = some false ∧
        (outcome first prior error).response = some prior ∧
        (outcome first prior error).error ≠ some [] := by
    intro text ht hs
    simp only [outcome, endWait, hs, Bool.not_true, Bool.false_eq_true, if_false, ne_eq, ht,
      not_false_eq_true, if_true]
    split
    · exact ⟨rfl, rfl, writeTimedOut_ne_nil error⟩
    · refine ⟨rfl, rfl, ?_⟩
      cases error with
      | none => simp
      | some old => simpa using ht
  cases first with
  | none =>
    simp only [outcome, endWait, settle, Bool.not_false, if_true]
    exact ⟨trivial, trivial, writeTimedOut_ne_nil error⟩
  | some reply =>
    cases reply with
    | err payload =>
      apply failed payload
      · intro hp
        rw [hp] at hne
        exact hne rfl
      · rfl
    | ok payload =>
      rcases settle_ok payload with ⟨e, hd, -⟩ | ⟨text, ht, -, hs⟩
      · exact absurd ⟨e, payload, rfl, hd⟩ h
      · exact failed text ht hs

/-- A query either waits with a fresh state, or has already failed with a non-empty error. -/
theorem startQuery_cases (request : TransportEnvelope) (response : Option TransportEnvelope)
    (error : Option Bytes) (get : GetOutcome) (hget : get ≠ .threw []) :
    (∃ prior, startQuery request response error get = { response := some prior, error }) ∨
    ((startQuery request response error get).returned = some false ∧
      (startQuery request response error get).response = response ∧
      (startQuery request response error get).error ≠ some []) := by
  unfold startQuery
  cases response with
  | none => exact Or.inr ⟨rfl, rfl, setError_ne_nil (by decide) error⟩
  | some prior =>
    by_cases hf : request.Fits
    · rw [encodeEnvelope_of_fits request hf]
      cases get with
      | sent => exact Or.inl ⟨prior, rfl⟩
      | threw what =>
        refine Or.inr ⟨rfl, rfl, ?_⟩
        cases error with
        | none => simp
        | some old =>
          intro hw
          apply hget
          simpa using hw
    · obtain ⟨text, ht, h1, h2⟩ := encodeEnvelope_rejected request hf (some []) error
      dsimp only
      split
      · next error' heq =>
        rw [heq] at h2
        refine Or.inr ⟨rfl, rfl, ?_⟩
        dsimp only at h2 ⊢
        rw [h2]
        exact setError_ne_nil (encodeErrors_ne_nil text ht) error
      · next heq =>
        rw [heq] at h1
        exact absurd h1 (by simp)

end NetBridge.Transport
