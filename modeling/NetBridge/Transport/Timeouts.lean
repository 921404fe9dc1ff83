import NetBridge.Transport.Queryable

/-!
# Rejections and timeouts

What a client of a service learns of a rejection,
`src/swarm_ros_bridge/src/transport/zenoh_transport.cpp:33–42,455–479,558–577`. The text of the
handler comes back in an error reply, which `Query` takes for a timeout by its words.
-/

namespace NetBridge.Transport

open NetBridge.Base

/-- An answer as Zenoh delivers it to the client. -/
def QueryAnswer.toReply : QueryAnswer → Reply
  | .reply _ payload => .ok payload
  | .replyErr payload => .err payload

/-- The handler rejects its request with a text. -/
def HandlerOutcome.Rejects (outcome : HandlerOutcome) (text : Bytes) : Prop :=
  (∃ response, outcome = .returned false response text) ∨ outcome = .threw text

/-- A query that the handler has answered: a rejection comes back with its text, and no timeout is
counted. -/
structure ReportsHandler (outcome : HandlerOutcome) (call : QueryCall) (events : List QueryEvent) :
    Prop where
  rejection : ∀ text, text ≠ [] → outcome.Rejects text →
    (call.run events).returned = some false ∧
      (call.run events).error = writePointer text call.error
  timeouts : (call.run events).serviceTimeouts = call.serviceTimeouts

/-! ## Answers -/

/-- A rejection is answered by its text. -/
theorem jobAnswer_of_rejects {key text : Bytes} {outcome : HandlerOutcome}
    (h : outcome.Rejects text) (hne : text ≠ []) :
    jobAnswer key outcome = some (.replyErr text) := by
  rcases h with ⟨response, rfl⟩ | rfl
  · rw [jobAnswer, if_neg hne]
  · rfl

/-- An error answer has the text of a rejection, or one of the transport. -/
theorem jobAnswer_eq_replyErr {key text : Bytes} {outcome : HandlerOutcome}
    (h : jobAnswer key outcome = some (.replyErr text)) :
    outcome.Rejects text ∨ text = ascii "service handler rejected request" ∨
      ∃ error ∈ encodeErrors, text = ascii error := by
  unfold jobAnswer at h
  split at h
  · next response error =>
    split at h
    · cases h
      exact Or.inr (Or.inl rfl)
    · cases h
      exact Or.inl (Or.inl ⟨response, rfl⟩)
  · next response error =>
    by_cases hfits : response.Fits
    · rw [encodeEnvelope_of_fits response hfits] at h
      cases h
    · obtain ⟨text', htext, hfalse, herror⟩ :=
        encodeEnvelope_rejected response hfits (some []) (some error)
      split at h
      · cases h
      · next hencode =>
        rw [hencode] at herror
        cases h
        refine Or.inr (Or.inr ⟨text', htext, ?_⟩)
        dsimp only at herror
        rw [herror]
        rfl
  · cases h
    exact Or.inl (Or.inr rfl)
  · cases h

/-- No text of the encoder has the words of a timeout. -/
theorem encodeErrors_not_timeout :
    ∀ error ∈ encodeErrors, isTimeoutError (ascii error) = false := by
  decide

/-! ## The client -/

/-- A query that a reply reaches is waiting for it. -/
theorem startQuery_of_delivered {request : TransportEnvelope}
    {response : Option TransportEnvelope} {error : Option Bytes} {get : GetOutcome}
    {events : List QueryEvent} {reply : Reply}
    (h : delivered (startQuery request response error get) events = some reply) :
    ∃ prior, startQuery request response error get = { response := some prior, error } := by
  have hwaits : (startQuery request response error get).returned = none := by
    cases hreturned : (startQuery request response error get).returned with
    | none => rfl
    | some b =>
      rw [delivered_of_returned hreturned] at h
      cases h
  unfold startQuery at hwaits ⊢
  cases response with
  | none => cases hwaits
  | some prior =>
    by_cases hfits : request.Fits
    · rw [encodeEnvelope_of_fits request hfits] at hwaits ⊢
      cases get with
      | sent => exact ⟨prior, rfl⟩
      | threw what => cases hwaits
    · have hfalse := encodeEnvelope_of_not_fits request hfits (some []) error
      dsimp only at hwaits ⊢
      split at hwaits
      · cases hwaits
      · next hencode =>
        rw [hencode] at hfalse
        cases hfalse

/-- What an error reply with a text leaves. -/
theorem outcome_of_err {text : Bytes} (hne : text ≠ []) (prior : TransportEnvelope)
    (error : Option Bytes) :
    outcome (some (.err text)) prior error =
      if isTimeoutError text then
        { state := { received := true, error := text }, returned := some false
          response := some prior, error := writePointer timedOut error, serviceTimeouts := 1 }
      else
        { state := { received := true, error := text }, returned := some false
          response := some prior, error := writePointer text error } := by
  have hstate : settle (some (.err text)) = { received := true, error := text } := rfl
  simp only [outcome, endWait, hstate, Bool.not_true, Bool.false_eq_true, if_false, ne_eq, hne,
    not_false_eq_true, if_true]
  rfl

/-- An error reply counts a timeout exactly if its text has the words of one. -/
theorem timeouts_of_err (text : Bytes) (prior : TransportEnvelope) (error : Option Bytes) :
    (outcome (some (.err text)) prior error).serviceTimeouts =
      if isTimeoutError text then 1 else 0 := by
  by_cases hne : text = []
  · rw [hne]
    rfl
  · rw [outcome_of_err hne]
    split <;> rfl

/-- A reply that decodes counts no timeout. -/
theorem timeouts_of_frame {response : TransportEnvelope} (hfits : response.Fits)
    (prior : TransportEnvelope) (error : Option Bytes) :
    (outcome (some (.ok (frame 0 response))) prior error).serviceTimeouts = 0 := by
  have hdata : vectorData (frame 0 response) = some (frame 0 response) :=
    if_neg (by simp [frame, show kMagic ≠ [] from by decide])
  rcases settle_ok (frame 0 response) with ⟨_, -, hsettle⟩ | ⟨_, -, hfalse, -⟩
  · simp only [outcome, endWait, hsettle]
    rfl
  · rw [hdata, decodeEnvelope_frame response hfits] at hfalse
    cases hfalse

/-- The answers of a handler that count no timeout. -/
theorem timeouts_of_answer {key : Bytes} {handler : HandlerOutcome} {answer : QueryAnswer}
    (h : jobAnswer key handler = some answer) (prior : TransportEnvelope) (error : Option Bytes) :
    (outcome (some answer.toReply) prior error).serviceTimeouts = 0 ↔
      ∀ text, handler.Rejects text → isTimeoutError text = false := by
  cases answer with
  | reply replyKey wire =>
    obtain ⟨-, response, error', rfl, hencode⟩ := jobAnswer_eq_reply.mp h
    have hfits := (encodeEnvelope_ok_iff response [] (some error')).mp (by rw [hencode])
    rw [encodeEnvelope_of_fits response hfits] at hencode
    cases hencode
    constructor
    · rintro - text (⟨_, hrejects⟩ | hrejects)
      · cases hrejects
      · cases hrejects
    · exact fun _ ↦ timeouts_of_frame hfits prior error
  | replyErr text =>
    show (outcome (some (.err text)) prior error).serviceTimeouts = 0 ↔ _
    rw [timeouts_of_err]
    constructor
    · intro hzero text' hrejects
      by_cases hne : text' = []
      · rw [hne]
        rfl
      · have hsame := Option.some.inj (h.symm.trans (jobAnswer_of_rejects hrejects hne))
        cases hsame
        cases hwords : isTimeoutError text with
        | false => rfl
        | true =>
          rw [hwords] at hzero
          cases hzero
    · intro hwords
      have hfalse : isTimeoutError text = false := by
        rcases jobAnswer_eq_replyErr h with hrejects | rfl | ⟨error', herror, rfl⟩
        · exact hwords text hrejects
        · decide
        · exact encodeErrors_not_timeout error' herror
      rw [hfalse]
      rfl

/-- A query that the answer of a handler reaches in time reports what the handler did, exactly if
the handler does not reject with the words of a timeout. -/
theorem reports_handler_iff {key : Bytes} {handler : HandlerOutcome} {answer : QueryAnswer}
    (hanswer : jobAnswer key handler = some answer) {request : TransportEnvelope}
    {response : Option TransportEnvelope} {error : Option Bytes} {get : GetOutcome}
    {events : List QueryEvent}
    (hreply : delivered (startQuery request response error get) events = some answer.toReply)
    (hreturned : ((startQuery request response error get).run events).returned.isSome = true) :
    ReportsHandler handler (startQuery request response error get) events ↔
      ∀ text, handler.Rejects text → isTimeoutError text = false := by
  obtain ⟨prior, hstart⟩ := startQuery_of_delivered hreply
  rw [hstart] at hreply hreturned ⊢
  obtain ⟨b, hb⟩ := Option.isSome_iff_exists.mp hreturned
  obtain ⟨hret, -, herror, htimeouts⟩ :=
    @run_outcome _ none prior _ events rfl ⟨rfl, rfl, rfl⟩ rfl hb
  rw [Option.none_or, hreply] at hret herror htimeouts
  rw [UInt64.zero_add] at htimeouts
  have hcounted := timeouts_of_answer hanswer prior error
  constructor
  · intro hreports
    exact hcounted.mp (htimeouts.symm.trans hreports.timeouts)
  · intro hwords
    refine ⟨?_, htimeouts.trans (hcounted.mpr hwords)⟩
    intro text hne hrejects
    have hsame : answer = .replyErr text :=
      Option.some.inj (hanswer.symm.trans (jobAnswer_of_rejects hrejects hne))
    have hout := outcome_of_err hne prior error
    rw [hwords text hrejects] at hout
    rw [hb, hret, herror, hsame]
    show (outcome (some (.err text)) prior error).returned = _ ∧
      (outcome (some (.err text)) prior error).error = _
    rw [hout]
    exact ⟨rfl, rfl⟩

/-- A busy service. -/
theorem reports_handler_iff_busy :
    ReportsHandler (.returned false {} (ascii "busy")) (startQuery {} (some {}) (some []) .sent)
      [.reply (.err (ascii "busy")), .resume] := by
  have hanswer : jobAnswer [] (.returned false {} (ascii "busy")) =
      some (.replyErr (ascii "busy")) := by decide
  apply (reports_handler_iff hanswer (by decide) (by decide)).mpr
  rintro text (⟨_, hrejects⟩ | hrejects)
  · cases hrejects
    decide
  · cases hrejects

/-- A service that rejects because of a timeout of its own. -/
theorem rejection_counted_as_timeout :
    jobAnswer [] (.returned false {} (ascii "motor timeout")) =
        some (.replyErr (ascii "motor timeout")) ∧
      ¬ReportsHandler (.returned false {} (ascii "motor timeout"))
        (startQuery {} (some {}) (some []) .sent)
        [.reply (.err (ascii "motor timeout")), .resume] := by
  refine ⟨by decide, fun hreports ↦ ?_⟩
  have htimeouts := hreports.timeouts
  revert htimeouts
  decide

end NetBridge.Transport
