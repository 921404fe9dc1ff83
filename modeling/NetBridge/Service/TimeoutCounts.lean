import NetBridge.Service.Calls

/-!
# Timeouts of service calls

Two counters of timeouts: `timeout_count_` of a proxy,
`src/swarm_ros_bridge/src/service_factory.cpp:82–87`, goes by the words of the error, and
`service_timeouts_` of its transport, `src/transport/zenoh_transport.cpp:562–572`, by how the query
ended.
-/

namespace NetBridge.Service

open NetBridge.Base NetBridge.Transport

/-- `get` threw an exception with the words of a timeout. -/
def ProxyCall.threwTimeout {ι : Type} (call : ProxyCall ι) : Bool :=
  match call.get with
  | some (.threw what) =>
    (encodeEnvelope call.request (some []) (some [])).1 && containsBytes what (ascii "timed out")
  | _ => false

/-- The query of a call has counted a timeout of its transport. -/
def ProxyCall.countedTimeout {ι : Type} (call : ProxyCall ι) : Bool :=
  (call.query.map QueryCall.serviceTimeouts).getD 0 ≠ 0

/-- The call is over, by a timeout that the transport counted or by an exception that has the words
of one. -/
def ProxyCall.timedOut {ι : Type} (call : ProxyCall ι) : Bool :=
  call.result.isSome && (call.countedTimeout || call.threwTimeout)

/-- What ends a call by a timeout: `get` throws the words of one, no reply comes in time, or an
error reply has the words. -/
inductive ProxyCall.TimeoutCause {ι : Type} (call : ProxyCall ι) : Prop where
  | threw {what : Bytes} (get : call.get = some (.threw what))
      (words : containsBytes what (ascii "timed out") = true)
  | expired (get : call.get = some .sent) (silent : call.delivered = none)
  | told {text : Bytes} (reply : call.delivered = some (.err text))
      (words : isTimeoutError text = true)

/-! ## The words of an error -/

private theorem isPrefixOf_map {f : UInt8 → UInt8} {part s : Bytes}
    (h : part.isPrefixOf s = true) : (part.map f).isPrefixOf (s.map f) = true := by
  rw [List.isPrefixOf_iff_prefix] at h ⊢
  exact h.map f

/-- A part of a text is found in the mapped text as well. -/
theorem containsBytes_map {f : UInt8 → UInt8} {s part : Bytes} (h : containsBytes s part = true) :
    containsBytes (s.map f) (part.map f) = true := by
  induction s with
  | nil =>
    cases part with
    | nil => rfl
    | cons c part => cases h
  | cons c s ih =>
    simp only [containsBytes, Bool.or_eq_true] at h
    rw [List.map_cons, containsBytes, Bool.or_eq_true]
    rcases h with h | h
    · exact Or.inl (isPrefixOf_map h)
    · exact Or.inr (ih h)

/-- The proxy's words are among the transport's. -/
theorem isTimeoutError_of_contains {text : Bytes}
    (h : containsBytes text (ascii "timed out") = true) : isTimeoutError text = true := by
  have hlower : containsBytes (text.map toLower) ((ascii "timed out").map toLower) = true :=
    containsBytes_map h
  have hsame : (ascii "timed out").map toLower = ascii "timed out" := by decide
  rw [hsame] at hlower
  rw [isTimeoutError, hlower, Bool.or_true]

/-- No text of the decoder is empty or has the words of a timeout. -/
theorem decodeErrors_not_timeout :
    ∀ text ∈ "input or envelope is null" :: decodeErrors,
      ascii text ≠ [] ∧ isTimeoutError (ascii text) = false := by
  decide

/-- A text without the words of a timeout counts for neither. -/
theorem contains_of_not_timeout {text : Bytes} (h : isTimeoutError text = false) :
    containsBytes text (ascii "timed out") = false := by
  apply Bool.eq_false_iff.mpr
  intro hcontains
  rw [isTimeoutError_of_contains hcontains] at h
  cases h

/-! ## One query -/

private theorem settle_ok_cases (payload : Bytes) :
    (∃ e, settle (some (.ok payload)) = { received := true, response := e }) ∨
      ∃ text ∈ "input or envelope is null" :: decodeErrors,
        settle (some (.ok payload)) = { received := true, error := ascii text } := by
  by_cases hempty : payload = []
  · rw [hempty]
    exact Or.inr ⟨_, List.mem_cons_self, rfl⟩
  · have hdata : vectorData payload = some payload := if_neg hempty
    cases hdecode : (decodeEnvelope (some payload) (some {}) (some [])).1 with
    | true =>
      obtain ⟨e, flags, -, -, he⟩ := decodeEnvelope_sound payload {} (some []) hdecode
      refine Or.inl ⟨e, ?_⟩
      simp [settle, onReply, hdata, he]
    | false =>
      obtain ⟨text, htext, he⟩ := decodeEnvelope_rejected payload {} (some []) hdecode
      refine Or.inr ⟨text, List.mem_cons_of_mem _ htext, ?_⟩
      simp [settle, onReply, hdata, he, setError]

/-- A query that a reply or the end of its wait decides has the proxy's words in its error exactly
if the transport counted a timeout, which it never does if it returned true. -/
theorem countsTimeout_outcome (first : Option Reply) :
    ((outcome first {} (some [])).returned = some false →
      countsTimeout (outcome first {} (some [])) =
        decide ((outcome first {} (some [])).serviceTimeouts ≠ 0)) ∧
    ((outcome first {} (some [])).returned = some true →
      (outcome first {} (some [])).serviceTimeouts = 0) := by
  have hwords : containsBytes timedOut (ascii "timed out") = true := by decide
  -- The flag decides which side says something.
  have hno : ∀ {b b' : Bool} {P : Prop}, b ≠ b' → some b = some b' → P :=
    fun hne heq ↦ absurd (Option.some.inj heq) hne
  cases first with
  | none => exact ⟨fun _ ↦ hwords, hno Bool.false_ne_true⟩
  | some reply =>
    cases reply with
    | err text =>
      by_cases hempty : text = []
      · rw [hempty]
        exact ⟨hno Bool.false_ne_true.symm, fun _ ↦ rfl⟩
      · rw [outcome_of_err hempty]
        split
        · exact ⟨fun _ ↦ hwords, hno Bool.false_ne_true⟩
        · next hnot =>
          exact ⟨fun _ ↦ contains_of_not_timeout (Bool.not_eq_true _ ▸ hnot),
            hno Bool.false_ne_true⟩
    | ok payload =>
      rcases settle_ok_cases payload with ⟨e, hsettle⟩ | ⟨text, htext, hsettle⟩
      · simp only [outcome, endWait, hsettle]
        exact ⟨hno Bool.false_ne_true.symm, fun _ ↦ rfl⟩
      · rcases decodeErrors_not_timeout text htext with ⟨hne, hnot⟩
        simp only [outcome, endWait, hsettle, Bool.not_true, Bool.false_eq_true, if_false, ne_eq,
          hne, not_false_eq_true, if_true, hnot]
        exact ⟨fun _ ↦ contains_of_not_timeout hnot, hno Bool.false_ne_true⟩

/-- The transport counts a timeout where no reply came in time, or an error reply with the words of
one. -/
theorem serviceTimeouts_outcome (first : Option Reply) :
    (outcome first {} (some [])).serviceTimeouts ≠ 0 ↔
      first = none ∨ ∃ text, first = some (.err text) ∧ isTimeoutError text = true := by
  have hone : (1 : UInt64) ≠ 0 := by decide
  cases first with
  | none => exact iff_of_true hone (Or.inl rfl)
  | some reply =>
    cases reply with
    | err text =>
      have hright : (some (Reply.err text) = none ∨ ∃ text', some (Reply.err text) =
          some (.err text') ∧ isTimeoutError text' = true) ↔ isTimeoutError text = true := by
        simp
      rw [hright]
      by_cases hempty : text = []
      · rw [hempty]
        exact iff_of_false (not_not_intro rfl) (by decide)
      · rw [outcome_of_err hempty]
        split
        · next hwords => exact iff_of_true hone hwords
        · next hnot => exact iff_of_false (not_not_intro rfl) hnot
    | ok payload =>
      apply iff_of_false
      · rcases settle_ok_cases payload with ⟨e, hsettle⟩ | ⟨text, htext, hsettle⟩
        · simp [outcome, endWait, hsettle]
        · simp [outcome, endWait, hsettle, decodeErrors_not_timeout text htext]
      · rintro (hnone | ⟨text, htext, -⟩)
        · cases hnone
        · cases htext

namespace ProxyCall

variable {ι : Type} {call : ProxyCall ι}

private theorem countedTimeout_eq {query : QueryCall} (hquery : call.query = some query) :
    call.countedTimeout = decide (query.serviceTimeouts ≠ 0) := by
  rw [countedTimeout, hquery]
  rfl

private theorem startQuery_cases {get : GetOutcome} (hget : call.get = some get) :
    (call.request.Fits ∧ get = .sent ∧ call.threwTimeout = false ∧
      startQuery call.request (some {}) (some []) get =
        { response := some {}, error := some [] }) ∨
    (∃ what, call.request.Fits ∧ get = .threw what ∧
      call.threwTimeout = containsBytes what (ascii "timed out") ∧
      startQuery call.request (some {}) (some []) get =
        { returned := some false, response := some {}, error := some what }) ∨
    ∃ text ∈ encodeErrors, ¬call.request.Fits ∧ call.threwTimeout = false ∧
      startQuery call.request (some {}) (some []) get =
        { returned := some false, response := some {}, error := some (ascii text) } := by
  unfold startQuery
  by_cases hfits : call.request.Fits
  · unfold threwTimeout
    rw [hget, encodeEnvelope_of_fits call.request hfits]
    cases get with
    | sent => exact Or.inl ⟨hfits, rfl, rfl, rfl⟩
    | threw what => exact Or.inr (Or.inl ⟨what, hfits, rfl, Bool.true_and _, rfl⟩)
  · have hfalse := encodeEnvelope_of_not_fits call.request hfits (some []) (some [])
    rcases encodeEnvelope_rejected call.request hfits (some []) (some []) with
      ⟨text, htext, -, herror⟩
    have hthrew : call.threwTimeout = false := by
      unfold threwTimeout
      rw [hget, hfalse]
      cases get with
      | sent => rfl
      | threw what => exact Bool.false_and _
    refine Or.inr (Or.inr ⟨text, htext, hfits, hthrew, ?_⟩)
    dsimp only
    split
    · next error hencode =>
      rw [hencode] at herror
      cases herror
      rfl
    · next hencode =>
      rw [hencode] at hfalse
      cases hfalse

private theorem startQuery_error {get : GetOutcome} (hget : call.get = some get) :
    (startQuery call.request (some {}) (some []) get =
        { response := some {}, error := some [] } ∧ call.threwTimeout = false) ∨
      ∃ text, startQuery call.request (some {}) (some []) get =
          { returned := some false, response := some {}, error := some text } ∧
        containsBytes text (ascii "timed out") = call.threwTimeout := by
  rcases startQuery_cases hget with ⟨-, -, hthrew, hstart⟩ | ⟨what, -, -, hthrew, hstart⟩ |
    ⟨text, htext, -, hthrew, hstart⟩
  · exact Or.inl ⟨hstart, hthrew⟩
  · exact Or.inr ⟨what, hstart, hthrew.symm⟩
  · exact Or.inr ⟨ascii text, hstart,
      (contains_of_not_timeout (encodeErrors_not_timeout text htext)).trans hthrew.symm⟩

/-- A call whose query has failed counts a timeout exactly if the transport did or an exception has
its words; one whose query has returned true has neither. -/
theorem countsTimeout_query {query : QueryCall} {b : Bool} (hquery : call.query = some query)
    (hreturned : query.returned = some b) :
    (call.countedTimeout || call.threwTimeout) = (!b && countsTimeout query) := by
  rw [countedTimeout_eq hquery]
  rcases Option.map_eq_some_iff.mp hquery with ⟨get, hget, rfl⟩
  rcases startQuery_error hget with ⟨hwaits, hthrew⟩ | ⟨text, hfails, hthrew⟩
  · rw [hwaits] at hreturned ⊢
    obtain ⟨hb, -, herror, htimeouts⟩ :=
      @run_outcome _ none {} _ call.events rfl ⟨rfl, rfl, rfl⟩ rfl hreturned
    rw [Option.none_or] at hb herror htimeouts
    rw [UInt64.zero_add] at htimeouts
    have hwords := countsTimeout_outcome (Transport.delivered
      { response := some {}, error := some [] } call.events)
    rw [hthrew, Bool.or_false, htimeouts, countsTimeout, herror]
    cases b with
    | false => exact (hwords.1 hb.symm).symm
    | true =>
      rw [hwords.2 hb.symm]
      rfl
  · rw [hfails] at hreturned ⊢
    obtain ⟨hb, -, herror, htimeouts⟩ := @run_of_returned
      { returned := some false, response := some {}, error := some text } false rfl call.events
    rw [hb] at hreturned
    cases hreturned
    rw [htimeouts, countsTimeout, herror, ← hthrew]
    rfl

/-- A call whose query is over has ended by a timeout exactly if it has a cause of one. -/
theorem timeoutCause_iff {query : QueryCall} {b : Bool} (hquery : call.query = some query)
    (hreturned : query.returned = some b) :
    (call.countedTimeout || call.threwTimeout) = true ↔
      call.request.Fits ∧ call.TimeoutCause := by
  rw [countedTimeout_eq hquery, Bool.or_eq_true, decide_eq_true_eq]
  rcases Option.map_eq_some_iff.mp hquery with ⟨get, hget, rfl⟩
  have hdelivered : call.delivered =
      Transport.delivered (startQuery call.request (some {}) (some []) get) call.events := by
    rw [delivered, hget, Option.bind_some]
  rcases startQuery_cases hget with ⟨hfits, rfl, hthrew, hstart⟩ |
    ⟨what, hfits, rfl, hthrew, hstart⟩ | ⟨text, -, hfits, hthrew, hstart⟩
  · -- The query waits, and its outcome goes by the first reply.
    rw [hstart] at hreturned hdelivered ⊢
    obtain ⟨-, -, -, htimeouts⟩ :=
      @run_outcome _ none {} _ call.events rfl ⟨rfl, rfl, rfl⟩ rfl hreturned
    rw [Option.none_or, UInt64.zero_add, ← hdelivered] at htimeouts
    rw [htimeouts, serviceTimeouts_outcome, hthrew]
    constructor
    · rintro ((hnone | ⟨text, htext, hwords⟩) | hfalse)
      · exact ⟨hfits, .expired hget hnone⟩
      · exact ⟨hfits, .told htext hwords⟩
      · cases hfalse
    · rintro ⟨-, hcause⟩
      cases hcause with
      | threw get words => cases hget.symm.trans get
      | expired get silent => exact Or.inl (Or.inl silent)
      | told reply words => exact Or.inl (Or.inr ⟨_, reply, words⟩)
  · rw [hstart] at hdelivered ⊢
    obtain ⟨-, -, -, htimeouts⟩ := @run_of_returned
      { returned := some false, response := some {}, error := some what } false rfl call.events
    rw [delivered_of_returned rfl] at hdelivered
    rw [htimeouts, hthrew]
    constructor
    · rintro (hzero | hwords)
      · exact absurd rfl hzero
      · exact ⟨hfits, .threw hget hwords⟩
    · rintro ⟨-, hcause⟩
      cases hcause with
      | threw get words =>
        cases hget.symm.trans get
        exact Or.inr words
      | expired get silent => cases hget.symm.trans get
      | told reply words => cases hdelivered.symm.trans reply
  · rw [hstart, hthrew]
    obtain ⟨-, -, -, htimeouts⟩ := @run_of_returned
      { returned := some false, response := some {}, error := some (ascii text) } false rfl
      call.events
    rw [htimeouts]
    apply iff_of_false
    · rintro (hzero | hfalse)
      · exact hzero rfl
      · cases hfalse
    · exact fun hcause ↦ hfits hcause.1

/-- Events after the end of the query change nothing of this. -/
theorem timedOut_concat {query : QueryCall} {b : Bool} (hquery : call.query = some query)
    (hreturned : query.returned = some b) (event : QueryEvent) :
    { call with events := call.events ++ [event] }.timedOut = call.timedOut := by
  rcases query_concat hquery hreturned event with ⟨query', hquery', -, -, -, htimeouts⟩
  unfold timedOut countedTimeout
  rw [hquery, hquery', Option.map_some, Option.map_some, htimeouts]
  rfl

end ProxyCall

namespace Rpc

variable {ι : Type} [DecidableEq ι]

/-- The calls of a proxy that are over by a timeout. -/
def timeouts (s : Rpc ι) (p : ι) : Nat :=
  s.calls.countP fun call ↦ decide (call.proxy = p) && call.timedOut

variable {types : List ServiceType} {configs : ι → ServiceConfig} {server : ServiceConfig}
  {s s' : Rpc ι}

/-- The counters of all proxies are those of their calls. -/
def Counted (s : Rpc ι) : Prop := ∀ p, (s.proxies p).timeoutCount = UInt64.ofNat (s.timeouts p)

private theorem counted_setCall (hs : s.Counted) {id : Nat} {call call' : ProxyCall ι}
    (hcall : s.calls[id]? = some call) (hproxy : call'.proxy = call.proxy)
    (htimedOut : call'.timedOut = call.timedOut) : (s.setCall id call').Counted := by
  intro p
  have hcount := countP_set_add (p := fun call ↦ decide (call.proxy = p) && call.timedOut)
    (b := call') hcall
  rw [hproxy, htimedOut] at hcount
  rw [timeouts, setCall, Nat.add_right_cancel hcount]
  exact hs p

private theorem counted_concat (hs : s.Counted) (ht : s.Traced types configs server) {id : Nat}
    {call : ProxyCall ι} (hcall : s.calls[id]? = some call) (event : QueryEvent) :
    (s.setCall id { call with events := call.events ++ [event] }).Counted := by
  apply counted_setCall hs hcall
  · rfl
  · cases hresult : call.result with
    | none => simp only [ProxyCall.timedOut, hresult, Option.isSome_none, Bool.false_and]
    | some result =>
      rcases (ht.calls id call hcall).result result hresult with ⟨query, b, hquery, hreturned, -⟩
      rw [← hresult]
      exact ProxyCall.timedOut_concat hquery hreturned event

private theorem counted_finish (hs : s.Counted) {id : Nat}
    (h : s.step types configs server (.finish id) = some s') : s'.Counted := by
  rcases Option.bind_eq_some_iff.mp h with ⟨call, hcall, h⟩
  split at h
  · next query hresult hquery =>
    have hbefore : call.timedOut = false := by
      rw [ProxyCall.timedOut, hresult]
      rfl
    unfold finishCall at h
    split at h
    · cases h
    · next hreturned =>
      cases h
      apply counted_setCall hs hcall
      · rfl
      · exact (ProxyCall.countsTimeout_query hquery hreturned).trans hbefore.symm
    · next hreturned =>
      cases h
      have hafter : ∀ result, ({ call with result := some result } : ProxyCall ι).timedOut =
          countsTimeout query :=
        fun _ ↦ (ProxyCall.countsTimeout_query hquery hreturned)
      intro p
      have hcount := countP_set_add (b := { call with result := some none })
        (p := fun call ↦ decide (call.proxy = p) && call.timedOut) hcall
      simp only [hbefore, hafter, Bool.and_false, Bool.false_eq_true, if_false,
        Nat.add_zero] at hcount
      rw [timeouts, setCall, setProxy]
      dsimp only
      rw [hcount]
      by_cases hp : call.proxy = p
      · rw [← hp, Function.update_self, decide_eq_true rfl, Bool.true_and]
        cases hwords : countsTimeout query with
        | false => exact hs call.proxy
        | true =>
          simp only [if_true]
          rw [UInt64.ofNat_add, hs call.proxy]
          rfl
      · rw [Function.update_of_ne (Ne.symm hp), decide_eq_false hp, Bool.false_and,
          if_neg Bool.false_ne_true]
        exact hs p
  · cases h

/-- Every step counts the timeouts. -/
theorem counted_step (s : Rpc ι) (a : RpcAction ι) (s' : Rpc ι)
    (hs : s.Traced types configs server ∧ s.Counted)
    (h : s.step types configs server a = some s') :
    s'.Traced types configs server ∧ s'.Counted := by
  rcases hs with ⟨ht, hs⟩
  refine ⟨traced_step s a s' ht h, ?_⟩
  -- A step of the server leaves the proxies and their calls alone.
  have hserver : ∀ {a origins}, s.serverStep types server a origins = some s' → s'.Counted := by
    intro a origins h
    rcases Option.map_eq_some_iff.mp h with ⟨next, -, rfl⟩
    exact hs
  cases a with
  | «begin» p payload sourceTimeNs =>
    cases h
    intro q
    refine Eq.trans ?_ ((hs q).trans (congrArg UInt64.ofNat ?_))
    · show (Function.update s.proxies p _ q).timeoutCount = _
      by_cases hq : q = p
      · rw [hq, Function.update_self]
      · rw [Function.update_of_ne hq]
    · show _ = (s.calls ++ [_]).countP _
      rw [List.countP_append, List.countP_singleton, ProxyCall.timedOut]
      simp [timeouts]
  | get id outcome =>
    rcases Option.bind_eq_some_iff.mp h with ⟨call, hcall, h⟩
    split at h
    · next hget =>
      cases h
      apply counted_setCall hs hcall
      · rfl
      · cases hresult : call.result with
        | none => simp only [ProxyCall.timedOut, hresult, Option.isSome_none, Bool.false_and]
        | some result =>
          rcases (ht.calls id call hcall).result result hresult with ⟨query, b, hquery, -⟩
          rw [ProxyCall.query, hget] at hquery
          cases hquery
    · cases h
  | deliver id woken =>
    rcases Option.bind_eq_some_iff.mp h with ⟨call, hcall, h⟩
    split at h
    · split at h
      · exact hserver h
      · cases h
    · cases h
  | arrive payload woken => exact hserver h
  | serve w localCall sourceTimeNs => exact hserver h
  | executor a => exact hserver h
  | reply answer =>
    rcases Option.bind_eq_some_iff.mp h with ⟨answer, hanswer, h⟩
    split at h
    · rcases Option.map_eq_some_iff.mp h with ⟨call, hcall, rfl⟩
      exact counted_concat hs ht hcall _
    · cases h
  | event id event =>
    rcases Option.bind_eq_some_iff.mp h with ⟨call, hcall, h⟩
    split at h
    · cases h
    · cases h
    · cases h
      exact counted_concat hs ht hcall _
  | finish id => exact counted_finish hs h

end Rpc

/-- In every run the counter of a proxy is the number of its calls that are over and whose query
counted a timeout of the transport, or whose `get` threw the words of one. These are the calls with
an encoded request that got no reply in time, an error reply with the words of a timeout, or such an
exception. -/
theorem proxy_timeouts_counted {ι : Type} [DecidableEq ι] (types : List ServiceType)
    (configs : ι → ServiceConfig) (server : ServiceConfig) (threadCount capacity : Nat) (s : Rpc ι)
    (h : (rpc types configs server threadCount capacity).Reachable s) (p : ι) :
    (s.proxies p).timeoutCount = UInt64.ofNat (s.timeouts p) ∧
      ∀ (id : Nat) (call : ProxyCall ι), s.calls[id]? = some call →
        (call.timedOut = true ↔
          call.result.isSome = true ∧ call.request.Fits ∧ call.TimeoutCause) := by
  have hs : s.Traced types configs server ∧ s.Counted := by
    apply h.invariant (I := fun s ↦ s.Traced types configs server ∧ s.Counted)
    · rintro _ rfl
      exact ⟨Rpc.traced_of_reachable (.of_init rfl), fun _ ↦ rfl⟩
    · exact Rpc.counted_step
  refine ⟨hs.2 p, ?_⟩
  intro id call hcall
  rw [ProxyCall.timedOut, Bool.and_eq_true]
  refine and_congr_right fun hover ↦ ?_
  rcases Option.isSome_iff_exists.mp hover with ⟨result, hresult⟩
  rcases (hs.1.calls id call hcall).result result hresult with ⟨query, b, hquery, hreturned, -⟩
  exact ProxyCall.timeoutCause_iff hquery hreturned

/-- Of four calls one waits in vain, the session of one is closed, and two get error replies, one of
them with the words of a timeout. -/
theorem proxy_timeouts_counted_expired :
    ∃ s : Rpc Unit, s.calls.length = 4 ∧
      (s.proxies ()).timeoutCount = UInt64.ofNat (s.timeouts ()) ∧ s.timeouts () = 2 ∧
      ∃ call, s.calls[2]? = some call ∧ call.TimeoutCause := by
  have hrun : ((rpc exampleTypes (fun _ : Unit ↦ exampleService "ground")
      (exampleService "drone1") 1 4).run { server := .start 1 4 } [.begin () [] 0, .begin () [] 0,
        .get 0 .sent, .event 0 .expire, .get 1 (.threw (ascii "Zenoh session is closed")),
        .begin () [] 0, .begin () [] 0, .get 2 .sent, .get 3 .sent,
        .event 2 (.reply (.err (ascii "motor timeout"))),
        .event 3 (.reply (.err (ascii "motor is off"))), .event 3 .resume, .event 2 .resume,
        .event 0 .resume, .finish 1, .finish 0, .finish 2, .finish 3]).bind
      (fun s ↦ some (s.calls.length, s.timeouts (), s.calls[2]?.map ProxyCall.timedOut)) =
        some (4, 2, some true) := by
    decide +kernel
  rcases Option.bind_eq_some_iff.mp hrun with ⟨s, hs, hcounts⟩
  rcases Prod.mk.inj (Option.some.inj hcounts) with ⟨hlength, hcounts⟩
  rcases Prod.mk.inj hcounts with ⟨htimeouts, hsecond⟩
  rcases Option.map_eq_some_iff.mp hsecond with ⟨call, hcall, htimedOut⟩
  rcases proxy_timeouts_counted exampleTypes (fun _ ↦ exampleService "ground")
    (exampleService "drone1") 1 4 s ⟨_, _, rfl, hs⟩ () with ⟨hcounter, hcauses⟩
  exact ⟨s, hlength, hcounter, htimeouts, call, hcall, ((hcauses 2 call hcall).mp htimedOut).2.2⟩

end NetBridge.Service
