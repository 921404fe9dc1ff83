import NetBridge.Service.Server
import NetBridge.Transport.Timeouts

/-!
# Remote service calls

`ServiceFactory::call`, `src/swarm_ros_bridge/src/service_factory.cpp:62–106`, over `Query` and the
server of `Server`: any number of proxies with any number of calls at once. Zenoh may lose, delay
and repeat queries and replies and end a query with an error of its own; an ok reply to a query is
one that the server gave to it.
-/

namespace NetBridge.Service

open NetBridge.Base NetBridge.Transport

/-- The counters of a proxy; `service_factory.h:66–67`. -/
structure Proxy where
  sequence : UInt64 := 0
  timeoutCount : UInt64 := 0
deriving DecidableEq

/-- One run of `call`: its request, how `get` ended, the events of its query so far, and the bytes
of `params.response` if it has returned true, or nothing if false. -/
structure ProxyCall (ι : Type) where
  proxy : ι
  request : TransportEnvelope
  get : Option GetOutcome := none
  events : List QueryEvent := []
  result : Option (Option Bytes) := none
deriving DecidableEq

/-- The call of `Query`, once it has been made. -/
def ProxyCall.query {ι : Type} (call : ProxyCall ι) : Option QueryCall :=
  call.get.map fun get ↦ (startQuery call.request (some {}) (some []) get).run call.events

/-- The reply that `Query` goes by. -/
def ProxyCall.delivered {ι : Type} (call : ProxyCall ι) : Option Reply :=
  call.get.bind fun get ↦
    Transport.delivered (startQuery call.request (some {}) (some []) get) call.events

/-- The part of `call` behind a successful `Query`; `service_factory.cpp:88–105`. -/
def acceptResponse (types : List ServiceType) (config : ServiceConfig)
    (response : TransportEnvelope) : Option Bytes :=
  if response.payloadKind ≠ .serviceResponse ∨
      (validateEnvelopeMetadata response config.serviceType
        (getServiceMd5 types config.serviceType) (some [])).1 = false then none
  else some response.payload

/-- Whether `call` counts a timeout behind a failed `Query`; `service_factory.cpp:83–85`. -/
def countsTimeout (query : QueryCall) : Bool :=
  containsBytes (query.error.getD []) (ascii "timed out")

/-- The proxies with their calls, and the server. Each query of the server is that of a call, or it
comes from elsewhere. -/
structure Rpc (ι : Type) where
  proxies : ι → Proxy := fun _ ↦ {}
  calls : List (ProxyCall ι) := []
  server : ServiceServer
  origins : List (Option Nat) := []

/-- The atomic steps. -/
inductive RpcAction (ι : Type) where
  /-- A call builds its request. -/
  | begin (proxy : ι) (payload : Bytes) (sourceTimeNs : Int64)
  /-- The call gets to its wait, or `get` throws. -/
  | get (id : Nat) (outcome : GetOutcome)
  /-- The query of a call reaches the server. -/
  | deliver (id : Nat) (woken : Option Nat)
  /-- Another query on the key does. -/
  | arrive (payload : Option Bytes) (woken : Option Nat)
  | serve (w : Nat) (localCall : LocalCall) (sourceTimeNs : Int64)
  | executor (a : ExecutorAction QueryJob)
  /-- An answer of the server reaches the call that it is for. -/
  | reply (answer : Nat)
  /-- Any other event of the query of a call. -/
  | event (id : Nat) (event : QueryEvent)
  /-- `Query` has returned, and so does the call. -/
  | finish (id : Nat)

namespace Rpc

variable {ι : Type} [DecidableEq ι]

/-- A call moves on. -/
def setCall (s : Rpc ι) (id : Nat) (call : ProxyCall ι) : Rpc ι :=
  { s with calls := s.calls.set id call }

/-- A proxy moves on. -/
def setProxy (s : Rpc ι) (p : ι) (proxy : Proxy) : Rpc ι :=
  { s with proxies := Function.update s.proxies p proxy }

section

variable (types : List ServiceType) (configs : ι → ServiceConfig) (server : ServiceConfig)

/-- The server moves on, with the origin of a query. -/
def serverStep (s : Rpc ι) (a : ServerAction) (origins : List (Option Nat)) : Option (Rpc ι) :=
  (s.server.step types server a).map fun next ↦
    { s with server := next, origins := s.origins ++ origins }

/-- The end of `call`; `service_factory.cpp:82–105`. -/
def finishCall (s : Rpc ι) (id : Nat) (call : ProxyCall ι) (query : QueryCall) :
    Option (Rpc ι) :=
  match query.returned with
  | none => none
  | some true =>
    let result := acceptResponse types (configs call.proxy) (query.response.getD {})
    some (s.setCall id { call with result := some result })
  | some false =>
    let proxy := s.proxies call.proxy
    let timeoutCount := if countsTimeout query then proxy.timeoutCount + 1 else proxy.timeoutCount
    some ((s.setProxy call.proxy { proxy with timeoutCount }).setCall id
      { call with result := some none })

/-- One atomic step, where it is enabled. -/
def step (s : Rpc ι) : RpcAction ι → Option (Rpc ι)
  | .begin p payload sourceTimeNs =>
    let sequence := (s.proxies p).sequence + 1
    let request := buildRequest types (configs p) sequence sourceTimeNs payload
    let s := s.setProxy p { s.proxies p with sequence }
    some { s with calls := s.calls ++ [{ proxy := p, request }] }
  | .get id outcome =>
    s.calls[id]?.bind fun call ↦
      if call.get = none then some (s.setCall id { call with get := some outcome }) else none
  | .deliver id woken =>
    s.calls[id]?.bind fun call ↦
      match call.get, encodeEnvelope call.request (some []) (some []) with
      | some .sent, (true, wire, _) =>
        if (configs call.proxy).key = server.key then
          s.serverStep types server (.query wire woken) [some id]
        else none
      | _, _ => none
  | .arrive payload woken => s.serverStep types server (.query payload woken) [none]
  | .serve w localCall sourceTimeNs =>
    s.serverStep types server (.serve w localCall sourceTimeNs) []
  | .executor a => s.serverStep types server (.executor a) []
  | .reply answer =>
    s.server.queryable.answers[answer]?.bind fun answer ↦
      match s.origins[answer.1]? with
      | some (some id) =>
        s.calls[id]?.map fun call ↦
          s.setCall id { call with events := call.events ++ [.reply answer.2.toReply] }
      | _ => none
  | .event id event =>
    s.calls[id]?.bind fun call ↦
      match call.get, event with
      | none, _ | _, .reply (.ok _) => none
      | some _, event => some (s.setCall id { call with events := call.events ++ [event] })
  | .finish id =>
    s.calls[id]?.bind fun call ↦
      match call.result, call.query with
      | none, some query => s.finishCall types configs id call query
      | _, _ => none

end

end Rpc

/-- The proxies of a service and its server. -/
def rpc {ι : Type} [DecidableEq ι] (types : List ServiceType) (configs : ι → ServiceConfig)
    (server : ServiceConfig) (threadCount capacity : Nat) : Machine (Rpc ι) (RpcAction ι) where
  init s := s = { server := .start threadCount capacity }
  step := Rpc.step types configs server

/-! ## One call -/

namespace ProxyCall

variable {ι : Type} {call : ProxyCall ι}

/-- A query of a call that has returned stays as it is. -/
theorem query_concat {query : QueryCall} {b : Bool} (hquery : call.query = some query)
    (hreturned : query.returned = some b) (event : QueryEvent) :
    ∃ query', { call with events := call.events ++ [event] }.query = some query' ∧
      query'.returned = some b ∧ query'.response = query.response ∧
      query'.error = query.error ∧ query'.serviceTimeouts = query.serviceTimeouts := by
  rcases Option.map_eq_some_iff.mp hquery with ⟨get, hget, rfl⟩
  refine ⟨_, congrArg (Option.map _) hget, ?_⟩
  simp only [QueryCall.run, List.foldl_append]
  exact run_of_returned hreturned [event]

/-- The reply that a query goes by is one of its events. -/
theorem mem_of_delivered {query : QueryCall} {events : List QueryEvent} {reply : Reply}
    (h : Transport.delivered query events = some reply) : .reply reply ∈ events := by
  induction events generalizing query with
  | nil => cases h
  | cons event events ih =>
    unfold Transport.delivered at h
    split at h
    · cases h
    · cases h
      exact List.mem_cons_self
    · exact List.mem_cons_of_mem _ (ih h)

/-- `Query` either waits with nothing received, or it has failed. -/
theorem startQuery_waits_or_fails (request : TransportEnvelope) (get : GetOutcome) :
    startQuery request (some {}) (some []) get = { response := some {}, error := some [] } ∨
      (startQuery request (some {}) (some []) get).returned = some false := by
  unfold startQuery
  by_cases hfits : request.Fits
  · rw [encodeEnvelope_of_fits request hfits]
    cases get with
    | sent => exact Or.inl rfl
    | threw what => exact Or.inr rfl
  · have hfalse := encodeEnvelope_of_not_fits request hfits (some []) (some [])
    dsimp only
    split
    · exact Or.inr rfl
    · next hencode =>
      rw [hencode] at hfalse
      cases hfalse

/-- A query that has returned true goes by an ok reply that decodes, or by an error reply without
bytes. -/
theorem query_returned_true {query : QueryCall} (hquery : call.query = some query)
    (hreturned : query.returned = some true) :
    (∃ e, Carries call.delivered e ∧ query.response = some e) ∨
      query.response = some {} := by
  rcases Option.map_eq_some_iff.mp hquery with ⟨get, hget, rfl⟩
  rw [delivered, hget, Option.bind_some]
  rcases startQuery_waits_or_fails call.request get with hwaits | hfails
  · rw [hwaits] at hreturned ⊢
    obtain ⟨htrue, hresponse, -, -⟩ :=
      @run_outcome _ none {} _ call.events rfl ⟨rfl, rfl, rfl⟩ rfl hreturned
    rw [Option.none_or] at htrue hresponse
    by_cases hcarries : ∃ e, Carries
        (Transport.delivered { response := some {}, error := some [] } call.events) e
    · obtain ⟨e, hcarries⟩ := hcarries
      refine Or.inl ⟨e, hcarries, ?_⟩
      rw [hresponse, (outcome_of_carries hcarries {} (some [])).2]
    · apply Or.inr
      by_cases hempty : Transport.delivered { response := some {}, error := some [] }
          call.events = some (.err [])
      · rw [hresponse, hempty]
        rfl
      · rw [(outcome_of_not_carries hcarries hempty {} (some [])).1] at htrue
        cases htrue
  · rw [(run_of_returned hfails call.events).1] at hreturned
    cases hreturned

/-- A query that goes by an ok reply that decodes has returned true with its envelope. -/
theorem query_of_carries {query : QueryCall} {b : Bool} (hquery : call.query = some query)
    (hreturned : query.returned = some b) {e : TransportEnvelope}
    (hcarries : Carries call.delivered e) : b = true ∧ query.response = some e := by
  rcases Option.map_eq_some_iff.mp hquery with ⟨get, hget, rfl⟩
  rw [delivered, hget, Option.bind_some] at hcarries
  rcases startQuery_waits_or_fails call.request get with hwaits | hfails
  · rw [hwaits] at hreturned hcarries ⊢
    obtain ⟨htrue, hresponse, -, -⟩ :=
      @run_outcome _ none {} _ call.events rfl ⟨rfl, rfl, rfl⟩ rfl hreturned
    rw [Option.none_or] at htrue hresponse
    have houtcome := outcome_of_carries hcarries {} (some [])
    rw [houtcome.1] at htrue
    exact ⟨Option.some.inj htrue, hresponse.trans houtcome.2⟩
  · rw [delivered_of_returned hfails] at hcarries
    obtain ⟨_, hnone, -⟩ := hcarries
    cases hnone

end ProxyCall

/-- A default envelope is no response. -/
theorem acceptResponse_default (types : List ServiceType) (config : ServiceConfig) :
    acceptResponse types config {} = none := if_pos (Or.inl (by decide))

/-- A proxy accepts a response of its own type. -/
theorem acceptResponse_respond (types : List ServiceType) {proxy server : ServiceConfig}
    (htype : proxy.serviceType = server.serviceType) (request : TransportEnvelope)
    (serialized : Bytes) (sourceTimeNs : Int64) :
    acceptResponse types proxy (respond types server request {} serialized sourceTimeNs) =
      some serialized := by
  have hvalid := (validateEnvelopeMetadata_iff
    (respond types server request {} serialized sourceTimeNs) proxy.serviceType
    (getServiceMd5 types proxy.serviceType) (some [])).mpr
    ⟨rfl, htype.symm, congrArg (getServiceMd5 types) htype.symm⟩
  apply if_neg
  rintro (hkind | hinvalid)
  · exact hkind rfl
  · rw [hvalid] at hinvalid
    cases hinvalid

namespace Rpc

variable {ι : Type}

/-! ## What a run keeps -/

/-- A call with its request, the ok replies that it got and its result. -/
structure CallTraced (types : List ServiceType) (configs : ι → ServiceConfig)
    (server : ServiceConfig) (s : Rpc ι) (id : Nat) (call : ProxyCall ι) : Prop where
  request : ∃ sequence sourceTimeNs payload,
    call.request = buildRequest types (configs call.proxy) sequence sourceTimeNs payload
  replies : ∀ payload, QueryEvent.reply (.ok payload) ∈ call.events → ∃ query,
    s.origins[query]? = some (some id) ∧ s.server.Genuine types server query payload
  result : ∀ result, call.result = some result → ∃ query b, call.query = some query ∧
    query.returned = some b ∧ result =
      if b then acceptResponse types (configs call.proxy) (query.response.getD {}) else none

/-- Every query of a call has its request, and every call is traced. -/
structure Traced (types : List ServiceType) (configs : ι → ServiceConfig)
    (server : ServiceConfig) (s : Rpc ι) : Prop where
  honest : s.server.Honest types server
  origins : s.origins.length = s.server.queryable.queries.length
  delivered : ∀ query id, s.origins[query]? = some (some id) → ∃ call, s.calls[id]? = some call ∧
    s.server.Brings query call.request ∧ (configs call.proxy).key = server.key
  calls : ∀ id call, s.calls[id]? = some call → s.CallTraced types configs server id call

/-- What a step leaves of the server and the calls. -/
structure Grows (s s' : Rpc ι) : Prop where
  server : s.server.Grows s'.server
  origins : s.origins <+: s'.origins
  calls : ∀ (id : Nat) (call : ProxyCall ι), s.calls[id]? = some call →
    ∃ call' : ProxyCall ι, s'.calls[id]? = some call' ∧ call'.proxy = call.proxy ∧
      call'.request = call.request

variable {types : List ServiceType} {configs : ι → ServiceConfig} {server : ServiceConfig}
  {s s' : Rpc ι}

/-- What a call goes back to stays there. -/
theorem CallTraced.mono {id : Nat} {call : ProxyCall ι}
    (h : s.CallTraced types configs server id call) (hgrows : s.Grows s') :
    s'.CallTraced types configs server id call := by
  refine ⟨h.request, ?_, h.result⟩
  intro payload hm
  rcases h.replies payload hm with ⟨query, horigin, hgenuine⟩
  exact ⟨query, getElem?_of_prefix hgrows.origins horigin, hgenuine.mono hgrows.server⟩

/-- A call moves on with the replies that are for it. -/
theorem traced_setCall (hs : s.Traced types configs server) {id : Nat} {call call' : ProxyCall ι}
    (hcall : s.calls[id]? = some call) (hproxy : call'.proxy = call.proxy)
    (hrequest : call'.request = call.request)
    (hreplies : ∀ payload, QueryEvent.reply (.ok payload) ∈ call'.events → ∃ query,
      s.origins[query]? = some (some id) ∧ s.server.Genuine types server query payload)
    (hresult : ∀ result, call'.result = some result → ∃ query b, call'.query = some query ∧
      query.returned = some b ∧ result =
        if b then acceptResponse types (configs call'.proxy) (query.response.getD {}) else none) :
    (s.setCall id call').Traced types configs server := by
  have hgrows : s.Grows (s.setCall id call') := by
    refine ⟨.refl _, List.prefix_refl _, ?_⟩
    intro other c hc
    by_cases hother : other = id
    · rw [hother, hcall] at hc
      cases hc
      exact ⟨call', (getElem?_set_eq_some hcall).mpr (Or.inl ⟨hother, rfl⟩), hproxy, hrequest⟩
    · exact ⟨c, (getElem?_set_eq_some hcall).mpr (Or.inr ⟨hother, hc⟩), rfl, rfl⟩
  refine ⟨hs.honest, hs.origins, ?_, ?_⟩
  · intro query other horigin
    rcases hs.delivered query other horigin with ⟨c, hc, hbrings, hkey⟩
    rcases hgrows.calls other c hc with ⟨c', hc', hproxy', hrequest'⟩
    exact ⟨c', hc', hrequest' ▸ hbrings, hproxy' ▸ hkey⟩
  · intro other c hc
    rcases (getElem?_set_eq_some hcall).mp hc with ⟨rfl, rfl⟩ | ⟨-, hc⟩
    · refine ⟨?_, hreplies, hresult⟩
      rw [hproxy, hrequest]
      exact (hs.calls _ call hcall).request
    · exact (hs.calls other c hc).mono hgrows

private theorem traced_concat (hs : s.Traced types configs server) {id : Nat} {call : ProxyCall ι}
    (hcall : s.calls[id]? = some call) (event : QueryEvent)
    (hevent : ∀ payload, event = .reply (.ok payload) → ∃ query,
      s.origins[query]? = some (some id) ∧ s.server.Genuine types server query payload) :
    (s.setCall id { call with events := call.events ++ [event] }).Traced types configs server := by
  have hold := hs.calls id call hcall
  apply traced_setCall hs hcall
  · rfl
  · rfl
  · intro payload hm
    rcases List.mem_append.mp hm with hm | hm
    · exact hold.replies payload hm
    · exact hevent payload (List.mem_singleton.mp hm).symm
  · intro result hresult
    rcases hold.result result hresult with ⟨before, b, hbefore, hreturned, heq⟩
    rcases ProxyCall.query_concat hbefore hreturned event with
      ⟨after, hafter, hreturned', hresponse, -⟩
    exact ⟨after, b, hafter, hreturned', by rw [hresponse]; exact heq⟩

private theorem traced_serverStep (hs : s.Traced types configs server) {a : ServerAction}
    {origins : List (Option Nat)} (h : s.serverStep types server a origins = some s')
    (hlength : a.arrivals.length = origins.length)
    (horigins : ∀ next, s.server.step types server a = some next → ∀ i id,
      origins[i]? = some (some id) → ∃ call, s.calls[id]? = some call ∧
        next.Brings (s.origins.length + i) call.request ∧
        (configs call.proxy).key = server.key) :
    s'.Traced types configs server := by
  rcases Option.map_eq_some_iff.mp h with ⟨next, hstep, rfl⟩
  have hserver := ServiceServer.grows_step hstep
  refine ⟨ServiceServer.honest_step hs.honest hstep, ?_, ?_, ?_⟩
  · rw [ServiceServer.queries_step hstep, List.length_append, List.length_append, hs.origins,
      hlength]
  · intro query id horigin
    rcases Nat.lt_or_ge query s.origins.length with hlt | hge
    · rw [List.getElem?_append_left hlt] at horigin
      rcases hs.delivered query id horigin with ⟨call, hcall, hbrings, hkey⟩
      exact ⟨call, hcall, hbrings.mono hserver, hkey⟩
    · rw [List.getElem?_append_right hge] at horigin
      have hnew := horigins next hstep _ id horigin
      rwa [Nat.add_sub_cancel' hge] at hnew
  · intro id call hcall
    apply (hs.calls id call hcall).mono
    exact ⟨hserver, List.prefix_append _ _, fun _ c hc ↦ ⟨c, hc, rfl, rfl⟩⟩

private theorem brings_query (hs : s.Traced types configs server) {request : TransportEnvelope}
    (hfits : request.Fits) {woken : Option Nat} {next : ServiceServer}
    (h : s.server.step types server (.query (some (frame 0 request)) woken) = some next) :
    next.Brings s.origins.length request := by
  refine ⟨frame 0 request, ?_, ?_⟩
  · rw [ServiceServer.queries_step h, hs.origins]
    exact List.getElem?_concat_length
  · have hdata : vectorData (frame 0 request) = some (frame 0 request) :=
      if_neg (by simp [frame, show kMagic ≠ [] from by decide])
    rw [hdata, decodeEnvelope_frame request hfits]

variable [DecidableEq ι]

private theorem traced_setProxy (hs : s.Traced types configs server) (p : ι) (proxy : Proxy) :
    (s.setProxy p proxy).Traced types configs server := by
  refine ⟨hs.honest, hs.origins, hs.delivered, ?_⟩
  intro id call hcall
  have hold := hs.calls id call hcall
  exact ⟨hold.request, hold.replies, hold.result⟩

private theorem traced_begin (hs : s.Traced types configs server) {p : ι} {payload : Bytes}
    {sourceTimeNs : Int64} (h : s.step types configs server (.begin p payload sourceTimeNs) =
      some s') : s'.Traced types configs server := by
  cases h
  refine ⟨hs.honest, hs.origins, ?_, ?_⟩
  · intro query id horigin
    rcases hs.delivered query id horigin with ⟨call, hcall, hrest⟩
    exact ⟨call, getElem?_concat_eq_some.mpr (Or.inl hcall), hrest⟩
  · intro id call hcall
    rcases getElem?_concat_eq_some.mp hcall with hcall | ⟨-, rfl⟩
    · have hold := hs.calls id call hcall
      exact ⟨hold.request, hold.replies, hold.result⟩
    · exact ⟨⟨_, _, _, rfl⟩, nofun, nofun⟩

private theorem traced_deliver (hs : s.Traced types configs server) {id : Nat}
    {woken : Option Nat} (h : s.step types configs server (.deliver id woken) = some s') :
    s'.Traced types configs server := by
  rcases Option.bind_eq_some_iff.mp h with ⟨call, hcall, h⟩
  split at h
  · next wire error hget hencode =>
    have hfits := (encodeEnvelope_ok_iff call.request [] (some [])).mp (congrArg Prod.fst hencode)
    rw [encodeEnvelope_of_fits _ hfits] at hencode
    cases hencode
    split at h
    · next hkey =>
      apply traced_serverStep hs h rfl
      intro next hstep i other horigin
      cases i with
      | zero =>
        cases horigin
        exact ⟨call, hcall, brings_query hs hfits hstep, hkey⟩
      | succ i => cases horigin
    · cases h
  · cases h

private theorem traced_reply (hs : s.Traced types configs server) {answer : Nat}
    (h : s.step types configs server (.reply answer) = some s') :
    s'.Traced types configs server := by
  rcases Option.bind_eq_some_iff.mp h with ⟨⟨query, queryAnswer⟩, hanswer, h⟩
  split at h
  · next id horigin =>
    rcases Option.map_eq_some_iff.mp h with ⟨call, hcall, rfl⟩
    apply traced_concat hs hcall
    intro payload hok
    refine ⟨query, horigin, ?_⟩
    cases queryAnswer with
    | replyErr text => cases hok
    | reply replyKey payload =>
      cases hok
      exact hs.honest.replies query replyKey payload (List.mem_of_getElem? hanswer)
  · cases h

private theorem traced_event (hs : s.Traced types configs server) {id : Nat} {event : QueryEvent}
    (h : s.step types configs server (.event id event) = some s') :
    s'.Traced types configs server := by
  rcases Option.bind_eq_some_iff.mp h with ⟨call, hcall, h⟩
  split at h
  · cases h
  · cases h
  · next hne _ =>
    cases h
    apply traced_concat hs hcall
    exact fun payload hok ↦ absurd hok (hne payload)

private theorem traced_finish (hs : s.Traced types configs server) {id : Nat}
    (h : s.step types configs server (.finish id) = some s') :
    s'.Traced types configs server := by
  rcases Option.bind_eq_some_iff.mp h with ⟨call, hcall, h⟩
  have hold := hs.calls id call hcall
  split at h
  · next query _ hquery =>
    unfold finishCall at h
    split at h
    · cases h
    · next hreturned =>
      cases h
      apply traced_setCall hs hcall
      · rfl
      · rfl
      · exact hold.replies
      · rintro result hresult
        cases hresult
        exact ⟨query, true, hquery, hreturned, rfl⟩
    · next hreturned =>
      cases h
      apply traced_setCall (traced_setProxy hs call.proxy _) hcall
      · rfl
      · rfl
      · exact hold.replies
      · rintro result hresult
        cases hresult
        exact ⟨query, false, hquery, hreturned, rfl⟩
  · cases h

/-- Every step keeps the calls traced. -/
theorem traced_step (s : Rpc ι) (a : RpcAction ι) (s' : Rpc ι)
    (hs : s.Traced types configs server) (h : s.step types configs server a = some s') :
    s'.Traced types configs server := by
  cases a with
  | «begin» p payload sourceTimeNs => exact traced_begin hs h
  | get id outcome =>
    rcases Option.bind_eq_some_iff.mp h with ⟨call, hcall, h⟩
    have hold := hs.calls id call hcall
    split at h
    · next hget =>
      cases h
      apply traced_setCall hs hcall
      · rfl
      · rfl
      · exact hold.replies
      · intro result hresult
        rcases hold.result result hresult with ⟨query, b, hquery, -⟩
        rw [ProxyCall.query, hget] at hquery
        cases hquery
    · cases h
  | deliver id woken => exact traced_deliver hs h
  | arrive payload woken =>
    apply traced_serverStep hs h rfl
    intro next hstep i id horigin
    cases i with
    | zero => cases horigin
    | succ i => cases horigin
  | serve w localCall sourceTimeNs => exact traced_serverStep hs h rfl (fun _ _ _ _ h ↦ by cases h)
  | executor a => exact traced_serverStep hs h rfl (fun _ _ _ _ h ↦ by cases h)
  | reply answer => exact traced_reply hs h
  | event id event => exact traced_event hs h
  | finish id => exact traced_finish hs h

/-- The calls of every run are traced. -/
theorem traced_of_reachable {threadCount capacity : Nat}
    (h : (rpc types configs server threadCount capacity).Reachable s) :
    s.Traced types configs server := by
  apply h.invariant
  · rintro _ rfl
    exact ⟨ServiceServer.honest_start threadCount capacity, rfl, nofun, nofun⟩
  · exact traced_step

omit [DecidableEq ι] in
private theorem brings_unique {query : Nat} {request request' : TransportEnvelope}
    (h : s.server.Brings query request) (h' : s.server.Brings query request') :
    request = request' := by
  rcases h with ⟨bytes, hquery, hdecode⟩
  rcases h' with ⟨bytes', hquery', hdecode'⟩
  cases hquery.symm.trans hquery'
  cases hdecode.symm.trans hdecode'
  rfl

/-- The server served a call: its bytes are what the local service made of the very payload of the
call, for a proxy of the type and key of the server on a host that it allows. -/
structure ServedBy (configs : ι → ServiceConfig) (server : ServiceConfig) (s : Rpc ι) (id : Nat)
    (call : ProxyCall ι) (bytes : Bytes) : Prop where
  key : (configs call.proxy).key = server.key
  type : (configs call.proxy).serviceType = server.serviceType
  allowed : server.clientHostnames[(configs call.proxy).myHostname]? = some true
  query : ∃ query, s.origins[query]? = some (some id) ∧
    (query, call.request.payload, .called bytes) ∈ s.server.localCalls

omit [DecidableEq ι] in
private theorem served_of_reply (hs : s.Traced types configs server) {id : Nat}
    {call : ProxyCall ι} (hcall : s.calls[id]? = some call) {payload : Bytes}
    (hm : QueryEvent.reply (.ok payload) ∈ call.events) :
    ∃ request serialized sourceTimeNs, s.ServedBy configs server id call serialized ∧
      decodeEnvelope (vectorData payload) (some {}) (some []) =
        (true, some (respond types server request {} serialized sourceTimeNs), some []) := by
  rcases (hs.calls id call hcall).replies payload hm with ⟨query, horigin, request, serialized,
    sourceTimeNs, hbrings, hpasses, hlocal, hfits, rfl⟩
  rcases hs.delivered query id horigin with ⟨call', hcall', hbrings', hkey⟩
  cases hcall.symm.trans hcall'
  cases brings_unique hbrings hbrings'
  rcases (hs.calls id call hcall).request with ⟨sequence, requestTimeNs, params, hrequest⟩
  rw [hrequest, requestError_buildRequest] at hpasses
  refine ⟨call.request, serialized, sourceTimeNs,
    ⟨hkey, hpasses.1, hpasses.2, query, horigin, hlocal⟩, ?_⟩
  have hdata : vectorData (frame 0 (respond types server call.request {} serialized
      sourceTimeNs)) = some (frame 0 (respond types server call.request {} serialized
      sourceTimeNs)) := if_neg (by simp [frame, show kMagic ≠ [] from by decide])
  rw [hdata, decodeEnvelope_frame _ hfits]

omit [DecidableEq ι] in
/-- An ok reply that decides the query makes the call return the response of the server. -/
theorem served_of_delivered (hs : s.Traced types configs server) {id : Nat} {call : ProxyCall ι}
    (hcall : s.calls[id]? = some call) {result : Option Bytes} (hresult : call.result = some result)
    {payload : Bytes} (hdelivered : call.delivered = some (.ok payload)) :
    ∃ bytes, result = some bytes ∧ s.ServedBy configs server id call bytes := by
  rcases (hs.calls id call hcall).result result hresult with ⟨query, b, hquery, hreturned, heq⟩
  rcases Option.bind_eq_some_iff.mp hdelivered with ⟨get, hget, hfirst⟩
  rcases served_of_reply hs hcall (ProxyCall.mem_of_delivered hfirst) with
    ⟨request, serialized, sourceTimeNs, hserved, hdecode⟩
  rcases ProxyCall.query_of_carries hquery hreturned ⟨payload, hdelivered, hdecode⟩ with
    ⟨rfl, hresponse⟩
  rw [if_pos rfl, hresponse, Option.getD_some, acceptResponse_respond types hserved.type] at heq
  exact ⟨serialized, heq, hserved⟩

omit [DecidableEq ι] in
/-- A call that has returned true went by an ok reply. -/
theorem delivered_of_result (hs : s.Traced types configs server) {id : Nat} {call : ProxyCall ι}
    (hcall : s.calls[id]? = some call) {result : Option Bytes} (hresult : call.result = some result)
    (hsome : result.isSome = true) : ∃ payload, call.delivered = some (.ok payload) := by
  rcases (hs.calls id call hcall).result result hresult with ⟨query, b, hquery, hreturned, heq⟩
  cases b with
  | false =>
    rw [heq] at hsome
    cases hsome
  | true =>
    rcases ProxyCall.query_returned_true hquery hreturned with ⟨e, hcarries, -⟩ | hresponse
    · rcases hcarries with ⟨payload, hdelivered, -⟩
      exact ⟨payload, hdelivered⟩
    · rw [heq, if_pos rfl, hresponse, Option.getD_some, acceptResponse_default] at hsome
      cases hsome

omit [DecidableEq ι] in
/-- A call that is over returned true exactly if it went by an ok reply, and then it was served. -/
theorem served_iff (hs : s.Traced types configs server) {id : Nat} {call : ProxyCall ι}
    (hcall : s.calls[id]? = some call) {result : Option Bytes}
    (hresult : call.result = some result) :
    (result.isSome = true ↔ ∃ payload, call.delivered = some (.ok payload)) ∧
      ∀ bytes, result = some bytes → s.ServedBy configs server id call bytes := by
  refine ⟨⟨delivered_of_result hs hcall hresult, ?_⟩, ?_⟩
  · rintro ⟨payload, hdelivered⟩
    rcases served_of_delivered hs hcall hresult hdelivered with ⟨bytes, rfl, -⟩
    rfl
  · intro bytes hbytes
    have hsome : result.isSome = true := by
      rw [hbytes]
      rfl
    rcases delivered_of_result hs hcall hresult hsome with ⟨payload, hdelivered⟩
    rcases served_of_delivered hs hcall hresult hdelivered with ⟨bytes', hbytes', hserved⟩
    cases hbytes.symm.trans hbytes'
    exact hserved

end Rpc

/-- In every run with any number of calls at once, a call that is over returned true exactly if the
first reply before the end of its wait was an ok reply, and then with what the local service of the
server made of the payload of this very call. -/
theorem calls_served_by_server {ι : Type} [DecidableEq ι] (types : List ServiceType)
    (configs : ι → ServiceConfig) (server : ServiceConfig) (threadCount capacity : Nat) (s : Rpc ι)
    (h : (rpc types configs server threadCount capacity).Reachable s) (id : Nat)
    (call : ProxyCall ι) (hcall : s.calls[id]? = some call) (result : Option Bytes)
    (hresult : call.result = some result) :
    (result.isSome = true ↔ ∃ payload, call.delivered = some (.ok payload)) ∧
      ∀ bytes, result = some bytes → s.ServedBy configs server id call bytes :=
  Rpc.served_iff (Rpc.traced_of_reachable h) hcall hresult

/-- A table with one type. -/
def exampleTypes : List ServiceType := [⟨ascii "std_srvs/Trigger", ascii "937c"⟩]

/-- A service of one host, and the same for its proxy on another. -/
def exampleService (host : String) : ServiceConfig where
  serviceName := ascii "/land"
  serviceType := ascii "std_srvs/Trigger"
  serverHostname := ascii "drone1"
  myHostname := ascii host
  clientHostnames := (∅ : Topic.HostMap).insert (ascii "ground") true

/-- A call whose query arrives twice, and is answered once. -/
theorem calls_served_by_server_once :
    ∃ (s : Rpc Unit) (call : ProxyCall Unit), s.ServedBy (fun _ ↦ exampleService "ground")
      (exampleService "drone1") 0 call [1] := by
  have hrun : ((rpc exampleTypes (fun _ : Unit ↦ exampleService "ground")
      (exampleService "drone1") 1 4).run { server := .start 1 4 } [.begin () [7] 0, .get 0 .sent,
        .deliver 0 none, .deliver 0 none, .executor (.work 0), .serve 0 (.called [1]) 0, .reply 0,
        .event 0 .resume, .finish 0]).bind (fun s ↦ s.calls[0]?.bind ProxyCall.result) =
      some (some [1]) := by
    decide +kernel
  rcases Option.bind_eq_some_iff.mp hrun with ⟨s, hs, hrun⟩
  rcases Option.bind_eq_some_iff.mp hrun with ⟨call, hcall, hresult⟩
  exact ⟨s, call, (calls_served_by_server exampleTypes (fun _ ↦ exampleService "ground")
    (exampleService "drone1") 1 4 s ⟨_, _, rfl, hs⟩ 0 call hcall _ hresult).2 [1] rfl⟩

end NetBridge.Service
