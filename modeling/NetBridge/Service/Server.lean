import NetBridge.Base.Record
import NetBridge.Service.Factory
import NetBridge.Transport.Queryable

/-!
# Answering remote requests

`handleRemoteRequest`, `src/swarm_ros_bridge/src/service_factory.cpp:108–184`, as the handler of the
queryable of a server. The local ROS service and the clock are inputs: a call of the service ends
with a serialized response, or with an exception.
-/

namespace NetBridge.Service

open NetBridge.Base NetBridge.Transport

/-- How the call of the local service ends; `service_factory.cpp:138–182`. -/
inductive LocalCall where
  /-- `client.isValid()` is false. -/
  | invalidClient
  /-- The service was called; what `serializeServiceResponse` makes of the result. -/
  | called (serialized : Bytes)
  /-- A `std::exception` with its text. -/
  | threw (what : Bytes)
  /-- Any other exception, which is not caught. -/
  | threwForeign
deriving DecidableEq

section

variable (types : List ServiceType) (config : ServiceConfig)

/-- The response to a request, over what the pointer holds; `service_factory.cpp:162–174`. -/
def respond (request response : TransportEnvelope) (serialized : Bytes) (sourceTimeNs : Int64) :
    TransportEnvelope :=
  { response with
    payloadKind := .serviceResponse
    sequence := request.sequence
    sourceTimeNs
    sourceHost := config.myHostname
    rosType := config.serviceType
    rosMd5 := getServiceMd5 types config.serviceType
    payload := serialized }

/-- `handleRemoteRequest`; `service_factory.cpp:108–184`. Its caller passes no null pointers. -/
def handleRemoteRequest (request response : TransportEnvelope) (error : Bytes)
    (localCall : LocalCall) (sourceTimeNs : Int64) : HandlerOutcome :=
  match requestError types config request with
  | some text => .returned false response text
  | none =>
    match localCall with
    | .invalidClient =>
      .returned false response (ascii "failed to create local ROS service client")
    | .called serialized =>
      .returned true (respond types config request response serialized sourceTimeNs) error
    | .threw what => .returned false response what
    | .threwForeign => .threwForeign

end

/-- The queryable of a server, with the record of the calls of the local service: the query, the
request bytes that the service got, and how the call ended. -/
structure ServiceServer where
  queryable : QueryableRun
  localCalls : List (Nat × Bytes × LocalCall) := []
deriving DecidableEq

/-- The atomic steps. -/
inductive ServerAction where
  /-- A query arrives; a submission wakes the given worker. -/
  | query (payload : Option Bytes) (woken : Option Nat)
  /-- A worker is through with its request. -/
  | serve (w : Nat) (localCall : LocalCall) (sourceTimeNs : Int64)
  /-- Any other step of the executor. -/
  | executor (a : ExecutorAction QueryJob)
deriving DecidableEq

/-- The payload of a query that arrives in a step. -/
def ServerAction.arrivals : ServerAction → List (Option Bytes)
  | query payload _ => [payload]
  | serve _ _ _ | executor _ => []

namespace ServiceServer

section

variable (types : List ServiceType) (config : ServiceConfig)

/-- What a request adds to the record: nothing if it is refused before the call. -/
def recorded (job : QueryJob) (localCall : LocalCall) : List (Nat × Bytes × LocalCall) :=
  if (requestError types config job.request).isNone then
    [(job.query, job.request.payload, localCall)]
  else []

/-- One atomic step, where it is enabled. -/
def step (s : ServiceServer) : ServerAction → Option ServiceServer
  | .query payload woken =>
    (s.queryable.step config.key (.query payload woken)).map fun queryable ↦ { s with queryable }
  | .serve w localCall sourceTimeNs =>
    match s.queryable.executor.executor.workers[w]? with
    | some (.running submission) =>
      let outcome := handleRemoteRequest types config submission.task.request {} [] localCall
        sourceTimeNs
      (s.queryable.step config.key (.finish w outcome)).map fun queryable ↦
        { queryable
          localCalls := s.localCalls ++ recorded types config submission.task localCall }
    | _ => none
  | .executor a =>
    (s.queryable.step config.key (.executor a)).map fun queryable ↦ { s with queryable }

end

/-- A server from its construction on. -/
def start (threadCount capacity : Nat) : ServiceServer where
  queryable := { executor := { executor := Executor.make threadCount capacity } }

/-- The request envelope that a query carries. -/
def Brings (s : ServiceServer) (query : Nat) (request : TransportEnvelope) : Prop :=
  ∃ bytes, s.queryable.queries[query]? = some (some bytes) ∧
    decodeEnvelope (vectorData bytes) (some {}) (some []) = (true, some request, some [])

/-- A reply of the server: it answers a request of that query which passed the checks, with what
the local service made of the payload of the request. -/
def Genuine (types : List ServiceType) (config : ServiceConfig) (s : ServiceServer) (query : Nat)
    (wire : Bytes) : Prop :=
  ∃ request serialized sourceTimeNs, s.Brings query request ∧
    requestError types config request = none ∧
    (query, request.payload, .called serialized) ∈ s.localCalls ∧
    (respond types config request {} serialized sourceTimeNs).Fits ∧
    wire = frame 0 (respond types config request {} serialized sourceTimeNs)

/-- What a step leaves of the record. -/
structure Grows (s s' : ServiceServer) : Prop where
  queries : s.queryable.queries <+: s'.queryable.queries
  answers : s.queryable.answers <+: s'.queryable.answers
  localCalls : s.localCalls <+: s'.localCalls

/-- The tasks have the requests of their queries, and every reply is genuine. -/
structure Honest (types : List ServiceType) (config : ServiceConfig) (s : ServiceServer) :
    Prop where
  held : ∀ submission ∈ s.queryable.executor.executor.held,
    s.Brings submission.task.query submission.task.request
  replies : ∀ query replyKey wire, (query, .reply replyKey wire) ∈ s.queryable.answers →
    s.Genuine types config query wire

variable {types : List ServiceType} {config : ServiceConfig} {s s' : ServiceServer}

/-! ## What grows -/

/-- A server that rests forgets nothing. -/
theorem Grows.refl (s : ServiceServer) : s.Grows s :=
  ⟨List.prefix_refl _, List.prefix_refl _, List.prefix_refl _⟩

/-- A query keeps its request. -/
theorem Brings.mono {query : Nat} {request : TransportEnvelope} (h : s.Brings query request)
    (hgrows : s.Grows s') : s'.Brings query request := by
  rcases h with ⟨bytes, hquery, hdecode⟩
  exact ⟨bytes, getElem?_of_prefix hgrows.queries hquery, hdecode⟩

/-- A genuine answer stays so. -/
theorem Genuine.mono {query : Nat} {wire : Bytes} (h : s.Genuine types config query wire)
    (hgrows : s.Grows s') : s'.Genuine types config query wire := by
  rcases h with ⟨request, serialized, sourceTimeNs, hbrings, hpasses, hcall, hfits, hwire⟩
  exact ⟨request, serialized, sourceTimeNs, hbrings.mono hgrows, hpasses,
    hgrows.localCalls.subset hcall, hfits, hwire⟩

/-! ## What a step keeps -/

/-- A step adds to the record. -/
theorem grows_step {a : ServerAction} (h : s.step types config a = some s') : s.Grows s' := by
  cases a with
  | query payload woken =>
    rcases Option.map_eq_some_iff.mp h with ⟨queryable, hstep, rfl⟩
    rcases QueryableRun.step_query hstep with ⟨hqueries, -, ⟨-, error, hanswers⟩ |
      ⟨-, -, -, -, hanswers, -⟩⟩
    · refine ⟨?_, ?_, List.prefix_refl _⟩
      · rw [hqueries]
        exact List.prefix_append _ _
      · rw [hanswers]
        exact List.prefix_append _ _
    · refine ⟨?_, ?_, List.prefix_refl _⟩
      · rw [hqueries]
        exact List.prefix_append _ _
      · simp [hanswers]
  | serve w localCall sourceTimeNs =>
    simp only [step] at h
    split at h
    · next submission hrunning =>
      rcases Option.map_eq_some_iff.mp h with ⟨queryable, hstep, rfl⟩
      rcases QueryableRun.step_finish hstep with ⟨_, _, -, -, rfl⟩
      exact ⟨List.prefix_refl _, List.prefix_append _ _, List.prefix_append _ _⟩
    · cases h
  | executor a =>
    rcases Option.map_eq_some_iff.mp h with ⟨queryable, hstep, rfl⟩
    rcases QueryableRun.step_executor hstep with ⟨executor, -, rfl⟩
    exact ⟨List.prefix_refl _, List.prefix_refl _, List.prefix_refl _⟩

/-- Only the arrival of a query adds to the queries. -/
theorem queries_step {a : ServerAction} (h : s.step types config a = some s') :
    s'.queryable.queries = s.queryable.queries ++ a.arrivals := by
  cases a with
  | query payload woken =>
    rcases Option.map_eq_some_iff.mp h with ⟨queryable, hstep, rfl⟩
    exact (QueryableRun.step_query hstep).1
  | serve w localCall sourceTimeNs =>
    simp only [step] at h
    split at h
    · rcases Option.map_eq_some_iff.mp h with ⟨queryable, hstep, rfl⟩
      rcases QueryableRun.step_finish hstep with ⟨_, _, -, -, rfl⟩
      exact (List.append_nil _).symm
    · cases h
  | executor a =>
    rcases Option.map_eq_some_iff.mp h with ⟨queryable, hstep, rfl⟩
    rcases QueryableRun.step_executor hstep with ⟨executor, -, rfl⟩
    exact (List.append_nil _).symm

private theorem honest_query (hs : s.Honest types config) {payload : Option Bytes}
    {woken : Option Nat} (h : s.step types config (.query payload woken) = some s') :
    s'.Honest types config := by
  have hgrows := grows_step h
  rcases Option.map_eq_some_iff.mp h with ⟨queryable, hstep, rfl⟩
  rcases QueryableRun.step_query hstep with ⟨hqueries, -, ⟨hheld, error, hanswers⟩ |
    ⟨bytes, request, rfl, hdecode, hanswers, hheld⟩⟩
  · constructor
    · intro submission hm
      exact (hs.held submission (hheld ▸ hm)).mono hgrows
    · intro query replyKey wire hm
      simp only [hanswers, List.mem_append, List.mem_singleton, Prod.mk.injEq, reduceCtorEq,
        and_false, or_false] at hm
      exact (hs.replies query replyKey wire hm).mono hgrows
  · constructor
    · intro submission hm
      rcases List.mem_cons.mp (hheld.mem_iff.mp hm) with rfl | hm
      · refine ⟨bytes, ?_, hdecode⟩
        simp only [hqueries, List.getElem?_concat_length]
      · exact (hs.held submission hm).mono hgrows
    · intro query replyKey wire hm
      rw [hanswers] at hm
      exact (hs.replies query replyKey wire hm).mono hgrows

private theorem genuine_reply {request : TransportEnvelope} {query : Nat}
    (hbrings : s.Brings query request) {localCall : LocalCall} {sourceTimeNs : Int64}
    {replyKey wire : Bytes}
    (hanswer : jobAnswer config.key (handleRemoteRequest types config request {} [] localCall
      sourceTimeNs) = some (.reply replyKey wire))
    (hcalls : (query, request.payload, localCall) ∈ s.localCalls ∨
      requestError types config request ≠ none) : s.Genuine types config query wire := by
  rcases jobAnswer_eq_reply.mp hanswer with ⟨-, response, error, houtcome, hencode⟩
  unfold handleRemoteRequest at houtcome
  split at houtcome
  · cases houtcome
  · next hpasses =>
    split at houtcome
    · cases houtcome
    · next serialized =>
      cases houtcome
      have hfits := (encodeEnvelope_ok_iff _ [] (some [])).mp (congrArg Prod.fst hencode)
      rw [encodeEnvelope_of_fits _ hfits] at hencode
      cases hencode
      exact ⟨request, serialized, sourceTimeNs, hbrings, hpasses,
        hcalls.resolve_right fun hne ↦ hne hpasses, hfits, rfl⟩
    · cases houtcome
    · cases houtcome

private theorem honest_serve (hs : s.Honest types config) {w : Nat} {localCall : LocalCall}
    {sourceTimeNs : Int64} (h : s.step types config (.serve w localCall sourceTimeNs) = some s') :
    s'.Honest types config := by
  have hgrows := grows_step h
  simp only [step] at h
  split at h
  · next submission hrunning =>
    rcases Option.map_eq_some_iff.mp h with ⟨queryable, hstep, rfl⟩
    simp only [QueryableRun.step, hrunning] at hstep
    rcases Option.map_eq_some_iff.mp hstep with ⟨executor, hfinish, rfl⟩
    rcases RunningExecutor.held_finish hfinish with ⟨_, hrunning', hheld⟩
    cases hrunning.symm.trans hrunning'
    have hbrings := (hs.held submission (hheld.mem_iff.mpr List.mem_cons_self)).mono hgrows
    constructor
    · intro other hm
      exact (hs.held other (hheld.mem_iff.mpr (List.mem_cons_of_mem _ hm))).mono hgrows
    · intro query replyKey wire hm
      rcases List.mem_append.mp hm with hm | hm
      · exact (hs.replies query replyKey wire hm).mono hgrows
      · rcases List.mem_map.mp hm with ⟨answer, hanswer, heq⟩
        cases heq
        apply genuine_reply hbrings (Option.mem_toList.mp hanswer)
        by_cases hpasses : requestError types config submission.task.request = none
        · apply Or.inl
          rw [recorded, hpasses]
          exact List.mem_append_right _ List.mem_cons_self
        · exact Or.inr hpasses
  · cases h

/-- Every step keeps the server honest. -/
theorem honest_step (hs : s.Honest types config) {a : ServerAction}
    (h : s.step types config a = some s') : s'.Honest types config := by
  cases a with
  | query payload woken => exact honest_query hs h
  | serve w localCall sourceTimeNs => exact honest_serve hs h
  | executor a =>
    have hgrows := grows_step h
    rcases Option.map_eq_some_iff.mp h with ⟨queryable, hstep, rfl⟩
    rcases QueryableRun.step_executor hstep with ⟨executor, hheld, rfl⟩
    constructor
    · exact fun submission hm ↦ (hs.held submission (hheld.mem_iff.mp hm)).mono hgrows
    · exact fun query replyKey wire hm ↦ (hs.replies query replyKey wire hm).mono hgrows

/-- A new server has answered nothing. -/
theorem honest_start (threadCount capacity : Nat) :
    (start threadCount capacity).Honest types config := by
  constructor
  · intro submission hm
    exact absurd (Executor.mem_held.mp hm) (Executor.not_holds_make _ _ submission)
  · exact fun _ _ _ hm ↦ absurd hm List.not_mem_nil

end ServiceServer

end NetBridge.Service
