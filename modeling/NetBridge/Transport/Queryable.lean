import NetBridge.Transport.ExactlyOnce
import NetBridge.Transport.Query

/-!
# Answers to service queries

The callback that `DeclareQueryable` installs,
`src/swarm_ros_bridge/src/transport/zenoh_transport.cpp:430–492`, over the executor that runs the
handlers. The callback answers at once, or it leaves a task that answers; a handler is free to
return or to throw anything. The calls of `reply` and `reply_err` themselves do not throw.
-/

namespace NetBridge.Transport

open NetBridge.Base

/-- How a call of the handler ends, with `response` and `error` as it leaves them. -/
inductive HandlerOutcome where
  | returned (accepted : Bool) (response : TransportEnvelope) (error : Bytes)
  /-- An exception derived from `std::exception`, with its text. -/
  | threw (what : Bytes)
  /-- Any other exception. -/
  | threwForeign
deriving DecidableEq

/-- A call of `reply` with its key, or of `reply_err`. -/
inductive QueryAnswer where
  | reply (key payload : Bytes)
  | replyErr (payload : Bytes)
deriving DecidableEq

/-- The captures of a queued task: the query that it saved and the request. -/
structure QueryJob where
  query : Nat
  request : TransportEnvelope
deriving DecidableEq

/-- The body of the task behind the call of the handler; an exception that `catch` does not name
leaves the task. `zenoh_transport.cpp:457–481`. -/
def jobAnswer (key : Bytes) : HandlerOutcome → Option QueryAnswer
  | .returned false _ error =>
    some (.replyErr (if error = [] then ascii "service handler rejected request" else error))
  | .returned true response error =>
    match encodeEnvelope response (some []) (some error) with
    | (true, wire, _) => some (.reply key (wire.getD []))
    | (false, _, error) => some (.replyErr (error.getD []))
  | .threw what => some (.replyErr what)
  | .threwForeign => none

/-- A declared queryable: the executor, the counters, the payloads of the queries in the order of
their arrival, the handler calls that have ended and the answers, each with its query. -/
structure QueryableRun where
  executor : RunningExecutor QueryJob
  receiveDecodeErrors : UInt64 := 0
  serviceQueueDrops : UInt64 := 0
  queries : List (Option Bytes) := []
  handled : List (Nat × HandlerOutcome) := []
  answers : List (Nat × QueryAnswer) := []
deriving DecidableEq

/-- The atomic steps. -/
inductive QueryableAction where
  /-- The callback runs; a submission wakes the given worker. -/
  | query (payload : Option Bytes) (woken : Option Nat)
  /-- The task of a worker is over. -/
  | finish (w : Nat) (outcome : HandlerOutcome)
  /-- Any other step of the executor. -/
  | executor (a : ExecutorAction QueryJob)
deriving DecidableEq

namespace QueryableRun

/-- The callback has called `reply` or `reply_err`. -/
def answer (q : QueryableRun) (query : Nat) (answer : QueryAnswer) : QueryableRun :=
  { q with answers := q.answers ++ [(query, answer)] }

/-- The callback with a decoded request; `zenoh_transport.cpp:454–485`. -/
def submit (q : QueryableRun) (query : Nat) (request : TransportEnvelope) (woken : Option Nat) :
    Option QueryableRun :=
  let accepted := (q.executor.executor.trySubmit ⟨q.executor.submissions, ⟨query, request⟩⟩).1
  (q.executor.step (.submit ⟨query, request⟩ woken)).map fun executor ↦
    if accepted then { q with executor }
    else
      answer { q with executor, serviceQueueDrops := q.serviceQueueDrops + 1 } query
        (.replyErr (ascii "NetBridge service worker queue is full"))

/-- The callback; `zenoh_transport.cpp:433–486`. -/
def onQuery (q : QueryableRun) (payload : Option Bytes) (woken : Option Nat) :
    Option QueryableRun :=
  let query := q.queries.length
  let q := { q with queries := q.queries ++ [payload] }
  match payload with
  | none => some (q.answer query (.replyErr (ascii "missing NetBridge request envelope")))
  | some bytes =>
    match decodeEnvelope (vectorData bytes) (some {}) (some []) with
    | (false, _, error) =>
      some (answer { q with receiveDecodeErrors := q.receiveDecodeErrors + 1 } query
        (.replyErr (error.getD [])))
    | (true, request, _) => q.submit query (request.getD {}) woken

/-- One atomic step, where it is enabled. -/
def step (key : Bytes) (q : QueryableRun) : QueryableAction → Option QueryableRun
  | .query payload woken => q.onQuery payload woken
  | .finish w outcome =>
    match q.executor.executor.workers[w]? with
    | some (.running submission) =>
      (q.executor.step (.finish w (jobAnswer key outcome).isNone)).map fun executor ↦
        { q with
          executor
          handled := q.handled ++ [(submission.task.query, outcome)]
          answers := q.answers ++
            ((jobAnswer key outcome).toList.map fun answer ↦ (submission.task.query, answer)) }
    | _ => none
  | .executor a =>
    if a.internal then (q.executor.step a).map fun executor ↦ { q with executor } else none

end QueryableRun

/-- A queryable on `key` from its declaration on, over an executor of any size. -/
def queryable (key : Bytes) (threadCount capacity : Nat) :
    Machine QueryableRun QueryableAction where
  init q := q = { executor := { executor := Executor.make threadCount capacity } }
  step := QueryableRun.step key

namespace QueryableRun

/-- The answers that a query got. -/
def answersTo (q : QueryableRun) (query : Nat) : List QueryAnswer :=
  (q.answers.filter fun answer ↦ answer.1 = query).map Prod.snd

/-- A task with the query waits or is in a worker. -/
def Pending (q : QueryableRun) (query : Nat) : Prop :=
  ∃ submission ∈ q.executor.executor.held, submission.task.query = query

/-- The handler ran for the query and returned true, and its response encodes to `wire`. -/
def Served (q : QueryableRun) (query : Nat) (wire : Bytes) : Prop :=
  ∃ response error, (query, .returned true response error) ∈ q.handled ∧
    encodeEnvelope response (some []) (some error) = (true, some wire, some error)

/-- Every query that is not pending has one answer, a reply exactly where it was served; a pending
one has none yet, and once the workers rest, none is pending. -/
structure Answered (key : Bytes) (q : QueryableRun) : Prop where
  pending : ∀ query, q.Pending query → q.answersTo query = []
  settled : ∀ query < q.queries.length, ¬q.Pending query →
    ∃ answer, q.answersTo query = [answer] ∧
      ∀ replyKey wire, answer = .reply replyKey wire ↔ replyKey = key ∧ q.Served query wire
  comes : q.executor.Quiet → ∀ query, ¬q.Pending query

end QueryableRun

/-- No handler call ends with an exception that is not a `std::exception`. -/
def QueryableAction.Catchable : QueryableAction → Prop
  | .finish _ outcome => outcome ≠ .threwForeign
  | _ => True

instance : DecidablePred QueryableAction.Catchable := fun a ↦
  match a with
  | .finish _ _ => inferInstanceAs (Decidable (_ ≠ _))
  | .query _ _ | .executor _ => isTrue trivial

/-- A task replies exactly when its handler returned true and the response encodes. -/
theorem jobAnswer_eq_reply {key : Bytes} {outcome : HandlerOutcome} {replyKey wire : Bytes} :
    jobAnswer key outcome = some (.reply replyKey wire) ↔ replyKey = key ∧
      ∃ response error, outcome = .returned true response error ∧
        encodeEnvelope response (some []) (some error) = (true, some wire, some error) := by
  fun_cases jobAnswer key outcome with
  | case1 | case4 | case5 => simp
  | case2 response error written error' hencode =>
    have hfits := (encodeEnvelope_ok_iff response [] (some error)).mp (by rw [hencode])
    rw [encodeEnvelope_of_fits response hfits] at hencode
    cases hencode
    simp only [Option.getD_some, Option.some.injEq, QueryAnswer.reply.injEq]
    constructor
    · rintro ⟨rfl, rfl⟩
      exact ⟨rfl, response, error, rfl, encodeEnvelope_of_fits response hfits [] (some error)⟩
    · rintro ⟨rfl, response', error', houtcome, hencode⟩
      cases houtcome
      rw [encodeEnvelope_of_fits response hfits] at hencode
      cases hencode
      exact ⟨rfl, rfl⟩
  | case3 response error written error' hencode =>
    simp only [Option.some.injEq, reduceCtorEq, false_iff, not_and, not_exists]
    rintro - response' error'' houtcome
    cases houtcome
    simp [hencode]

/-- Only a foreign exception leaves a task without its answer. -/
theorem jobAnswer_eq_none (key : Bytes) {outcome : HandlerOutcome} :
    jobAnswer key outcome = none ↔ outcome = .threwForeign := by
  fun_cases jobAnswer key outcome <;> simp

namespace QueryableRun

/-! ## What a run keeps -/

/-- The queries of the held tasks, of the handler calls and of the answers are told apart, and
each query that is not pending has its answer. -/
structure Tracked (key : Bytes) (threadCount capacity : Nat) (q : QueryableRun) : Prop where
  sound : q.executor.Sound threadCount capacity
  arrived : ∀ submission ∈ q.executor.executor.held, submission.task.query < q.queries.length
  distinct : (q.executor.executor.held.map fun submission ↦ submission.task.query).Nodup
  handled : ∀ call ∈ q.handled, call.1 < q.queries.length ∧ ¬q.Pending call.1
  answered : ∀ answer ∈ q.answers, answer.1 < q.queries.length
  pending : ∀ query, q.Pending query → q.answersTo query = []
  settled : ∀ query < q.queries.length, ¬q.Pending query →
    ∃ answer, q.answersTo query = [answer] ∧
      ∀ replyKey wire, answer = .reply replyKey wire ↔ replyKey = key ∧ q.Served query wire

variable {key : Bytes} {threadCount capacity : Nat} {q : QueryableRun}

/-- Rest leaves nothing pending. -/
theorem Tracked.toAnswered (hq : q.Tracked key threadCount capacity) : q.Answered key := by
  refine ⟨hq.pending, hq.settled, ?_⟩
  rintro hquiet query ⟨submission, hm, -⟩
  rw [(hquiet.held hq.sound.staffed).1] at hm
  cases hm

private theorem Tracked.fresh (hq : q.Tracked key threadCount capacity) :
    q.answersTo q.queries.length = [] ∧ ¬q.Pending q.queries.length ∧
      ∀ wire, ¬q.Served q.queries.length wire := by
  refine ⟨?_, ?_, ?_⟩
  · rw [answersTo, List.map_eq_nil_iff, List.filter_eq_nil_iff]
    intro answer hm
    have hlt := hq.answered answer hm
    simp only [decide_eq_true_eq]
    omega
  · rintro ⟨submission, hm, hquery⟩
    have hlt := hq.arrived submission hm
    omega
  · rintro wire ⟨response, error, hm, -⟩
    have hlt := (hq.handled _ hm).1
    exact absurd hlt (Nat.lt_irrefl _)

private theorem answersTo_concat (executor : RunningExecutor QueryJob) (errors drops : UInt64)
    (queries : List (Option Bytes)) (handled : List (Nat × HandlerOutcome))
    (answers : List (Nat × QueryAnswer)) (query : Nat) (answer : QueryAnswer) (query' : Nat) :
    answersTo ⟨executor, errors, drops, queries, handled, answers ++ [(query, answer)]⟩ query' =
      answersTo ⟨executor, errors, drops, queries, handled, answers⟩ query' ++
        if query = query' then [answer] else [] := by
  simp only [answersTo, List.filter_append, List.map_append]
  split
  · next heq => simp [heq]
  · next hne => simp [hne]

private theorem tracked_answer (hq : q.Tracked key threadCount capacity) (payload : Option Bytes)
    {executor : RunningExecutor QueryJob} (hsound : executor.Sound threadCount capacity)
    (hsame : executor.executor = q.executor.executor) (errors drops : UInt64) (error : Bytes) :
    Tracked key threadCount capacity ⟨executor, errors, drops, q.queries ++ [payload], q.handled,
      q.answers ++ [(q.queries.length, .replyErr error)]⟩ := by
  rcases hq.fresh with ⟨hnone, hnot, hserved⟩
  have hlength : (q.queries ++ [payload]).length = q.queries.length + 1 := List.length_append
  constructor
  · exact hsound
  · intro submission hm
    rw [hsame] at hm
    have hlt := hq.arrived submission hm
    simp only [hlength]
    omega
  · simpa only [hsame] using hq.distinct
  · intro call hm
    have hcall := hq.handled call hm
    refine ⟨?_, ?_⟩
    · simp only [hlength]
      omega
    · simpa only [Pending, hsame] using hcall.2
  · intro answer hm
    simp only [hlength]
    rcases List.mem_append.mp hm with hm | hm
    · exact Nat.lt_succ_of_lt (hq.answered answer hm)
    · simp [List.mem_singleton.mp hm]
  · intro query hpending
    simp only [Pending, hsame] at hpending
    have hne : q.queries.length ≠ query := by
      rintro rfl
      exact hnot hpending
    rw [answersTo_concat, if_neg hne, List.append_nil]
    exact hq.pending query hpending
  · intro query hlt hpending
    simp only [Pending, hsame] at hpending
    rw [answersTo_concat]
    by_cases heq : q.queries.length = query
    · rw [if_pos heq]
      refine ⟨.replyErr error, ?_, ?_⟩
      · rw [← heq]
        exact congrArg (· ++ _) hnone
      · intro replyKey wire
        rw [← heq]
        constructor
        · intro h
          cases h
        · rintro ⟨-, h⟩
          exact absurd h (hserved wire)
    · rw [if_neg heq, List.append_nil]
      apply hq.settled query _ hpending
      simp only [hlength] at hlt
      omega

private theorem tracked_accept (hq : q.Tracked key threadCount capacity) (payload : Option Bytes)
    {executor : RunningExecutor QueryJob} (hsound : executor.Sound threadCount capacity)
    {number : Nat} {request : TransportEnvelope}
    (hheld : executor.executor.held.Perm
      (⟨number, ⟨q.queries.length, request⟩⟩ :: q.executor.executor.held)) :
    Tracked key threadCount capacity
      { q with executor, queries := q.queries ++ [payload] } := by
  rcases hq.fresh with ⟨hnone, hnot, hserved⟩
  have hlength : (q.queries ++ [payload]).length = q.queries.length + 1 := List.length_append
  have hpending : ∀ query,
      Pending { q with executor, queries := q.queries ++ [payload] } query ↔
        q.queries.length = query ∨ q.Pending query := by
    intro query
    simp only [Pending, hheld.mem_iff, List.exists_mem_cons_iff]
  constructor
  · exact hsound
  · intro submission hm
    simp only [hlength]
    rcases List.mem_cons.mp (hheld.mem_iff.mp hm) with rfl | hm
    · exact Nat.lt_succ_self _
    · exact Nat.lt_succ_of_lt (hq.arrived submission hm)
  · rw [(hheld.map _).nodup_iff, List.map_cons, List.nodup_cons]
    refine ⟨?_, hq.distinct⟩
    intro hm
    rcases List.mem_map.mp hm with ⟨submission, hm, hquery⟩
    exact hnot ⟨submission, hm, hquery⟩
  · intro call hm
    have hcall := hq.handled call hm
    refine ⟨?_, ?_⟩
    · simp only [hlength]
      omega
    · rw [hpending]
      rintro (heq | hcalled)
      · omega
      · exact hcall.2 hcalled
  · intro answer hm
    simp only [hlength]
    exact Nat.lt_succ_of_lt (hq.answered answer hm)
  · intro query hquery
    rcases (hpending query).mp hquery with rfl | hquery
    · exact hnone
    · exact hq.pending query hquery
  · intro query hlt hquery
    rw [hpending, not_or] at hquery
    apply hq.settled query _ hquery.2
    simp only [hlength] at hlt
    omega

private theorem tracked_finish (hq : q.Tracked key threadCount capacity)
    {executor : RunningExecutor QueryJob} (hsound : executor.Sound threadCount capacity)
    {submission : Submission QueryJob}
    (hheld : q.executor.executor.held.Perm (submission :: executor.executor.held))
    {outcome : HandlerOutcome} {answer : QueryAnswer}
    (hanswer : jobAnswer key outcome = some answer) :
    Tracked key threadCount capacity ⟨executor, q.receiveDecodeErrors, q.serviceQueueDrops,
      q.queries, q.handled ++ [(submission.task.query, outcome)],
      q.answers ++ [(submission.task.query, answer)]⟩ := by
  have hpending : ∀ query, q.Pending query ↔ submission.task.query = query ∨
      ∃ s ∈ executor.executor.held, s.task.query = query := by
    intro query
    simp only [Pending, hheld.mem_iff, List.exists_mem_cons_iff]
  have hdistinct := hq.distinct
  rw [(hheld.map _).nodup_iff, List.map_cons, List.nodup_cons] at hdistinct
  have hlt := hq.arrived submission (hheld.mem_iff.mpr List.mem_cons_self)
  have hwas : q.Pending submission.task.query := (hpending _).mpr (Or.inl rfl)
  have hgone : ¬∃ s ∈ executor.executor.held, s.task.query = submission.task.query :=
    fun h ↦ hdistinct.1 (List.mem_map.mpr h)
  constructor
  · exact hsound
  · exact fun s hm ↦ hq.arrived s (hheld.mem_iff.mpr (List.mem_cons_of_mem _ hm))
  · exact hdistinct.2
  · intro call hm
    rcases List.mem_append.mp hm with hm | hm
    · have hcall := hq.handled call hm
      exact ⟨hcall.1, fun h ↦ hcall.2 ((hpending _).mpr (Or.inr h))⟩
    · rw [List.mem_singleton.mp hm]
      exact ⟨hlt, hgone⟩
  · intro answer' hm
    rcases List.mem_append.mp hm with hm | hm
    · exact hq.answered answer' hm
    · rw [List.mem_singleton.mp hm]
      exact hlt
  · intro query hquery
    have hne : submission.task.query ≠ query := by
      rintro rfl
      exact hgone hquery
    rw [answersTo_concat, if_neg hne, List.append_nil]
    exact hq.pending query ((hpending query).mpr (Or.inr hquery))
  · intro query hquery hnot
    rw [answersTo_concat]
    by_cases heq : submission.task.query = query
    · rw [if_pos heq]
      refine ⟨answer, ?_, ?_⟩
      · rw [← heq]
        exact congrArg (· ++ _) (hq.pending _ hwas)
      · intro replyKey wire
        rw [← Option.some_inj, ← hanswer, jobAnswer_eq_reply, ← heq]
        apply and_congr_right
        rintro -
        apply exists_congr
        intro response
        apply exists_congr
        intro error
        apply and_congr_left
        rintro -
        constructor
        · rintro rfl
          exact List.mem_append_right _ List.mem_cons_self
        · intro hm
          rcases List.mem_append.mp hm with hm | hm
          · exact absurd hwas (hq.handled _ hm).2
          · exact (congrArg Prod.snd (List.mem_singleton.mp hm)).symm
    · rw [if_neg heq, List.append_nil]
      have hnot' : ¬q.Pending query := by
        rw [hpending]
        rintro (h | h)
        · exact heq h
        · exact hnot h
      rcases hq.settled query hquery hnot' with ⟨answer', hone, hreply⟩
      refine ⟨answer', hone, ?_⟩
      intro replyKey wire
      rw [hreply]
      apply and_congr_right
      rintro -
      apply exists_congr
      intro response
      apply exists_congr
      intro error
      apply and_congr_left
      rintro -
      simp [Ne.symm heq]

private theorem tracked_internal (hq : q.Tracked key threadCount capacity)
    {executor : RunningExecutor QueryJob} (hsound : executor.Sound threadCount capacity)
    (hheld : executor.executor.held.Perm q.executor.executor.held) :
    Tracked key threadCount capacity { q with executor } := by
  have hpending : ∀ query, Pending { q with executor } query ↔ q.Pending query := by
    intro query
    simp only [Pending, hheld.mem_iff]
  constructor
  · exact hsound
  · exact fun submission hm ↦ hq.arrived submission (hheld.mem_iff.mp hm)
  · exact (hheld.map _).nodup_iff.mpr hq.distinct
  · exact fun call hm ↦ ⟨(hq.handled call hm).1, (hpending _).not.mpr (hq.handled call hm).2⟩
  · exact hq.answered
  · exact fun query hquery ↦ hq.pending query ((hpending query).mp hquery)
  · exact fun query hlt hquery ↦ hq.settled query hlt ((hpending query).not.mp hquery)

private theorem tracked_query (hq : q.Tracked key threadCount capacity) {q' : QueryableRun}
    {payload : Option Bytes} {woken : Option Nat} (h : q.onQuery payload woken = some q') :
    q'.Tracked key threadCount capacity := by
  cases payload with
  | none =>
    cases h
    exact tracked_answer hq none hq.sound rfl _ _ _
  | some bytes =>
    simp only [onQuery] at h
    split at h
    · cases h
      exact tracked_answer hq (some bytes) hq.sound rfl _ _ _
    · next request _ _ =>
      rcases Option.map_eq_some_iff.mp h with ⟨executor, hstep, rfl⟩
      have hsound := RunningExecutor.sound_step _ _ _ hq.sound hstep
      rcases RunningExecutor.held_submit hstep with ⟨htry, hheld⟩ | ⟨htry, hsame⟩
      · simp only [htry, if_true]
        exact tracked_accept hq (some bytes) hsound hheld
      · simp only [htry, Bool.false_eq_true, if_false]
        exact tracked_answer hq (some bytes) hsound hsame _ _ _

/-- A worker that finishes releases its task and records the handler and its answer, if any. -/
theorem step_finish {q' : QueryableRun} {w : Nat} {outcome : HandlerOutcome}
    (h : q.step key (.finish w outcome) = some q') :
    ∃ executor submission,
      q.executor.step (.finish w (jobAnswer key outcome).isNone) = some executor ∧
      q.executor.executor.held.Perm (submission :: executor.executor.held) ∧
      q' = { q with
        executor
        handled := q.handled ++ [(submission.task.query, outcome)]
        answers := q.answers ++
          ((jobAnswer key outcome).toList.map fun answer ↦ (submission.task.query, answer)) } := by
  simp only [step] at h
  split at h
  · next submission hrunning =>
    rcases Option.map_eq_some_iff.mp h with ⟨executor, hstep, rfl⟩
    rcases RunningExecutor.held_finish hstep with ⟨submission', hrunning', hheld⟩
    cases hrunning.symm.trans hrunning'
    exact ⟨executor, submission, hstep, hheld, rfl⟩
  · cases h

private theorem decode_request {bytes : Bytes} {request : Option TransportEnvelope}
    {error : Option Bytes}
    (h : decodeEnvelope (vectorData bytes) (some {}) (some []) = (true, request, error)) :
    decodeEnvelope (vectorData bytes) (some {}) (some []) =
      (true, some (request.getD {}), some []) := by
  unfold vectorData at h ⊢
  split at h
  · cases h
  · next hne =>
    obtain ⟨e, flags, -, -, hdecode⟩ :=
      decodeEnvelope_sound bytes {} (some []) (congrArg Prod.fst h)
    rw [if_neg hne]
    rw [hdecode] at h ⊢
    cases h
    rfl

/-- The callback records its query, and answers it with an error or submits its request. -/
theorem step_query {q' : QueryableRun} {payload : Option Bytes} {woken : Option Nat}
    (h : q.step key (.query payload woken) = some q') :
    q'.queries = q.queries ++ [payload] ∧ q'.handled = q.handled ∧
      ((q'.executor.executor.held = q.executor.executor.held ∧
          ∃ error, q'.answers = q.answers ++ [(q.queries.length, .replyErr error)]) ∨
        ∃ bytes request, payload = some bytes ∧
          decodeEnvelope (vectorData bytes) (some {}) (some []) =
            (true, some request, some []) ∧
          q'.answers = q.answers ∧
          q'.executor.executor.held.Perm
            (⟨q.executor.submissions, ⟨q.queries.length, request⟩⟩ ::
              q.executor.executor.held)) := by
  cases payload with
  | none =>
    cases h
    exact ⟨rfl, rfl, Or.inl ⟨rfl, _, rfl⟩⟩
  | some bytes =>
    simp only [step, onQuery] at h
    split at h
    · cases h
      exact ⟨rfl, rfl, Or.inl ⟨rfl, _, rfl⟩⟩
    · next request error hdecode =>
      rcases Option.map_eq_some_iff.mp h with ⟨executor, hstep, hq'⟩
      rcases RunningExecutor.held_submit hstep with ⟨htry, hheld⟩ | ⟨htry, hsame⟩
      · simp only [htry, if_true] at hq'
        cases hq'
        exact ⟨rfl, rfl, Or.inr ⟨bytes, request.getD {}, rfl, decode_request hdecode, rfl, hheld⟩⟩
      · simp only [htry, Bool.false_eq_true, if_false] at hq'
        cases hq'
        exact ⟨rfl, rfl, Or.inl ⟨congrArg Executor.held hsame, _, rfl⟩⟩

/-- Any other step of the executor leaves the record alone. -/
theorem step_executor {q' : QueryableRun} {a : ExecutorAction QueryJob}
    (h : q.step key (.executor a) = some q') : ∃ executor,
      executor.executor.held.Perm q.executor.executor.held ∧ q' = { q with executor } := by
  simp only [step] at h
  split at h
  · next hinternal =>
    rcases Option.map_eq_some_iff.mp h with ⟨executor, hstep, rfl⟩
    exact ⟨executor, RunningExecutor.held_internal hinternal hstep, rfl⟩
  · cases h

/-- A step without a foreign exception keeps track of all queries. -/
theorem tracked_step (q : QueryableRun) (a : QueryableAction) (q' : QueryableRun)
    (hq : q.Tracked key threadCount capacity) (ha : a.Catchable) (h : q.step key a = some q') :
    q'.Tracked key threadCount capacity := by
  cases a with
  | query payload woken => exact tracked_query hq h
  | finish w outcome =>
    rcases step_finish h with ⟨executor, submission, hstep, hheld, rfl⟩
    have hsound := RunningExecutor.sound_step _ _ _ hq.sound hstep
    rcases Option.ne_none_iff_exists'.mp ((jobAnswer_eq_none key).not.mpr ha) with
      ⟨answer, hanswer⟩
    simp only [hanswer, Option.toList_some, List.map_cons, List.map_nil]
    exact tracked_finish hq hsound hheld hanswer
  | executor a =>
    simp only [step] at h
    split at h
    · next hinternal =>
      rcases Option.map_eq_some_iff.mp h with ⟨executor, hstep, rfl⟩
      exact tracked_internal hq (RunningExecutor.sound_step _ _ _ hq.sound hstep)
        (RunningExecutor.held_internal hinternal hstep)
    · cases h

/-- A foreign exception settles a query without an answer. -/
theorem not_answered_of_foreign (q : QueryableRun) (a : QueryableAction) (q' : QueryableRun)
    (hq : q.Tracked key threadCount capacity) (ha : ¬a.Catchable) (h : q.step key a = some q') :
    ¬q'.Answered key := by
  cases a with
  | query | executor => exact absurd trivial ha
  | finish w outcome =>
    have hforeign : outcome = .threwForeign := Classical.not_not.mp ha
    rcases step_finish h with ⟨executor, submission, hstep, hheld, rfl⟩
    have hheldBefore : submission ∈ q.executor.executor.held :=
      hheld.mem_iff.mpr List.mem_cons_self
    have hdistinct := hq.distinct
    rw [(hheld.map _).nodup_iff, List.map_cons, List.nodup_cons] at hdistinct
    have hnone := hq.pending _ ⟨submission, hheldBefore, rfl⟩
    intro hanswered
    rcases hanswered.settled submission.task.query (hq.arrived submission hheldBefore)
      (fun hpending ↦ hdistinct.1 (List.mem_map.mpr hpending)) with ⟨answer, hone, -⟩
    simp only [hforeign, jobAnswer, Option.toList_none, List.map_nil, List.append_nil] at hone
    rw [answersTo] at hnone hone
    rw [hnone] at hone
    cases hone

/-- A declared queryable has nothing to answer yet. -/
theorem tracked_init (key : Bytes) (threadCount capacity : Nat) :
    Tracked key threadCount capacity
      { executor := { executor := Executor.make threadCount capacity } } := by
  have hheld : (Executor.make (τ := Submission QueryJob) threadCount capacity).held = [] := by
    apply List.eq_nil_iff_forall_not_mem.mpr
    intro submission hm
    exact Executor.not_holds_make _ _ submission (Executor.mem_held.mp hm)
  constructor
  · exact RunningExecutor.sound_make threadCount capacity
  · simp [hheld]
  · simp [hheld]
  · simp
  · simp
  · simp [answersTo]
  · simp

end QueryableRun

/-- In a run from the declaration on, every query is answered exactly once at all times, by a reply
exactly where its handler returned true and the response encodes, if and only if no handler call
of the run ends with an exception that is not a `std::exception`. -/
theorem queries_answered_iff (key : Bytes) (threadCount capacity : Nat) (q : QueryableRun)
    (actions : List QueryableAction) (hq : (queryable key threadCount capacity).init q)
    (hrun : ((queryable key threadCount capacity).run q actions).isSome = true) :
    (queryable key threadCount capacity).Always (QueryableRun.Answered key) q actions ↔
      (queryable key threadCount capacity).Along (fun _ a ↦ a.Catchable) q actions := by
  cases hq
  apply Machine.always_iff_along (I := QueryableRun.Tracked key threadCount capacity)
    QueryableRun.tracked_step
  · exact fun _ ↦ QueryableRun.Tracked.toAnswered
  · exact QueryableRun.not_answered_of_foreign
  · exact QueryableRun.tracked_init key threadCount capacity
  · exact hrun

/-- The bytes of an empty request. -/
def emptyRequest : Bytes := frame 0 {}

/-- A queryable with one worker. -/
def oneWorker : QueryableRun := { executor := { executor := Executor.make 1 64 } }

/-- A request whose handler throws a `std::exception`, and one without a payload. -/
theorem queries_answered_iff_caught :
    (queryable [] 1 64).Always (QueryableRun.Answered []) oneWorker
      [.query (some emptyRequest) none, .query none none, .executor (.work 0),
        .finish 0 (.threw (ascii "bad"))] := by
  exact (queries_answered_iff [] 1 64 oneWorker _ rfl (by decide)).mpr (by decide)

/-- A request whose handler throws something else is never answered. -/
theorem queries_foreign_exception_unanswered :
    ∃ q, (queryable [] 1 64).run oneWorker [.query (some emptyRequest) none,
        .executor (.work 0), .finish 0 .threwForeign] = some q ∧
      q.queries.length = 1 ∧ q.executor.executor.held = [] ∧ q.answersTo 0 = [] ∧
      ¬q.Answered [] := by
  refine ⟨_, rfl, rfl, rfl, rfl, ?_⟩
  intro hanswered
  rcases hanswered.settled 0 (by decide) (by rintro ⟨_, hm, _⟩; cases hm) with ⟨_, hone, _⟩
  cases hone

end NetBridge.Transport
