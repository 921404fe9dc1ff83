import NetBridge.Base.Machine
import NetBridge.Topic.Metrics

/-!
# What becomes of received envelopes

`enqueueEnvelope`, `recvFunction` and `deserializePublish` with all that they record,
`src/swarm_ros_bridge/src/topic_factory.cpp:337–346,433–515,542–570`, for a receiver that runs: a
call of `enqueueEnvelope`, a pop of the worker and the end of a popped envelope are one step each.
The locks and the condition variable are those of `Receiver`.
-/

namespace NetBridge.Topic

open NetBridge.Base NetBridge.Diagnostics NetBridge.Transport

/-- A receiving `TopicFactory`: its flag, its queue, the envelope that the worker has popped, and
its metrics. The completed calls of `enqueueEnvelope` and the results of the pushes are
recorded. -/
structure Reception where
  recvThreadFlag : Bool := true
  recvQueue : List TransportEnvelope := []
  popped : Option TransportEnvelope := none
  metrics : TopicRuntimeState := {}
  calls : List TransportEnvelope := []
  pushes : List BoundedQueuePushResult := []

/-- The atomic steps. -/
inductive ReceptionAction where
  /-- A call of `enqueueEnvelope`. -/
  | enqueue (envelope : TransportEnvelope)
  | pop
  /-- `deserializePublish` publishes and records, with the readings of the clock for the latency
  and for the record. -/
  | publish (latencyNow now : RosTime)
  /-- `deserializePublish` throws a `std::exception`. -/
  | fail
  /-- `stopThread` clears the flag. -/
  | stop
deriving DecidableEq

/-- The number of messages that a step publishes. -/
def ReceptionAction.published : ReceptionAction → Nat
  | .publish _ _ => 1
  | _ => 0

/-- The number of messages that a step cannot publish. -/
def ReceptionAction.failed : ReceptionAction → Nat
  | .fail => 1
  | _ => 0

namespace Reception

section

variable (msgs : List MessageType) (topicCfg : TopicCfg)

/-- The part of `enqueueEnvelope` that holds `recv_mutex_`; `topic_factory.cpp:472–490`. -/
def push (r : Reception) (envelope : TransportEnvelope) : Reception :=
  if !r.recvThreadFlag then r
  else
    match pushToBoundedEnvelopeQueue topicCfg.qosClass envelope (some r.recvQueue) with
    | (.rejected, _) => { r with
        metrics := recordTransportQueueDrop r.metrics
        pushes := r.pushes ++ [.rejected] }
    | (.replacedOldest, queue) => { r with
        recvQueue := queue.getD r.recvQueue
        metrics := recordTransportQueueDrop r.metrics
        pushes := r.pushes ++ [.replacedOldest] }
    | (.enqueued, queue) => { r with
        recvQueue := queue.getD r.recvQueue
        pushes := r.pushes ++ [.enqueued] }

/-- `recordCompleteImageEnvelope` where the type is that of images; `topic_factory.cpp:468–470`. -/
def observe (r : Reception) (envelope : TransportEnvelope) : Reception :=
  if topicCfg.type = imageType then
    { r with metrics := recordCompleteImageEnvelope envelope.sequence r.metrics }
  else r

/-- `enqueueEnvelope`; `topic_factory.cpp:433–491`. Each check that fails records a drop. -/
def enqueueEnvelope (r : Reception) (envelope : TransportEnvelope) : Reception :=
  if admits msgs topicCfg envelope then (r.observe topicCfg envelope).push topicCfg envelope
  else { r with metrics := recordDrop r.metrics }

/-- One atomic step, where it is enabled. -/
def step (r : Reception) : ReceptionAction → Option Reception
  | .enqueue envelope =>
    some { r.enqueueEnvelope msgs topicCfg envelope with calls := r.calls ++ [envelope] }
  | .pop =>
    match r.popped, r.recvQueue with
    | none, envelope :: queue => some { r with recvQueue := queue, popped := some envelope }
    | _, _ => none
  | .publish latencyNow now =>
    match r.popped with
    | some envelope => some { r with
        popped := none
        metrics := recordReceive (UInt64.ofNat envelope.payload.length)
          (inferLatencyMs envelope.sourceTimeNs latencyNow) now r.metrics }
    | none => none
  | .fail =>
    match r.popped with
    | some _ => some { r with popped := none, metrics := recordDrop r.metrics }
    | none => none
  | .stop => some { r with recvThreadFlag := false }

end

end Reception

/-- A receiver that has been started. -/
def Reception.start (topicCfg : TopicCfg) : Reception := { metrics := initialMetrics topicCfg }

/-- A receiver of a configuration from its start on. -/
def reception (msgs : List MessageType) (topicCfg : TopicCfg) :
    Machine Reception ReceptionAction where
  init r := r = Reception.start topicCfg
  step := Reception.step msgs topicCfg

namespace Reception

/-- The number of envelopes that a push replaced or rejected. -/
def queueLosses (r : Reception) : Nat := r.pushes.countP fun result ↦ result ≠ .enqueued

/-- The envelopes that wait or are in the worker. -/
def inside (r : Reception) : Nat := r.recvQueue.length + r.popped.toList.length

variable {msgs : List MessageType} {topicCfg : TopicCfg} {r : Reception}

/-! ## What a step does -/

/-- What the push of a running receiver does: the envelope stays inside, it does and another one is
counted as a drop of the queue, or it is counted itself. -/
theorem push_cases (topicCfg : TopicCfg) (hflag : r.recvThreadFlag = true)
    (envelope : TransportEnvelope) :
    ∃ queue result, (result = .enqueued ∧ queue.length = r.recvQueue.length + 1 ∧
        r.push topicCfg envelope =
          { r with recvQueue := queue, pushes := r.pushes ++ [result] }) ∨
      (result ≠ .enqueued ∧ queue.length = r.recvQueue.length ∧
        r.push topicCfg envelope = { r with
          recvQueue := queue
          metrics := recordTransportQueueDrop r.metrics
          pushes := r.pushes ++ [result] }) := by
  unfold push
  rw [hflag]
  rcases pushToBoundedEnvelopeQueue_cases topicCfg.qosClass envelope r.recvQueue with
    ⟨_, hpush⟩ | ⟨_, _, hpush⟩ | ⟨_, _, oldest, rest, hqueue, hpush⟩
  · refine ⟨r.recvQueue ++ [envelope], .enqueued, Or.inl ⟨rfl, by simp, ?_⟩⟩
    simp [hpush]
  · refine ⟨r.recvQueue, .rejected, Or.inr ⟨by decide, rfl, ?_⟩⟩
    simp [hpush]
  · refine ⟨rest ++ [envelope], .replacedOldest, Or.inr ⟨by decide, by simp [hqueue], ?_⟩⟩
    simp [hpush]

/-- The worker takes the envelope that has waited longest. -/
theorem step_pop {r' : Reception} (h : r.step msgs topicCfg .pop = some r') :
    ∃ envelope queue, r.popped = none ∧ r.recvQueue = envelope :: queue ∧
      r' = { r with recvQueue := queue, popped := some envelope } := by
  simp only [step] at h
  split at h
  · next envelope queue hpopped hqueue =>
    cases h
    exact ⟨envelope, queue, hpopped, hqueue, rfl⟩
  · cases h

/-- The worker publishes what it holds and records it. -/
theorem step_publish {r' : Reception} {latencyNow now : RosTime}
    (h : r.step msgs topicCfg (.publish latencyNow now) = some r') :
    ∃ envelope, r.popped = some envelope ∧ r' = { r with
      popped := none
      metrics := recordReceive (UInt64.ofNat envelope.payload.length)
        (inferLatencyMs envelope.sourceTimeNs latencyNow) now r.metrics } := by
  simp only [step] at h
  split at h
  · next envelope hpopped =>
    cases h
    exact ⟨envelope, hpopped, rfl⟩
  · cases h

/-- The worker drops what it holds. -/
theorem step_fail {r' : Reception} (h : r.step msgs topicCfg .fail = some r') :
    ∃ envelope, r.popped = some envelope ∧
      r' = { r with popped := none, metrics := recordDrop r.metrics } := by
  simp only [step] at h
  split at h
  · next envelope hpopped =>
    cases h
    exact ⟨envelope, hpopped, rfl⟩
  · cases h

/-! ## Every call is accounted for -/

/-- The counters are those of so many received and dropped messages, and while the receiver runs
these and the envelopes inside make up the calls. -/
structure Tallied (n m : Nat) (r : Reception) : Prop where
  received : r.metrics.totalReceived = UInt64.ofNat n
  dropped : r.metrics.droppedMessages = UInt64.ofNat m
  queueDrops : r.metrics.transportQueueDrops = UInt64.ofNat r.queueLosses
  pushes : r.pushes.length ≤ r.calls.length
  calls : r.recvThreadFlag = true → r.calls.length = n + m + r.inside

private theorem observe_eq (topicCfg : TopicCfg) (r : Reception) (envelope : TransportEnvelope) :
    ∃ metrics : TopicRuntimeState, metrics.toMessageCounts = r.metrics.toMessageCounts ∧
      r.observe topicCfg envelope = { r with metrics } := by
  unfold observe
  split
  · exact ⟨_, counts_recordCompleteImageEnvelope r.metrics envelope.sequence, rfl⟩
  · exact ⟨r.metrics, rfl, rfl⟩

private theorem tallied_observe {received dropped : Nat} (topicCfg : TopicCfg)
    (hr : Tallied received dropped r) (envelope : TransportEnvelope) :
    Tallied received dropped (r.observe topicCfg envelope) := by
  rcases observe_eq topicCfg r envelope with ⟨metrics, hcounts, hobserve⟩
  rw [hobserve]
  constructor
  · exact (congrArg MessageCounts.totalReceived hcounts).trans hr.received
  · exact (congrArg MessageCounts.droppedMessages hcounts).trans hr.dropped
  · exact (congrArg MessageCounts.transportQueueDrops hcounts).trans hr.queueDrops
  · exact hr.pushes
  · exact hr.calls

private theorem tallied_push {received dropped : Nat} (topicCfg : TopicCfg)
    (hr : Tallied received dropped r) (envelope : TransportEnvelope) :
    ∃ dropped', Tallied received dropped' { r.push topicCfg envelope with
      calls := r.calls ++ [envelope] } := by
  have hpushes := hr.pushes
  rcases Bool.eq_false_or_eq_true r.recvThreadFlag with hflag | hflag
  · have hcalls := hr.calls hflag
    rcases push_cases topicCfg hflag envelope with
      ⟨queue, result, ⟨hresult, hlength, hpush⟩ | ⟨hresult, hlength, hpush⟩⟩
    · refine ⟨dropped, ?_, ?_, ?_, ?_, ?_⟩
      · simpa [hpush] using hr.received
      · simpa [hpush] using hr.dropped
      · simpa [hpush, queueLosses, hresult] using hr.queueDrops
      · simpa [hpush] using hpushes
      · intro _
        simp only [hpush, inside, List.length_append, List.length_singleton] at hcalls ⊢
        omega
    · refine ⟨dropped + 1, ?_, ?_, ?_, ?_, ?_⟩
      · simpa [hpush] using hr.received
      · simp [hpush, hr.dropped, UInt64.ofNat_add]
      · simp [hpush, queueLosses, hresult, hr.queueDrops, UInt64.ofNat_add]
      · simpa [hpush] using hpushes
      · intro _
        simp only [hpush, inside, List.length_append, List.length_singleton] at hcalls ⊢
        omega
  · have hpush : r.push topicCfg envelope = r := by simp [push, hflag]
    rw [hpush]
    refine ⟨dropped, hr.received, hr.dropped, hr.queueDrops, ?_, ?_⟩
    · simp only [List.length_append, List.length_singleton]
      omega
    · simp [hflag]

private theorem tallied_enqueue {received dropped : Nat} (hr : Tallied received dropped r)
    (envelope : TransportEnvelope) : ∃ dropped', Tallied received dropped'
      { r.enqueueEnvelope msgs topicCfg envelope with calls := r.calls ++ [envelope] } := by
  unfold enqueueEnvelope
  split
  · rcases observe_eq topicCfg r envelope with ⟨metrics, _, hobserve⟩
    have hpushed := tallied_push topicCfg (tallied_observe topicCfg hr envelope) envelope
    rw [hobserve] at hpushed ⊢
    exact hpushed
  · have hpushes := hr.pushes
    refine ⟨dropped + 1, ?_, ?_, ?_, ?_, ?_⟩
    · simpa using hr.received
    · simp [hr.dropped, UInt64.ofNat_add]
    · simpa [queueLosses] using hr.queueDrops
    · simp only [List.length_append, List.length_singleton]
      omega
    · intro hflag
      have hcalls := hr.calls hflag
      simp only [inside, List.length_append, List.length_singleton] at hcalls ⊢
      omega

private theorem Tallied.finish {received dropped received' dropped' : Nat}
    (hr : Tallied received dropped r) {envelope : TransportEnvelope}
    (hpopped : r.popped = some envelope) {metrics : TopicRuntimeState}
    (hone : received' + dropped' = received + dropped + 1)
    (hreceived : metrics.totalReceived = UInt64.ofNat received')
    (hdropped : metrics.droppedMessages = UInt64.ofNat dropped')
    (hqueue : metrics.transportQueueDrops = r.metrics.transportQueueDrops) :
    Tallied received' dropped' { r with popped := none, metrics } where
  received := hreceived
  dropped := hdropped
  queueDrops := hqueue.trans hr.queueDrops
  pushes := hr.pushes
  calls := by
    intro hflag
    have hcalls := hr.calls hflag
    simp only [inside, hpopped, Option.toList_none, Option.toList_some, List.length_cons,
      List.length_nil] at hcalls ⊢
    omega

/-- A step keeps the tally, and one that publishes a message adds it. -/
theorem tallied_next {received dropped : Nat} {a : ReceptionAction} {r' : Reception}
    (hr : Tallied received dropped r) (h : r.step msgs topicCfg a = some r') :
    ∃ dropped', Tallied (received + a.published) dropped' r' := by
  cases a with
  | enqueue envelope =>
    cases h
    exact tallied_enqueue hr envelope
  | pop =>
    rcases step_pop h with ⟨envelope, queue, hpopped, hqueue, rfl⟩
    refine ⟨dropped, hr.received, hr.dropped, hr.queueDrops, hr.pushes, ?_⟩
    intro hflag
    have hcalls := hr.calls hflag
    simp only [inside, hpopped, hqueue, Option.toList_none, Option.toList_some,
      List.length_cons, List.length_nil, ReceptionAction.published] at hcalls ⊢
    omega
  | publish latencyNow now =>
    rcases step_publish h with ⟨envelope, hpopped, rfl⟩
    refine ⟨dropped, hr.finish hpopped ?_ ?_ ?_ ?_⟩
    · simp only [ReceptionAction.published]
      omega
    · simp [hr.received, UInt64.ofNat_add, ReceptionAction.published]
    · simpa using hr.dropped
    · simp
  | fail =>
    rcases step_fail h with ⟨envelope, hpopped, rfl⟩
    refine ⟨dropped + 1, hr.finish hpopped ?_ ?_ ?_ ?_⟩
    · simp only [ReceptionAction.published]
      omega
    · simpa [ReceptionAction.published] using hr.received
    · simp [hr.dropped, UInt64.ofNat_add]
    · simp
  | stop =>
    cases h
    exact ⟨dropped, hr.received, hr.dropped, hr.queueDrops, hr.pushes, nofun⟩

/-- A step keeps the tally. -/
theorem tallied_step (r : Reception) (a : ReceptionAction) (r' : Reception)
    (hr : ∃ received dropped, Tallied received dropped r) (h : r.step msgs topicCfg a = some r') :
    ∃ received dropped, Tallied received dropped r' := by
  rcases hr with ⟨received, dropped, hr⟩
  exact ⟨_, tallied_next hr h⟩

/-- The calls whose envelopes did not pass the checks. -/
def refused (msgs : List MessageType) (topicCfg : TopicCfg) (r : Reception) : Nat :=
  r.calls.countP fun envelope ↦ !admits msgs topicCfg envelope

private theorem inside_push (topicCfg : TopicCfg) (hflag : r.recvThreadFlag = true)
    (envelope : TransportEnvelope) :
    (r.push topicCfg envelope).queueLosses + (r.push topicCfg envelope).inside =
      r.queueLosses + r.inside + 1 := by
  rcases push_cases topicCfg hflag envelope with
    ⟨queue, result, ⟨hresult, hlength, hpush⟩ | ⟨hresult, hlength, hpush⟩⟩
  · have hlosses : (r.pushes ++ [result]).countP (fun result ↦ decide (result ≠ .enqueued)) =
        r.queueLosses := by
      simp [queueLosses, hresult]
    simp only [hpush, queueLosses, inside] at hlosses ⊢
    omega
  · have hlosses : (r.pushes ++ [result]).countP (fun result ↦ decide (result ≠ .enqueued)) =
        r.queueLosses + 1 := by
      simp [queueLosses, hresult]
    simp only [hpush, queueLosses, inside] at hlosses ⊢
    omega

/-- While the receiver runs, the calls are the published messages, those that could not be
published, the losses of the queue, the refused envelopes and those inside. -/
theorem inside_step {published failed : Nat} {a : ReceptionAction} {r' : Reception}
    (hr : r.recvThreadFlag = true → r.calls.length =
      published + r.queueLosses + failed + r.refused msgs topicCfg + r.inside)
    (h : r.step msgs topicCfg a = some r') (hflag : r'.recvThreadFlag = true) :
    r'.calls.length = (published + a.published) + r'.queueLosses + (failed + a.failed) +
      r'.refused msgs topicCfg + r'.inside := by
  cases a with
  | enqueue envelope =>
    cases h
    have hlength : (r.calls ++ [envelope]).length = r.calls.length + 1 := List.length_append
    have hrefused : (r.calls ++ [envelope]).countP (fun e ↦ !admits msgs topicCfg e) =
        r.refused msgs topicCfg + if admits msgs topicCfg envelope then 0 else 1 := by
      rw [List.countP_append, List.countP_singleton, refused]
      cases admits msgs topicCfg envelope <;> rfl
    simp only [enqueueEnvelope] at hflag ⊢
    split at hflag
    · next hadmits =>
      rcases observe_eq topicCfg r envelope with ⟨metrics, _, hobserve⟩
      have hkeeps : r.recvThreadFlag = true := by
        rw [hobserve] at hflag
        unfold push at hflag
        split at hflag
        · exact hflag
        · next hrun =>
          rw [Bool.not_eq_true, Bool.not_eq_false'] at hrun
          exact hrun
      have hpush := inside_push (r := { r with metrics }) topicCfg hkeeps envelope
      have hcalls := hr hkeeps
      rw [if_pos hadmits] at hrefused ⊢
      rw [hobserve]
      simp only [queueLosses, inside, refused, ReceptionAction.published,
        ReceptionAction.failed] at hpush hcalls hrefused ⊢
      omega
    · next hadmits =>
      have hcalls := hr hflag
      rw [if_neg hadmits] at hrefused ⊢
      simp only [queueLosses, inside, refused, ReceptionAction.published,
        ReceptionAction.failed] at hcalls hrefused ⊢
      omega
  | pop =>
    rcases step_pop h with ⟨envelope, queue, hpopped, hqueue, rfl⟩
    have hcalls := hr hflag
    simp only [queueLosses, refused, inside, hpopped, hqueue, Option.toList_none,
      Option.toList_some, List.length_cons, List.length_nil, ReceptionAction.published,
      ReceptionAction.failed] at hcalls ⊢
    omega
  | publish latencyNow now =>
    rcases step_publish h with ⟨envelope, hpopped, rfl⟩
    have hcalls := hr hflag
    simp only [queueLosses, refused, inside, hpopped, Option.toList_none, Option.toList_some,
      List.length_cons, List.length_nil, ReceptionAction.published,
      ReceptionAction.failed] at hcalls ⊢
    omega
  | fail =>
    rcases step_fail h with ⟨envelope, hpopped, rfl⟩
    have hcalls := hr hflag
    simp only [queueLosses, refused, inside, hpopped, Option.toList_none, Option.toList_some,
      List.length_cons, List.length_nil, ReceptionAction.published,
      ReceptionAction.failed] at hcalls ⊢
    omega
  | stop =>
    cases h
    cases hflag

/-- Every run keeps the tally. -/
theorem tallied_of_reachable (h : (reception msgs topicCfg).Reachable r) :
    ∃ received dropped, Tallied received dropped r := by
  apply h.invariant (I := fun r ↦ ∃ received dropped, Tallied received dropped r)
  · rintro _ rfl
    exact ⟨0, 0, rfl, rfl, rfl, Nat.zero_le _, fun _ ↦ rfl⟩
  · exact tallied_step

/-- The completed calls are the received and dropped messages and the envelopes inside, in the
arithmetic of the counters and, below `2 ^ 64` calls, exactly; likewise the drops of the queue. -/
structure Accounted (r : Reception) : Prop where
  calls : UInt64.ofNat r.calls.length =
    r.metrics.totalReceived + r.metrics.droppedMessages +
      UInt64.ofNat r.recvQueue.length + if r.popped.isSome then 1 else 0
  queueDrops : r.metrics.transportQueueDrops = UInt64.ofNat r.queueLosses
  exact : r.calls.length < 2 ^ 64 →
    r.calls.length = r.metrics.totalReceived.toNat + r.metrics.droppedMessages.toNat +
        r.recvQueue.length + (if r.popped.isSome then 1 else 0) ∧
      r.metrics.transportQueueDrops.toNat = r.queueLosses

end Reception

/-- In every state of a running receiver the counters account for all completed calls. -/
theorem reception_accounted (msgs : List MessageType) (topicCfg : TopicCfg) (r : Reception)
    (h : (reception msgs topicCfg).Reachable r) (hflag : r.recvThreadFlag = true) :
    r.Accounted := by
  rcases Reception.tallied_of_reachable h with ⟨received, dropped, hr⟩
  have hcalls := hr.calls hflag
  have hpopped : r.popped.toList.length = if r.popped.isSome then 1 else 0 := by
    cases r.popped <;> rfl
  rw [Reception.inside, hpopped] at hcalls
  constructor
  · rw [hr.received, hr.dropped, hcalls]
    cases r.popped <;> simp [UInt64.ofNat_add, UInt64.add_assoc]
  · exact hr.queueDrops
  · intro hlt
    have hlosses : r.queueLosses ≤ r.calls.length := le_trans List.countP_le_length hr.pushes
    rw [hr.received, hr.dropped, hr.queueDrops, UInt64.toNat_ofNat_of_lt',
      UInt64.toNat_ofNat_of_lt', UInt64.toNat_ofNat_of_lt']
    · exact ⟨by omega, rfl⟩
    · exact Nat.lt_of_le_of_lt hlosses hlt
    · exact Nat.lt_of_le_of_lt (by omega) hlt
    · exact Nat.lt_of_le_of_lt (by omega) hlt

/-- A receiver of images from one source. -/
def imageReceiver : TopicCfg where
  type := imageType
  srcHostname := ascii "drone1"
  srcHostnameMap := (∅ : HostMap).insert (ascii "drone1") true

/-- An envelope of that source. -/
def imageEnvelope (sequence : UInt64) : TransportEnvelope where
  payloadKind := .jpeg
  sequence := sequence
  sourceHost := ascii "drone1"
  rosType := imageType

/-- Of four calls one is rejected, one replaces a waiting envelope, one is received, one waits. -/
theorem reception_accounted_replaced :
    ∃ r, Reception.Accounted r ∧ r.calls.length = 4 ∧ r.queueLosses = 1 :=
  ⟨_, reception_accounted [] imageReceiver _ ⟨.start imageReceiver, [.enqueue {},
    .enqueue (imageEnvelope 1), .enqueue (imageEnvelope 2), .pop, .publish {} {},
    .enqueue (imageEnvelope 4)], rfl, rfl⟩ rfl, rfl, rfl⟩

private theorem run_rejected {msgs : List MessageType} {topicCfg : TopicCfg}
    (envelope : TransportEnvelope) (hreject : admits msgs topicCfg envelope = false) (n : Nat)
    (r : Reception) : ∃ r', (reception msgs topicCfg).run r
        (List.replicate n (.enqueue envelope)) = some r' ∧
      r'.recvThreadFlag = r.recvThreadFlag ∧ r'.recvQueue = r.recvQueue ∧ r'.popped = r.popped ∧
      r'.calls.length = r.calls.length + n ∧
      r'.metrics.totalReceived = r.metrics.totalReceived ∧
      r'.metrics.droppedMessages = r.metrics.droppedMessages + UInt64.ofNat n := by
  induction n generalizing r with
  | zero => exact ⟨r, rfl, rfl, rfl, rfl, rfl, rfl, by simp⟩
  | succ n ih =>
    rcases ih { r with metrics := recordDrop r.metrics, calls := r.calls ++ [envelope] } with
      ⟨r', hrun, hflag, hqueue, hpopped, hcalls, hreceived, hdropped⟩
    refine ⟨r', ?_, hflag, hqueue, hpopped, ?_, hreceived, ?_⟩
    · rw [List.replicate_succ, Machine.run_cons_eq_some]
      refine ⟨_, rfl, ?_⟩
      rw [Reception.enqueueEnvelope, hreject]
      exact hrun
    · simp only [hcalls, List.length_append, List.length_singleton]
      omega
    · simp [hdropped, UInt64.ofNat_add, UInt64.add_assoc, UInt64.add_comm 1]

/-- After `2 ^ 64` rejected envelopes the counters are back at zero. -/
theorem reception_counters_wrap :
    ∃ r, (reception [] {}).Reachable r ∧ r.recvThreadFlag = true ∧ r.calls.length = 2 ^ 64 ∧
      r.metrics.totalReceived.toNat + r.metrics.droppedMessages.toNat + r.recvQueue.length +
        (if r.popped.isSome then 1 else 0) = 0 := by
  rcases @run_rejected [] {} { payloadKind := .jpeg } rfl (2 ^ 64) (.start {}) with
    ⟨r, hrun, hflag, hqueue, hpopped, hcalls, hreceived, hdropped⟩
  refine ⟨r, ⟨.start {}, _, rfl, hrun⟩, hflag, ?_, ?_⟩
  · rw [hcalls]
    exact Nat.zero_add _
  · rw [hreceived, hdropped, hqueue, hpopped]
    rfl

end NetBridge.Topic
