import NetBridge.Base.Buffer
import NetBridge.Base.Machine
import NetBridge.Transport.Qos

/-!
# The history of a receive queue

Calls of `PushToBoundedEnvelopeQueue`
(`src/swarm_ros_bridge/src/transport/bridge_transport.cpp:263–282`) in any order with the pops of
the receive worker (`src/topic_factory.cpp:472–515`), from an empty queue on. The calls and their
results account for every envelope.
-/

namespace NetBridge.Transport

open NetBridge.Base

/-- A call on the queue, with its result. -/
inductive QueueCall where
  | pushed (envelope : TransportEnvelope) (result : BoundedQueuePushResult)
  | popped (envelope : TransportEnvelope)
deriving DecidableEq

/-- `recv_queue_` and the calls so far. -/
structure QueueRun where
  queue : List TransportEnvelope := []
  calls : List QueueCall := []
deriving DecidableEq

/-- What happens to the queue. -/
inductive QueueAction where
  | push (envelope : TransportEnvelope)
  | pop
deriving DecidableEq

/-- One call; the worker pops from a queue that is not empty. -/
def QueueRun.step (qosClass : QosClass) (r : QueueRun) : QueueAction → Option QueueRun
  | .push envelope =>
    match pushToBoundedEnvelopeQueue qosClass envelope (some r.queue) with
    | (result, queue) => some {
        queue := queue.getD r.queue
        calls := r.calls ++ [.pushed envelope result] }
  | .pop =>
    match r.queue with
    | [] => none
    | envelope :: queue => some { queue, calls := r.calls ++ [.popped envelope] }

/-- A receive queue of the given class. -/
def receiveQueue (qosClass : QosClass) : Machine QueueRun QueueAction where
  init r := r = {}
  step := QueueRun.step qosClass

namespace QueueCall

/-- The envelope of a push. -/
@[simp] def offers : QueueCall → List TransportEnvelope
  | pushed envelope _ => [envelope]
  | popped _ => []

/-- The envelope of a push that stored it. -/
@[simp] def accepts : QueueCall → List TransportEnvelope
  | pushed envelope .enqueued => [envelope]
  | pushed envelope .replacedOldest => [envelope]
  | _ => []

/-- The envelope of a pop. -/
@[simp] def pops : QueueCall → List TransportEnvelope
  | popped envelope => [envelope]
  | pushed _ _ => []

/-- Whether the call returned `kReplacedOldest`. -/
@[simp] def replaces : QueueCall → Bool
  | pushed _ .replacedOldest => true
  | _ => false

end QueueCall

namespace QueueRun

/-- The pushed envelopes in arrival order. -/
def pushed (r : QueueRun) : List TransportEnvelope := r.calls.flatMap QueueCall.offers

/-- The stored envelopes in arrival order. -/
def accepted (r : QueueRun) : List TransportEnvelope := r.calls.flatMap QueueCall.accepts

/-- The popped envelopes in the order of the pops. -/
def popped (r : QueueRun) : List TransportEnvelope := r.calls.flatMap QueueCall.pops

/-- The number of `kReplacedOldest` results. -/
def replacements (r : QueueRun) : Nat := r.calls.countP QueueCall.replaces

/-- The record of a buffer that stands for the calls of a run. -/
structure RecordOf (qosClass : QosClass) (r : QueueRun)
    (record : List (BufferEvent TransportEnvelope)) : Prop where
  buffered : Buffered record r.queue
  enters : record.flatMap BufferEvent.enters = r.accepted
  leaves : record.flatMap BufferEvent.leaves = r.popped
  evicts : (record.flatMap BufferEvent.evicts).length = r.replacements
  keeps : (getQosPolicy qosClass).keepLatest = false → r.replacements = 0
  stores : (getQosPolicy qosClass).keepLatest = true → r.pushed = r.accepted
  bounded : r.queue.length ≤ (getQosPolicy qosClass).queueCapacity

private theorem RecordOf.concat {qosClass : QosClass} {r : QueueRun}
    {record : List (BufferEvent TransportEnvelope)} (hr : RecordOf qosClass r record)
    {queue : List TransportEnvelope} {event : BufferEvent TransportEnvelope} {call : QueueCall}
    (hbuffered : Buffered (record ++ [event]) queue) (henters : event.enters = call.accepts)
    (hleaves : event.leaves = call.pops)
    (hevicts : event.evicts.length = if call.replaces then 1 else 0)
    (hkeeps : (getQosPolicy qosClass).keepLatest = false → call.replaces = false)
    (hstores : (getQosPolicy qosClass).keepLatest = true → call.offers = call.accepts)
    (hbounded : queue.length ≤ (getQosPolicy qosClass).queueCapacity) :
    RecordOf qosClass { queue, calls := r.calls ++ [call] } (record ++ [event]) where
  buffered := hbuffered
  enters := by
    rw [List.flatMap_append, List.flatMap_singleton, hr.enters, henters, accepted, accepted,
      List.flatMap_append, List.flatMap_singleton]
  leaves := by
    rw [List.flatMap_append, List.flatMap_singleton, hr.leaves, hleaves, popped, popped,
      List.flatMap_append, List.flatMap_singleton]
  evicts := by
    rw [List.flatMap_append, List.flatMap_singleton, List.length_append, hr.evicts, hevicts,
      replacements, replacements, List.countP_append, List.countP_singleton]
  keeps := by
    intro hkeep
    have hnone := hr.keeps hkeep
    rw [replacements] at hnone
    rw [replacements, List.countP_append, hnone, List.countP_singleton, hkeeps hkeep]
    rfl
  stores := by
    intro hkeep
    have hall := hr.stores hkeep
    rw [pushed, accepted] at hall
    rw [pushed, accepted, List.flatMap_append, List.flatMap_append, hall, List.flatMap_singleton,
      List.flatMap_singleton, hstores hkeep]
  bounded := hbounded

/-- Each call adds its event to the record. -/
theorem recordOf_step (qosClass : QosClass) (r : QueueRun) (a : QueueAction) (r' : QueueRun)
    (hr : ∃ record, RecordOf qosClass r record) (h : r.step qosClass a = some r') :
    ∃ record, RecordOf qosClass r' record := by
  rcases hr with ⟨record, hr⟩
  have hbuffered := hr.buffered
  have hbounded := hr.bounded
  cases a with
  | push envelope =>
    rcases pushToBoundedEnvelopeQueue_cases qosClass envelope r.queue with
      ⟨hroom, hpush⟩ | ⟨_, hkeep, hpush⟩ | ⟨hfull, hkeep, oldest, rest, hqueue, hpush⟩
    · rw [step, hpush] at h
      cases h
      refine ⟨_, hr.concat (hbuffered.enter envelope) rfl rfl rfl (fun _ ↦ rfl) (fun _ ↦ rfl) ?_⟩
      rw [Option.getD_some, List.length_append, List.length_singleton]
      omega
    · rw [step, hpush] at h
      cases h
      refine ⟨_, hr.concat (hbuffered.refuse envelope) rfl rfl rfl (fun _ ↦ rfl) ?_ hbounded⟩
      intro hlatest
      rw [hkeep] at hlatest
      cases hlatest
    · rw [step, hpush] at h
      cases h
      rw [hqueue] at hbuffered hbounded
      refine ⟨_, hr.concat (hbuffered.replace envelope) rfl rfl rfl ?_ (fun _ ↦ rfl) ?_⟩
      · intro holdest
        rw [hkeep] at holdest
        cases holdest
      · rw [Option.getD_some, List.length_append, List.length_singleton]
        exact hbounded
  | pop =>
    simp only [step] at h
    split at h
    · cases h
    · next envelope queue hqueue =>
      cases h
      rw [hqueue] at hbuffered hbounded
      refine ⟨_, hr.concat hbuffered.leave rfl rfl rfl (fun _ ↦ rfl) (fun _ ↦ rfl) ?_⟩
      rw [List.length_cons] at hbounded
      omega

/-- In every run the calls account for the queue. -/
theorem exists_recordOf {qosClass : QosClass} {r : QueueRun}
    (h : (receiveQueue qosClass).Reachable r) : ∃ record, RecordOf qosClass r record := by
  apply h.invariant (I := fun r ↦ ∃ record, RecordOf qosClass r record)
  · rintro _ rfl
    exact ⟨[], .empty, rfl, rfl, rfl, fun _ ↦ rfl, fun _ ↦ rfl, Nat.zero_le _⟩
  · exact recordOf_step qosClass

end QueueRun

/-- The discipline of a queue: it stays within its capacity; commands and service envelopes are
popped in the order in which they were accepted and refused exactly when 64 wait; state and bulk
envelopes are always stored, and each is popped, waits or was replaced, the newest one not. -/
structure QueueDiscipline (qosClass : QosClass) (r : QueueRun) : Prop where
  bounded : r.queue.length ≤ (getQosPolicy qosClass).queueCapacity
  ordered : qosClass = .command ∨ qosClass = .service → r.popped ++ r.queue = r.accepted
  refuses : qosClass = .command ∨ qosClass = .service → ∀ envelope,
    (pushToBoundedEnvelopeQueue qosClass envelope (some r.queue)).1 = .rejected ↔
      r.queue.length = 64
  stores : qosClass = .state ∨ qosClass = .bulk → ∀ envelope,
    (pushToBoundedEnvelopeQueue qosClass envelope (some r.queue)).1 ≠ .rejected ∧
      ∃ rest, (pushToBoundedEnvelopeQueue qosClass envelope (some r.queue)).2 =
        some (rest ++ [envelope])
  latest : qosClass = .state ∨ qosClass = .bulk →
    r.popped.Sublist r.pushed ∧ ∃ fates : List (TransportEnvelope × Fate),
      fates.map Prod.fst = r.pushed ∧ withFate .left fates = r.popped ∧
      withFate .waiting fates = r.queue ∧ (withFate .evicted fates).length = r.replacements ∧
      ∀ newest ∈ fates.getLast?, newest.2 ≠ .evicted

/-- Every receive queue keeps its discipline in every interleaving of pushes and pops. -/
theorem receive_queue_discipline (qosClass : QosClass) (r : QueueRun)
    (h : (receiveQueue qosClass).Reachable r) : QueueDiscipline qosClass r := by
  rcases QueueRun.exists_recordOf h with ⟨record, hr⟩
  have rejecting : qosClass = .command ∨ qosClass = .service →
      (getQosPolicy qosClass).keepLatest = false ∧
        (getQosPolicy qosClass).queueCapacity = 64 := by
    rintro (rfl | rfl) <;> exact ⟨rfl, rfl⟩
  have keeping : qosClass = .state ∨ qosClass = .bulk →
      (getQosPolicy qosClass).keepLatest = true := by
    rintro (rfl | rfl) <;> rfl
  constructor
  · exact hr.bounded
  · intro hclass
    have hkeeps := hr.keeps (rejecting hclass).1
    rw [← hr.evicts, List.length_eq_zero_iff] at hkeeps
    rw [← hr.enters, ← hr.leaves, hr.buffered.enters_eq hkeeps]
  · intro hclass envelope
    have hbounded := hr.bounded
    rw [(rejecting hclass).2] at hbounded
    rcases pushToBoundedEnvelopeQueue_cases qosClass envelope r.queue with
      ⟨hroom, hpush⟩ | ⟨hfull, _, hpush⟩ | ⟨_, hkeep, _⟩
    · rw [(rejecting hclass).2] at hroom
      simp only [hpush, reduceCtorEq, false_iff]
      omega
    · rw [(rejecting hclass).2] at hfull
      simp only [hpush, true_iff]
      omega
    · rw [(rejecting hclass).1] at hkeep
      cases hkeep
  · intro hclass envelope
    rcases pushToBoundedEnvelopeQueue_cases qosClass envelope r.queue with
      ⟨_, hpush⟩ | ⟨_, hkeep, _⟩ | ⟨_, _, oldest, rest, _, hpush⟩
    · exact ⟨by simp [hpush], r.queue, by rw [hpush]⟩
    · rw [keeping hclass] at hkeep
      cases hkeep
    · exact ⟨by simp [hpush], rest, by rw [hpush]⟩
  · intro hclass
    have hstores := hr.stores (keeping hclass)
    rw [hstores, ← hr.enters, ← hr.leaves, ← hr.evicts]
    refine ⟨hr.buffered.leaves_sublist, fates record r.queue, hr.buffered.map_fates,
      withFate_left record r.queue, withFate_contents record r.queue, ?_, ?_⟩
    · rw [withFate_evicted]
    · intro newest hnewest
      exact hr.buffered.newest hnewest

/-- A state queue in which one envelope was replaced and the next one popped. -/
theorem receive_queue_discipline_replaced :
    ∃ r, QueueDiscipline .state r ∧ r.replacements = 1 ∧ r.popped.length = 1 :=
  ⟨_, receive_queue_discipline .state _
    ⟨{}, [.push { sequence := 1 }, .push { sequence := 2 }, .pop], rfl, rfl⟩, by decide, by decide⟩

end NetBridge.Transport
