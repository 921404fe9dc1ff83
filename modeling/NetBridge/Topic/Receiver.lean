import NetBridge.Base.Machine
import NetBridge.Transport.Qos

/-!
# The receive worker

`recvFunction`, `createThread`, `stopThread` and the locked part of `enqueueEnvelope`,
`src/swarm_ros_bridge/src/topic_factory.cpp:472–515,658–700`, as one machine. An action is one
atomic step of the worker thread, of the thread that owns the factory, or of a subscription
callback; `recv_mutex_` is the `owner` field and `recv_condition_` has the worker as its only
waiter.
-/

namespace NetBridge.Topic

open NetBridge.Base NetBridge.Transport

/-- Where the worker stands in `recvFunction`; `topic_factory.cpp:493–515`. -/
inductive WorkerPc where
  | notStarted
  /-- About to lock at the top of the loop. -/
  | unlocked
  /-- Holding the mutex, about to evaluate the wait predicate. -/
  | testing
  /-- The predicate was false; about to release the mutex and sleep in one step. -/
  | dozing
  | asleep
  /-- Woken, about to lock again inside `wait`. -/
  | woken
  /-- The predicate was true; holding the mutex. -/
  | passed
  | processing (envelope : TransportEnvelope)
  | exited
deriving DecidableEq

/-- Where the owner stands in `createThread` or `stopThread`; `topic_factory.cpp:658–700`. -/
inductive OwnerPc where
  | fresh
  | starting
  | subscribing
  | running
  /-- `Subscribe` threw; about to clear the flag. -/
  | failing
  | failNotifying
  | failJoining
  | failed
  /-- The subscription is reset; about to exchange the flag. -/
  | stopping
  | notifying
  | joining
  | stopped
deriving DecidableEq

/-- Where one call of `enqueueEnvelope` stands, its checks passed; `topic_factory.cpp:472–491`. -/
inductive CallPc where
  | idle
  | entering (envelope : TransportEnvelope)
  | holding (envelope : TransportEnvelope)
  /-- The flag was read as true; about to push. -/
  | checked (envelope : TransportEnvelope)
  /-- The mutex is released; about to notify. -/
  | released
deriving DecidableEq

/-- Who holds `recv_mutex_`. -/
inductive MutexOwner where
  | worker
  | call (id : Nat)
deriving DecidableEq

/-- The members of `TopicFactory` that the three threads share, and where each stands. -/
structure Receiver where
  recvThreadFlag : Bool := false
  recvQueue : List TransportEnvelope := []
  owner : Option MutexOwner := none
  worker : WorkerPc := .notStarted
  control : OwnerPc := .fresh
  calls : Nat → CallPc := fun _ ↦ .idle
  /-- A `notify_all` of the owner has been executed. -/
  notified : Bool := false

/-- The atomic steps. -/
inductive ReceiverAction where
  | createThread
  | spawn
  | subscribed
  | subscribeThrew
  | storeFlag
  | resetSubscription
  | exchangeFlag
  | notifyAll
  | join
  | lock
  | evaluate
  | sleep
  | wakeSpuriously
  | pop
  | finish
  | call (id : Nat) (envelope : TransportEnvelope)
  | acquire (id : Nat)
  | loadFlag (id : Nat)
  | push (id : Nat)
  | notifyOne (id : Nat)
deriving DecidableEq

/-- A notification wakes the worker if it sleeps and is lost otherwise. -/
def WorkerPc.notify : WorkerPc → WorkerPc
  | asleep => woken
  | pc => pc

/-- One call of `enqueueEnvelope` moves on. -/
def Receiver.setCall (r : Receiver) (id : Nat) (pc : CallPc) : Receiver :=
  { r with calls := fun i ↦ if i = id then pc else r.calls i }

/-- One atomic step, where it is enabled. -/
def Receiver.step (qosClass : QosClass) (r : Receiver) : ReceiverAction → Option Receiver
  | .createThread =>
    if r.control = .fresh then some { r with recvThreadFlag := true, control := .starting }
    else none
  | .spawn =>
    if r.control = .starting then some { r with worker := .unlocked, control := .subscribing }
    else none
  | .subscribed =>
    if r.control = .subscribing then some { r with control := .running } else none
  | .subscribeThrew =>
    if r.control = .subscribing then some { r with control := .failing } else none
  | .storeFlag =>
    if r.control = .failing then
      some { r with recvThreadFlag := false, control := .failNotifying }
    else none
  | .resetSubscription =>
    -- Also from the destructor, after an earlier stop or a failed start.
    if r.control = .fresh ∨ r.control = .running ∨ r.control = .failed ∨
        r.control = .stopped then
      some { r with control := .stopping }
    else none
  | .exchangeFlag =>
    if r.control = .stopping then
      some { r with
        recvThreadFlag := false
        control := if r.recvThreadFlag then .notifying else .stopped }
    else none
  | .notifyAll =>
    if r.control = .notifying then
      some { r with worker := r.worker.notify, control := .joining, notified := true }
    else if r.control = .failNotifying then
      some { r with worker := r.worker.notify, control := .failJoining, notified := true }
    else none
  | .join =>
    if r.worker = .exited then
      if r.control = .joining then some { r with control := .stopped }
      else if r.control = .failJoining then some { r with control := .failed }
      else none
    else none
  | .lock =>
    if (r.worker = .unlocked ∨ r.worker = .woken) ∧ r.owner = none then
      some { r with worker := .testing, owner := some .worker }
    else none
  | .evaluate =>
    if r.worker = .testing then
      some { r with
        worker := if !r.recvThreadFlag || !r.recvQueue.isEmpty then .passed else .dozing }
    else none
  | .sleep =>
    if r.worker = .dozing then some { r with worker := .asleep, owner := none } else none
  | .wakeSpuriously =>
    if r.worker = .asleep then some { r with worker := .woken } else none
  | .pop =>
    if r.worker = .passed then
      if !r.recvThreadFlag && r.recvQueue.isEmpty then
        some { r with worker := .exited, owner := none }
      else
        match r.recvQueue with
        | [] => none
        | envelope :: queue =>
          some { r with worker := .processing envelope, recvQueue := queue, owner := none }
    else none
  | .finish =>
    match r.worker with
    | .processing _ => some { r with worker := .unlocked }
    | _ => none
  | .call id envelope =>
    if r.calls id = .idle then some (r.setCall id (.entering envelope)) else none
  | .acquire id =>
    match r.calls id, r.owner with
    | .entering envelope, none =>
      some { r.setCall id (.holding envelope) with owner := some (.call id) }
    | _, _ => none
  | .loadFlag id =>
    match r.calls id with
    | .holding envelope =>
      if r.recvThreadFlag then some (r.setCall id (.checked envelope))
      else some { r.setCall id .idle with owner := none }
    | _ => none
  | .push id =>
    match r.calls id with
    | .checked envelope =>
      match pushToBoundedEnvelopeQueue qosClass envelope (some r.recvQueue) with
      | (.rejected, _) => some { r.setCall id .idle with owner := none }
      | (_, queue) =>
        some { r.setCall id .released with
          recvQueue := queue.getD r.recvQueue
          owner := none }
    | _ => none
  | .notifyOne id =>
    if r.calls id = .released then
      some { r.setCall id .idle with worker := r.worker.notify }
    else none

/-- The receiver of a topic of the given class, from its construction on. -/
def receiver (qosClass : QosClass) : Machine Receiver ReceiverAction where
  init r := r = {}
  step := Receiver.step qosClass

/-- The owner's `notify_all` is over, the flag is down, and the worker sleeps or is about to
sleep without looking at the flag again: the join never returns. -/
structure Receiver.Stuck (r : Receiver) : Prop where
  notified : r.notified = true
  flag : r.recvThreadFlag = false
  worker : r.worker = .dozing ∨ r.worker = .asleep

/-- The step is not a `notify_all` between the worker's test of the predicate and its sleep. -/
def Heard (r : Receiver) (a : ReceiverAction) : Prop :=
  a = .notifyAll → r.worker ≠ .dozing

instance (r : Receiver) (a : ReceiverAction) : Decidable (Heard r a) :=
  inferInstanceAs (Decidable (a = .notifyAll → r.worker ≠ .dozing))

/-- What the flag says at each point of the owner's code, and that a worker which was notified
does not go back to sleep. -/
structure Receiver.Alert (r : Receiver) : Prop where
  lowered : r.control = .notifying ∨ r.control = .failNotifying → r.recvThreadFlag = false
  past : r.notified = true → r.control ≠ .fresh ∧ r.recvThreadFlag = false
  awake : r.notified = true → r.worker ≠ .dozing ∧ r.worker ≠ .asleep

@[simp] private theorem setCall_fields (r : Receiver) (id : Nat) (pc : CallPc) :
    (r.setCall id pc).control = r.control ∧
      (r.setCall id pc).recvThreadFlag = r.recvThreadFlag ∧
      (r.setCall id pc).notified = r.notified ∧ (r.setCall id pc).worker = r.worker :=
  ⟨rfl, rfl, rfl, rfl⟩

/-- The steps of a subscription callback touch neither the flag nor the owner, and wake the
worker at most. -/
theorem call_step {qosClass : QosClass} {r r' : Receiver} {a : ReceiverAction}
    (ha : (∃ id e, a = .call id e) ∨ (∃ id, a = .acquire id) ∨ (∃ id, a = .loadFlag id) ∨
      (∃ id, a = .push id) ∨ ∃ id, a = .notifyOne id)
    (h : r.step qosClass a = some r') :
    r'.control = r.control ∧ r'.recvThreadFlag = r.recvThreadFlag ∧
      r'.notified = r.notified ∧ (r'.worker = r.worker ∨ r'.worker = r.worker.notify) := by
  rcases ha with ⟨id, e, rfl⟩ | ⟨id, rfl⟩ | ⟨id, rfl⟩ | ⟨id, rfl⟩ | ⟨id, rfl⟩
  · simp only [Receiver.step] at h
    split at h
    · cases h
      exact ⟨rfl, rfl, rfl, Or.inl rfl⟩
    · cases h
  · simp only [Receiver.step] at h
    split at h
    · cases h
      exact ⟨rfl, rfl, rfl, Or.inl rfl⟩
    · cases h
  · simp only [Receiver.step] at h
    split at h
    · split at h
      · cases h
        exact ⟨rfl, rfl, rfl, Or.inl rfl⟩
      · cases h
        exact ⟨rfl, rfl, rfl, Or.inl rfl⟩
    · cases h
  · simp only [Receiver.step] at h
    split at h
    · split at h
      · cases h
        exact ⟨rfl, rfl, rfl, Or.inl rfl⟩
      · cases h
        exact ⟨rfl, rfl, rfl, Or.inl rfl⟩
    · cases h
  · simp only [Receiver.step] at h
    split at h
    · cases h
      exact ⟨rfl, rfl, rfl, Or.inr rfl⟩
    · cases h

private theorem notify_quiet (pc : WorkerPc) (h : pc ≠ .dozing ∧ pc ≠ .asleep) :
    pc.notify ≠ .dozing ∧ pc.notify ≠ .asleep := by
  cases pc <;> simp_all [WorkerPc.notify]

private theorem notify_awake (pc : WorkerPc) (h : pc ≠ .dozing) :
    pc.notify ≠ .dozing ∧ pc.notify ≠ .asleep := by
  cases pc <;> simp_all [WorkerPc.notify]

private theorem Receiver.Alert.moveOn {r : Receiver} (hr : r.Alert) {control : OwnerPc}
    (hstarted : control ≠ .fresh)
    (hquiet : control ≠ .notifying ∧ control ≠ .failNotifying) :
    Receiver.Alert { r with control } := by
  constructor
  · rintro (hnotifying | hnotifying)
    · exact absurd hnotifying hquiet.1
    · exact absurd hnotifying hquiet.2
  · exact fun hn ↦ ⟨hstarted, (hr.past hn).2⟩
  · exact hr.awake

private theorem alert_step {qosClass : QosClass} (r : Receiver) (a : ReceiverAction)
    (r' : Receiver) (hr : r.Alert) (ha : Heard r a) (h : r.step qosClass a = some r') :
    r'.Alert := by
  have calls : (∃ id e, a = .call id e) ∨ (∃ id, a = .acquire id) ∨ (∃ id, a = .loadFlag id) ∨
      (∃ id, a = .push id) ∨ (∃ id, a = .notifyOne id) → r'.Alert := by
    intro hc
    obtain ⟨h1, h2, h3, h4⟩ := call_step hc h
    constructor
    · rw [h1, h2]
      exact hr.lowered
    · rw [h1, h2, h3]
      exact hr.past
    · rw [h3]
      intro hn
      cases h4 with
      | inl h4 =>
        rw [h4]
        exact hr.awake hn
      | inr h4 =>
        rw [h4]
        exact notify_quiet _ (hr.awake hn)
  cases a with
  | createThread =>
    simp only [Receiver.step] at h
    split at h
    · next hf =>
      cases h
      exact ⟨by simp, fun hn ↦ absurd hf (hr.past hn).1, hr.awake⟩
    · cases h
  | spawn =>
    simp only [Receiver.step] at h
    split at h
    · cases h
      exact ⟨by simp, fun hn ↦ ⟨by simp, (hr.past hn).2⟩, fun _ ↦ by simp⟩
    · cases h
  | subscribed =>
    simp only [Receiver.step] at h
    split at h
    · cases h
      exact hr.moveOn (by simp) (by simp)
    · cases h
  | subscribeThrew =>
    simp only [Receiver.step] at h
    split at h
    · cases h
      exact hr.moveOn (by simp) (by simp)
    · cases h
  | storeFlag =>
    simp only [Receiver.step] at h
    split at h
    · cases h
      exact ⟨fun _ ↦ rfl, fun _ ↦ ⟨by simp, rfl⟩, hr.awake⟩
    · cases h
  | resetSubscription =>
    simp only [Receiver.step] at h
    split at h
    · cases h
      exact hr.moveOn (by simp) (by simp)
    · cases h
  | exchangeFlag =>
    simp only [Receiver.step] at h
    split at h
    · cases h
      refine ⟨fun _ ↦ rfl, fun _ ↦ ⟨?_, rfl⟩, hr.awake⟩
      dsimp only
      split
      · simp
      · simp
    · cases h
  | notifyAll =>
    have hw := notify_awake r.worker (ha rfl)
    simp only [Receiver.step] at h
    split at h
    · next hc =>
      cases h
      exact ⟨by simp, fun _ ↦ ⟨by simp, hr.lowered (Or.inl hc)⟩, fun _ ↦ hw⟩
    · split at h
      · next hc =>
        cases h
        exact ⟨by simp, fun _ ↦ ⟨by simp, hr.lowered (Or.inr hc)⟩, fun _ ↦ hw⟩
      · cases h
  | join =>
    simp only [Receiver.step] at h
    split at h
    · split at h
      · cases h
        exact hr.moveOn (by simp) (by simp)
      · split at h
        · cases h
          exact hr.moveOn (by simp) (by simp)
        · cases h
    · cases h
  | lock =>
    simp only [Receiver.step] at h
    split at h
    · cases h
      exact ⟨hr.lowered, hr.past, fun _ ↦ by simp⟩
    · cases h
  | evaluate =>
    simp only [Receiver.step] at h
    split at h
    · cases h
      refine ⟨hr.lowered, hr.past, ?_⟩
      intro hn
      -- With the flag down the predicate is true.
      have hf : r.recvThreadFlag = false := (hr.past hn).2
      simp [hf]
    · cases h
  | sleep =>
    simp only [Receiver.step] at h
    split at h
    · next hd =>
      cases h
      exact ⟨hr.lowered, hr.past, fun hn ↦ absurd hd (hr.awake hn).1⟩
    · cases h
  | wakeSpuriously =>
    simp only [Receiver.step] at h
    split at h
    · cases h
      exact ⟨hr.lowered, hr.past, fun _ ↦ by simp⟩
    · cases h
  | pop =>
    simp only [Receiver.step] at h
    split at h
    · split at h
      · cases h
        exact ⟨hr.lowered, hr.past, fun _ ↦ by simp⟩
      · split at h
        · cases h
        · cases h
          exact ⟨hr.lowered, hr.past, fun _ ↦ by simp⟩
    · cases h
  | finish =>
    simp only [Receiver.step] at h
    split at h
    · cases h
      exact ⟨hr.lowered, hr.past, fun _ ↦ by simp⟩
    · cases h
  | call id e => exact calls (Or.inl ⟨id, e, rfl⟩)
  | acquire id => exact calls (Or.inr (Or.inl ⟨id, rfl⟩))
  | loadFlag id => exact calls (Or.inr (Or.inr (Or.inl ⟨id, rfl⟩)))
  | push id => exact calls (Or.inr (Or.inr (Or.inr (Or.inl ⟨id, rfl⟩))))
  | notifyOne id => exact calls (Or.inr (Or.inr (Or.inr (Or.inr ⟨id, rfl⟩))))

private theorem not_stuck_of_alert (r : Receiver) (h : r.Alert) : ¬r.Stuck := by
  intro hs
  cases hs.worker with
  | inl hd => exact (h.awake hs.notified).1 hd
  | inr ha => exact (h.awake hs.notified).2 ha

private theorem stuck_of_unheard {qosClass : QosClass} (r : Receiver) (a : ReceiverAction)
    (r' : Receiver) (hr : r.Alert) (ha : ¬Heard r a) (h : r.step qosClass a = some r') :
    ¬¬r'.Stuck := by
  apply Classical.not_not.mpr
  have hall : a = .notifyAll := Classical.byContradiction fun hn ↦ ha fun he ↦ absurd he hn
  have hdoze : r.worker = .dozing := Classical.byContradiction fun hn ↦ ha fun _ ↦ hn
  rw [hall] at h
  simp only [Receiver.step, hdoze, WorkerPc.notify] at h
  split at h
  · next hc =>
    cases h
    exact ⟨rfl, hr.lowered (Or.inl hc), Or.inl rfl⟩
  · split at h
    · next hc =>
      cases h
      exact ⟨rfl, hr.lowered (Or.inr hc), Or.inl rfl⟩
    · cases h

/-- Along every interleaving no state has the worker stuck exactly when each `notify_all` of
`stopThread` and of the failure path of `createThread` falls outside the worker's window
between its test of the predicate and its sleep. -/
theorem receiver_never_stuck_iff (qosClass : QosClass) (actions : List ReceiverAction)
    (hrun : ((receiver qosClass).run {} actions).isSome = true) :
    (receiver qosClass).Always (fun r ↦ ¬r.Stuck) {} actions ↔
      (receiver qosClass).Along Heard {} actions :=
  Machine.always_iff_along alert_step not_stuck_of_alert stuck_of_unheard
    ⟨by simp, by simp, by simp⟩ hrun

/-- A run that starts the receiver and takes its worker to the test of the predicate. -/
def startReceiver : List ReceiverAction :=
  [.createThread, .spawn, .subscribed, .lock]

/-- A stop that finds the worker asleep wakes it. -/
theorem receiver_never_stuck_iff_asleep :
    (receiver .state).Always (fun r ↦ ¬r.Stuck) {} (startReceiver ++
      [.evaluate, .sleep, .resetSubscription, .exchangeFlag, .notifyAll, .lock]) := by
  apply (receiver_never_stuck_iff .state _ rfl).mpr
  decide

/-- Both the stop and the failed start lose their notification when it falls between the
worker's test and its sleep. -/
theorem receiver_stuck :
    (∃ r, (receiver .state).run {} (startReceiver ++ [.evaluate, .resetSubscription,
      .exchangeFlag, .notifyAll, .sleep]) = some r ∧ r.control = .joining ∧ r.Stuck) ∧
    (∃ r, (receiver .state).run {} [.createThread, .spawn, .lock, .evaluate, .subscribeThrew,
      .storeFlag, .notifyAll, .sleep] = some r ∧ r.control = .failJoining ∧ r.Stuck) :=
  ⟨⟨_, rfl, rfl, rfl, rfl, Or.inr rfl⟩, ⟨_, rfl, rfl, rfl, rfl, Or.inr rfl⟩⟩

end NetBridge.Topic
