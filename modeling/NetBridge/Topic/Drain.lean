import NetBridge.Base.Simulation
import NetBridge.Topic.Receiver
import NetBridge.Transport.QueueHistory

/-!
# What a stopped receiver leaves

The receive queue of a `Receiver` between its threads
(`src/swarm_ros_bridge/src/topic_factory.cpp:472–515,685–700`): the mutex makes each push and each
pop one call on the queue, and the worker does not end before the queue is empty.
-/

namespace NetBridge.Topic

open NetBridge.Base NetBridge.Transport

/-- The worker does not run. -/
def WorkerPc.ended : WorkerPc → Bool
  | .notStarted | .exited => true
  | _ => false

/-- A notification ends no worker. -/
@[simp] theorem WorkerPc.ended_notify (pc : WorkerPc) : ended pc.notify = ended pc := by
  cases pc <;> rfl

/-- The worker is between locking and unlocking `recv_mutex_`. -/
def WorkerPc.inside : WorkerPc → Bool
  | .testing | .dozing | .passed => true
  | _ => false

/-- The call is between locking and unlocking `recv_mutex_`. -/
def CallPc.inside : CallPc → Bool
  | .holding _ | .checked _ => true
  | _ => false

/-- A notification leaves a worker inside or outside. -/
@[simp] theorem WorkerPc.inside_notify (pc : WorkerPc) : inside pc.notify = inside pc := by
  cases pc <;> rfl

/-- Only an exited worker is exited after a notification. -/
theorem WorkerPc.notify_eq_exited {pc : WorkerPc} : notify pc = .exited ↔ pc = .exited := by
  cases pc <;> simp [notify]

/-- Only a worker that has not started is not started after a notification. -/
theorem WorkerPc.notify_eq_notStarted {pc : WorkerPc} :
    notify pc = .notStarted ↔ pc = .notStarted := by
  cases pc <;> simp [notify]

/-- A receiver with the calls that have been made on its queue. -/
structure RecordedReceiver where
  receiver : Receiver := {}
  calls : List QueueCall := []

namespace Receiver

variable (qosClass : QosClass)

/-- The call on the queue that a step makes. -/
def queueCalls (r : Receiver) : ReceiverAction → List QueueCall
  | .push id =>
    match r.calls id with
    | .checked envelope =>
      [.pushed envelope (pushToBoundedEnvelopeQueue qosClass envelope (some r.recvQueue)).1]
    | _ => []
  | .pop =>
    match r.worker, r.recvQueue with
    | .passed, envelope :: _ => [.popped envelope]
    | _, _ => []
  | _ => []

end Receiver

/-- The receiver of a topic of the given class with the record of its queue. -/
def recordedReceiver (qosClass : QosClass) : Machine RecordedReceiver ReceiverAction where
  init s := s = {}
  step s a := (s.receiver.step qosClass a).map fun receiver ↦
    { receiver, calls := s.calls ++ s.receiver.queueCalls qosClass a }

namespace Receiver

variable {qosClass : QosClass} {r r' : Receiver} {a : ReceiverAction}

/-! ## The life of the worker -/

/-- What the owner knows of the worker and the flag. -/
structure Lifecycle (r : Receiver) : Prop where
  before : r.control = .fresh ∨ r.control = .starting → r.worker = .notStarted
  raised : r.control = .starting ∨ r.control = .subscribing ∨ r.control = .running →
    r.recvThreadFlag = true
  stopping : r.control = .stopping → r.recvThreadFlag = true ∨ r.worker.ended = true
  ended : r.control = .stopped ∨ r.control = .failed → r.worker.ended = true

private theorem Lifecycle.work (hr : r.Lifecycle) (hworker : r.worker.ended = false)
    (hcontrol : r'.control = r.control) (hflag : r'.recvThreadFlag = r.recvThreadFlag) :
    r'.Lifecycle := by
  have hnot : ¬r.worker.ended = true := by
    rw [hworker]
    exact Bool.false_ne_true
  constructor
  · intro hbefore
    rw [hcontrol] at hbefore
    rw [hr.before hbefore] at hnot
    exact absurd rfl hnot
  · rw [hcontrol, hflag]
    exact hr.raised
  · intro hstopping
    rw [hcontrol] at hstopping
    rw [hflag]
    exact Or.inl ((hr.stopping hstopping).resolve_right hnot)
  · intro hended
    rw [hcontrol] at hended
    exact absurd (hr.ended hended) hnot

private theorem Lifecycle.wake (hr : r.Lifecycle)
    (hworker : r'.worker = r.worker ∨ r'.worker = r.worker.notify)
    (hcontrol : r'.control = r.control) (hflag : r'.recvThreadFlag = r.recvThreadFlag) :
    r'.Lifecycle := by
  have hended : r'.worker.ended = r.worker.ended := by
    rcases hworker with hworker | hworker
    · rw [hworker]
    · rw [hworker, WorkerPc.ended_notify]
  constructor
  · intro hbefore
    rw [hcontrol] at hbefore
    rcases hworker with hworker | hworker
    · rw [hworker, hr.before hbefore]
    · rw [hworker, hr.before hbefore]
      rfl
  · rw [hcontrol, hflag]
    exact hr.raised
  · rw [hcontrol, hflag, hended]
    exact hr.stopping
  · rw [hcontrol, hended]
    exact hr.ended

/-- Each step keeps what the owner knows. -/
theorem lifecycle_step (hr : r.Lifecycle) (h : r.step qosClass a = some r') : r'.Lifecycle := by
  have calls : (∃ id e, a = .call id e) ∨ (∃ id, a = .acquire id) ∨ (∃ id, a = .loadFlag id) ∨
      (∃ id, a = .push id) ∨ (∃ id, a = .notifyOne id) → r'.Lifecycle := by
    intro hc
    rcases call_step hc h with ⟨hcontrol, hflag, _, hworker⟩
    exact hr.wake hworker hcontrol hflag
  cases a with
  | createThread =>
    simp only [step] at h
    split at h
    · next hfresh =>
      cases h
      exact ⟨fun _ ↦ hr.before (Or.inl hfresh), fun _ ↦ rfl, by simp, by simp⟩
    · cases h
  | spawn =>
    simp only [step] at h
    split at h
    · next hstarting =>
      cases h
      exact ⟨by simp, fun _ ↦ hr.raised (Or.inl hstarting), by simp, by simp⟩
    · cases h
  | subscribed =>
    simp only [step] at h
    split at h
    · next hsubscribing =>
      cases h
      exact ⟨by simp, fun _ ↦ hr.raised (Or.inr (Or.inl hsubscribing)), by simp, by simp⟩
    · cases h
  | subscribeThrew =>
    simp only [step] at h
    split at h
    · cases h
      exact ⟨by simp, by simp, by simp, by simp⟩
    · cases h
  | storeFlag =>
    simp only [step] at h
    split at h
    · cases h
      exact ⟨by simp, by simp, by simp, by simp⟩
    · cases h
  | resetSubscription =>
    simp only [step] at h
    split at h
    · next hcontrol =>
      cases h
      refine ⟨by simp, by simp, fun _ ↦ ?_, by simp⟩
      rcases hcontrol with hfresh | hrunning | hfailed | hstopped
      · exact Or.inr (by rw [hr.before (Or.inl hfresh)]; rfl)
      · exact Or.inl (hr.raised (Or.inr (Or.inr hrunning)))
      · exact Or.inr (hr.ended (Or.inr hfailed))
      · exact Or.inr (hr.ended (Or.inl hstopped))
    · cases h
  | exchangeFlag =>
    simp only [step] at h
    split at h
    · next hstopping =>
      have hended := hr.stopping hstopping
      cases hflag : r.recvThreadFlag with
      | true =>
        rw [hflag] at h
        cases h
        exact ⟨by simp, by simp, by simp, by simp⟩
      | false =>
        rw [hflag] at h hended
        cases h
        exact ⟨by simp, by simp, by simp, fun _ ↦ hended.resolve_left Bool.false_ne_true⟩
    · cases h
  | notifyAll =>
    simp only [step] at h
    split at h
    · cases h
      exact ⟨by simp, by simp, by simp, by simp⟩
    · split at h
      · cases h
        exact ⟨by simp, by simp, by simp, by simp⟩
      · cases h
  | join =>
    simp only [step] at h
    split at h
    · next hexited =>
      have hended : r.worker.ended = true := by
        rw [hexited]
        rfl
      split at h
      · cases h
        exact ⟨by simp, by simp, by simp, fun _ ↦ hended⟩
      · split at h
        · cases h
          exact ⟨by simp, by simp, by simp, fun _ ↦ hended⟩
        · cases h
    · cases h
  | lock =>
    simp only [step] at h
    split at h
    · next hlock =>
      cases h
      refine hr.work ?_ rfl rfl
      rcases hlock.1 with hworker | hworker
      · rw [hworker]
        rfl
      · rw [hworker]
        rfl
    · cases h
  | evaluate =>
    simp only [step] at h
    split at h
    · next hworker =>
      cases h
      exact hr.work (by rw [hworker]; rfl) rfl rfl
    · cases h
  | sleep =>
    simp only [step] at h
    split at h
    · next hworker =>
      cases h
      exact hr.work (by rw [hworker]; rfl) rfl rfl
    · cases h
  | wakeSpuriously =>
    simp only [step] at h
    split at h
    · next hworker =>
      cases h
      exact hr.work (by rw [hworker]; rfl) rfl rfl
    · cases h
  | pop =>
    simp only [step] at h
    split at h
    · next hworker =>
      have hended : r.worker.ended = false := by
        rw [hworker]
        rfl
      split at h
      · cases h
        exact hr.work hended rfl rfl
      · split at h
        · cases h
        · cases h
          exact hr.work hended rfl rfl
    · cases h
  | finish =>
    simp only [step] at h
    split at h
    · next hworker =>
      cases h
      exact hr.work (by rw [hworker]; rfl) rfl rfl
    · cases h
  | call id e => exact calls (Or.inl ⟨id, e, rfl⟩)
  | acquire id => exact calls (Or.inr (Or.inl ⟨id, rfl⟩))
  | loadFlag id => exact calls (Or.inr (Or.inr (Or.inl ⟨id, rfl⟩)))
  | push id => exact calls (Or.inr (Or.inr (Or.inr (Or.inl ⟨id, rfl⟩))))
  | notifyOne id => exact calls (Or.inr (Or.inr (Or.inr (Or.inr ⟨id, rfl⟩))))

/-! ## Mutual exclusion -/

/-- Whoever is inside owns the mutex. -/
structure Exclusive (r : Receiver) : Prop where
  worker : r.worker.inside = true ↔ r.owner = some .worker
  calls : ∀ id, (r.calls id).inside = true ↔ r.owner = some (.call id)

private theorem Exclusive.stay (hr : r.Exclusive)
    (hworker : r'.worker.inside = r.worker.inside)
    (hcalls : ∀ id, (r'.calls id).inside = (r.calls id).inside)
    (howner : r'.owner = r.owner) : r'.Exclusive := by
  constructor
  · rw [hworker, howner]
    exact hr.worker
  · intro id
    rw [hcalls, howner]
    exact hr.calls id

private theorem Exclusive.move_worker (hr : r.Exclusive)
    (hbefore : r.owner = none ∨ r.owner = some .worker)
    (hafter : r'.owner = none ∧ r'.worker.inside = false ∨
      r'.owner = some .worker ∧ r'.worker.inside = true)
    (hcalls : r'.calls = r.calls) : r'.Exclusive := by
  constructor
  · rcases hafter with ⟨howner, hworker⟩ | ⟨howner, hworker⟩ <;> simp [howner, hworker]
  · intro id
    have hid := hr.calls id
    rw [hcalls]
    rcases hbefore with hbefore | hbefore <;> rcases hafter with ⟨howner, _⟩ | ⟨howner, _⟩ <;>
      simpa [hbefore, howner] using hid

private theorem Exclusive.move_call (hr : r.Exclusive) {id : Nat}
    (hbefore : r.owner = none ∨ r.owner = some (.call id))
    (hafter : r'.owner = none ∧ (r'.calls id).inside = false ∨
      r'.owner = some (.call id) ∧ (r'.calls id).inside = true)
    (hothers : ∀ i, i ≠ id → r'.calls i = r.calls i) (hworker : r'.worker = r.worker) :
    r'.Exclusive := by
  constructor
  · have hw := hr.worker
    rw [hworker]
    rcases hbefore with hbefore | hbefore <;> rcases hafter with ⟨howner, _⟩ | ⟨howner, _⟩ <;>
      simpa [hbefore, howner] using hw
  · intro i
    by_cases hi : i = id
    · rw [hi]
      rcases hafter with ⟨howner, hcall⟩ | ⟨howner, hcall⟩ <;> simp [howner, hcall]
    · have hcall := hr.calls i
      rw [hothers i hi]
      rcases hbefore with hbefore | hbefore <;> rcases hafter with ⟨howner, _⟩ | ⟨howner, _⟩ <;>
        simpa [hbefore, howner, Ne.symm hi] using hcall

/-- A call that has moved on. -/
@[simp] theorem setCall_self (r : Receiver) (id : Nat) (pc : CallPc) :
    (r.setCall id pc).calls id = pc := if_pos rfl

/-- The other calls stay where they are. -/
theorem setCall_other (r : Receiver) {id i : Nat} (h : i ≠ id) (pc : CallPc) :
    (r.setCall id pc).calls i = r.calls i := if_neg h

private theorem inside_setCall {id : Nat} {pc : CallPc}
    (h : pc.inside = (r.calls id).inside) (i : Nat) :
    ((r.setCall id pc).calls i).inside = (r.calls i).inside := by
  by_cases hi : i = id
  · rw [hi, setCall_self, h]
  · rw [setCall_other r hi]

/-- Each step keeps the threads apart. -/
theorem exclusive_step (hlife : r.Lifecycle) (hr : r.Exclusive)
    (h : r.step qosClass a = some r') : r'.Exclusive := by
  have hworker := hr.worker
  cases a with
  | createThread | subscribed | subscribeThrew | storeFlag | resetSubscription | exchangeFlag =>
    simp only [step] at h
    split at h
    · cases h
      exact hr.stay rfl (fun _ ↦ rfl) rfl
    · cases h
  | spawn =>
    simp only [step] at h
    split at h
    · next hstarting =>
      cases h
      refine hr.stay ?_ (fun _ ↦ rfl) rfl
      rw [hlife.before (Or.inr hstarting)]
      rfl
    · cases h
  | notifyAll =>
    simp only [step] at h
    split at h
    · cases h
      exact hr.stay (WorkerPc.inside_notify _) (fun _ ↦ rfl) rfl
    · split at h
      · cases h
        exact hr.stay (WorkerPc.inside_notify _) (fun _ ↦ rfl) rfl
      · cases h
  | join =>
    simp only [step] at h
    split at h
    · split at h
      · cases h
        exact hr.stay rfl (fun _ ↦ rfl) rfl
      · split at h
        · cases h
          exact hr.stay rfl (fun _ ↦ rfl) rfl
        · cases h
    · cases h
  | lock =>
    simp only [step] at h
    split at h
    · next hlock =>
      cases h
      exact hr.move_worker (Or.inl hlock.2) (Or.inr ⟨rfl, rfl⟩) rfl
    · cases h
  | evaluate =>
    simp only [step] at h
    split at h
    · next htesting =>
      cases h
      refine hr.stay ?_ (fun _ ↦ rfl) rfl
      rw [htesting]
      dsimp only
      split
      · rfl
      · rfl
    · cases h
  | sleep =>
    simp only [step] at h
    split at h
    · next hdozing =>
      cases h
      rw [hdozing] at hworker
      exact hr.move_worker (Or.inr (hworker.mp rfl)) (Or.inl ⟨rfl, rfl⟩) rfl
    · cases h
  | wakeSpuriously =>
    simp only [step] at h
    split at h
    · next hasleep =>
      cases h
      refine hr.stay ?_ (fun _ ↦ rfl) rfl
      rw [hasleep]
      rfl
    · cases h
  | pop =>
    simp only [step] at h
    split at h
    · next hpassed =>
      rw [hpassed] at hworker
      have howner : r.owner = none ∨ r.owner = some .worker := Or.inr (hworker.mp rfl)
      split at h
      · cases h
        exact hr.move_worker howner (Or.inl ⟨rfl, rfl⟩) rfl
      · split at h
        · cases h
        · cases h
          exact hr.move_worker howner (Or.inl ⟨rfl, rfl⟩) rfl
    · cases h
  | finish =>
    simp only [step] at h
    split at h
    · next hprocessing =>
      cases h
      refine hr.stay ?_ (fun _ ↦ rfl) rfl
      rw [hprocessing]
      rfl
    · cases h
  | call id envelope =>
    simp only [step] at h
    split at h
    · next hidle =>
      cases h
      exact hr.stay rfl (inside_setCall (by rw [hidle]; rfl)) rfl
    · cases h
  | acquire id =>
    simp only [step] at h
    split at h
    · next howner =>
      cases h
      exact hr.move_call (Or.inl howner) (Or.inr ⟨rfl, by simp [CallPc.inside]⟩)
        (fun i hi ↦ setCall_other r hi _) rfl
    · cases h
  | loadFlag id =>
    simp only [step] at h
    split at h
    · next hholding =>
      have hid := hr.calls id
      rw [hholding] at hid
      split at h
      · cases h
        exact hr.stay rfl (inside_setCall (by rw [hholding]; rfl)) rfl
      · cases h
        exact hr.move_call (Or.inr (hid.mp rfl)) (Or.inl ⟨rfl, by simp [CallPc.inside]⟩)
          (fun i hi ↦ setCall_other r hi _) rfl
    · cases h
  | push id =>
    simp only [step] at h
    split at h
    · next hchecked =>
      have hid := hr.calls id
      rw [hchecked] at hid
      split at h
      · cases h
        exact hr.move_call (Or.inr (hid.mp rfl)) (Or.inl ⟨rfl, by simp [CallPc.inside]⟩)
          (fun i hi ↦ setCall_other r hi _) rfl
      · cases h
        exact hr.move_call (Or.inr (hid.mp rfl)) (Or.inl ⟨rfl, by simp [CallPc.inside]⟩)
          (fun i hi ↦ setCall_other r hi _) rfl
    · cases h
  | notifyOne id =>
    simp only [step] at h
    split at h
    · next hreleased =>
      cases h
      exact hr.stay (WorkerPc.inside_notify _) (inside_setCall (by rw [hreleased]; rfl)) rfl
    · cases h

/-! ## The end of the worker -/

/-- The worker has ended, or the owner has not even begun to start it. -/
def Idle (r : Receiver) : Prop :=
  r.worker = .exited ∨ r.worker = .notStarted ∧ r.control ≠ .starting

/-- Without a worker the queue is empty, and no call is about to push. -/
structure Emptied (r : Receiver) : Prop where
  flag : r.Idle → r.recvThreadFlag = false
  queue : r.Idle → r.recvQueue = []
  calls : r.Idle → ∀ id envelope, r.calls id ≠ .checked envelope

private theorem emptied_of_running (h : r'.worker ≠ .exited ∧ r'.worker ≠ .notStarted) :
    r'.Emptied := by
  have hnot : ¬r'.Idle := by
    rintro (hexited | ⟨hunstarted, _⟩)
    · exact h.1 hexited
    · exact h.2 hunstarted
  exact ⟨fun hidle ↦ absurd hidle hnot, fun hidle ↦ absurd hidle hnot,
    fun hidle ↦ absurd hidle hnot⟩

private theorem Emptied.lower (hr : r.Emptied) (hcontrol : r.control ≠ .starting)
    (hworker : r'.worker = r.worker ∨ r'.worker = r.worker.notify)
    (hflag : r'.recvThreadFlag = false ∨ r'.recvThreadFlag = r.recvThreadFlag)
    (hqueue : r'.recvQueue = r.recvQueue) (hcalls : r'.calls = r.calls) : r'.Emptied := by
  have hidle : r'.Idle → r.Idle := by
    rcases hworker with hworker | hworker
    · rintro (hexited | ⟨hunstarted, _⟩)
      · exact Or.inl (hworker.symm.trans hexited)
      · exact Or.inr ⟨hworker.symm.trans hunstarted, hcontrol⟩
    · rintro (hexited | ⟨hunstarted, _⟩)
      · exact Or.inl (WorkerPc.notify_eq_exited.mp (hworker.symm.trans hexited))
      · exact Or.inr ⟨WorkerPc.notify_eq_notStarted.mp (hworker.symm.trans hunstarted), hcontrol⟩
  constructor
  · intro h
    rcases hflag with hflag | hflag
    · exact hflag
    · rw [hflag]
      exact hr.flag (hidle h)
  · rw [hqueue]
    exact fun h ↦ hr.queue (hidle h)
  · rw [hcalls]
    exact fun h ↦ hr.calls (hidle h)

private theorem Emptied.move_call (hr : r.Emptied) {id : Nat} {pc : CallPc}
    (hpc : r.Idle → ∀ envelope, pc ≠ .checked envelope) (hidle : r'.Idle → r.Idle)
    (hflag : r'.recvThreadFlag = r.recvThreadFlag) (hqueue : r'.recvQueue = r.recvQueue)
    (hcalls : r'.calls = (r.setCall id pc).calls) : r'.Emptied := by
  constructor
  · rw [hflag]
    exact fun h ↦ hr.flag (hidle h)
  · rw [hqueue]
    exact fun h ↦ hr.queue (hidle h)
  · intro h i envelope
    rw [hcalls]
    by_cases hi : i = id
    · rw [hi, setCall_self]
      exact hpc (hidle h) envelope
    · rw [setCall_other r hi]
      exact hr.calls (hidle h) i envelope

/-- Each step leaves the queue empty where there is no worker. -/
theorem emptied_step (hlife : r.Lifecycle) (hexclusive : r.Exclusive) (hr : r.Emptied)
    (h : r.step qosClass a = some r') : r'.Emptied := by
  cases a with
  | createThread =>
    simp only [step] at h
    split at h
    · next hfresh =>
      cases h
      have hunstarted := hlife.before (Or.inl hfresh)
      have hnot : ¬Idle { r with recvThreadFlag := true, control := .starting } := by
        simp [Idle, hunstarted]
      exact ⟨fun hidle ↦ absurd hidle hnot, fun hidle ↦ absurd hidle hnot,
        fun hidle ↦ absurd hidle hnot⟩
    · cases h
  | spawn =>
    simp only [step] at h
    split at h
    · cases h
      exact emptied_of_running (by simp)
    · cases h
  | subscribed | subscribeThrew =>
    simp only [step] at h
    split at h
    · next hcontrol =>
      cases h
      exact hr.lower (by simp [hcontrol]) (Or.inl rfl) (Or.inr rfl) rfl rfl
    · cases h
  | resetSubscription =>
    simp only [step] at h
    split at h
    · next hcontrol =>
      cases h
      refine hr.lower ?_ (Or.inl rfl) (Or.inr rfl) rfl rfl
      rcases hcontrol with hcontrol | hcontrol | hcontrol | hcontrol <;> simp [hcontrol]
    · cases h
  | storeFlag | exchangeFlag =>
    simp only [step] at h
    split at h
    · next hcontrol =>
      cases h
      exact hr.lower (by simp [hcontrol]) (Or.inl rfl) (Or.inl rfl) rfl rfl
    · cases h
  | notifyAll =>
    simp only [step] at h
    split at h
    · next hcontrol =>
      cases h
      exact hr.lower (by simp [hcontrol]) (Or.inr rfl) (Or.inr rfl) rfl rfl
    · split at h
      · next hcontrol =>
        cases h
        exact hr.lower (by simp [hcontrol]) (Or.inr rfl) (Or.inr rfl) rfl rfl
      · cases h
  | join =>
    simp only [step] at h
    split at h
    · split at h
      · next hcontrol =>
        cases h
        exact hr.lower (by simp [hcontrol]) (Or.inl rfl) (Or.inr rfl) rfl rfl
      · split at h
        · next hcontrol =>
          cases h
          exact hr.lower (by simp [hcontrol]) (Or.inl rfl) (Or.inr rfl) rfl rfl
        · cases h
    · cases h
  | lock | sleep | wakeSpuriously =>
    simp only [step] at h
    split at h
    · cases h
      exact emptied_of_running (by simp)
    · cases h
  | evaluate =>
    simp only [step] at h
    split at h
    · cases h
      apply emptied_of_running
      dsimp only
      split <;> simp
    · cases h
  | pop =>
    simp only [step] at h
    split at h
    · next hpassed =>
      split at h
      · next hend =>
        cases h
        rw [Bool.and_eq_true, Bool.not_eq_true', List.isEmpty_iff] at hend
        refine ⟨fun _ ↦ hend.1, fun _ ↦ hend.2, fun _ id envelope hchecked ↦ ?_⟩
        -- The worker holds the mutex, so no call is inside.
        have hworker := hexclusive.worker
        have hcall := hexclusive.calls id
        rw [hpassed] at hworker
        rw [hchecked, hworker.mp rfl] at hcall
        cases hcall.mp rfl
      · split at h
        · cases h
        · cases h
          exact emptied_of_running (by simp)
    · cases h
  | finish =>
    simp only [step] at h
    split at h
    · cases h
      exact emptied_of_running (by simp)
    · cases h
  | call id envelope =>
    simp only [step] at h
    split at h
    · cases h
      exact hr.move_call (fun _ _ ↦ by simp) (fun hidle ↦ hidle) rfl rfl rfl
    · cases h
  | acquire id =>
    simp only [step] at h
    split at h
    · cases h
      exact hr.move_call (fun _ _ ↦ by simp) (fun hidle ↦ hidle) rfl rfl rfl
    · cases h
  | loadFlag id =>
    simp only [step] at h
    split at h
    · split at h
      · next hflag =>
        cases h
        refine hr.move_call (fun hidle ↦ ?_) (fun hidle ↦ hidle) rfl rfl rfl
        rw [hr.flag hidle] at hflag
        cases hflag
      · cases h
        exact hr.move_call (fun _ _ ↦ by simp) (fun hidle ↦ hidle) rfl rfl rfl
    · cases h
  | push id =>
    simp only [step] at h
    split at h
    · next envelope hchecked =>
      have hnot : ¬r.Idle := fun hidle ↦ hr.calls hidle id envelope hchecked
      split at h
      · cases h
        exact ⟨fun hidle ↦ absurd hidle hnot, fun hidle ↦ absurd hidle hnot,
          fun hidle ↦ absurd hidle hnot⟩
      · cases h
        exact ⟨fun hidle ↦ absurd hidle hnot, fun hidle ↦ absurd hidle hnot,
          fun hidle ↦ absurd hidle hnot⟩
    · cases h
  | notifyOne id =>
    simp only [step] at h
    split at h
    · cases h
      refine hr.move_call (fun _ _ ↦ by simp) ?_ rfl rfl rfl
      rintro (hexited | ⟨hunstarted, hcontrol⟩)
      · exact Or.inl (WorkerPc.notify_eq_exited.mp hexited)
      · exact Or.inr ⟨WorkerPc.notify_eq_notStarted.mp hunstarted, hcontrol⟩
    · cases h

/-- All of this together. -/
structure Sound (r : Receiver) : Prop where
  lifecycle : r.Lifecycle
  exclusive : r.Exclusive
  emptied : r.Emptied

/-! ## The queue of a receiver -/

/-- Only a push and a pop concern the queue. -/
theorem recvQueue_step (hpush : ∀ id, a ≠ .push id) (hpop : a ≠ .pop)
    (h : r.step qosClass a = some r') : r'.recvQueue = r.recvQueue := by
  cases a with
  | push id => exact absurd rfl (hpush id)
  | pop => exact absurd rfl hpop
  | _ =>
    simp only [step] at h
    grind [setCall]

/-- Each step makes at most one call on the queue, with its result. -/
theorem run_queueCalls (h : r.step qosClass a = some r') (calls : List QueueCall) :
    ∃ as, (receiveQueue qosClass).run { queue := r.recvQueue, calls } as =
      some { queue := r'.recvQueue, calls := calls ++ r.queueCalls qosClass a } := by
  by_cases hpush : ∃ id, a = .push id
  · rcases hpush with ⟨id, rfl⟩
    simp only [step] at h
    split at h
    · next envelope hchecked =>
      refine ⟨[.push envelope], ?_⟩
      simp only [queueCalls, hchecked]
      rcases pushToBoundedEnvelopeQueue_cases qosClass envelope r.recvQueue with
        ⟨_, hpush⟩ | ⟨_, _, hpush⟩ | ⟨_, _, _, rest, _, hpush⟩
      · rw [hpush] at h ⊢
        cases h
        rw [Machine.run_cons]
        simp [receiveQueue, QueueRun.step, hpush]
      · rw [hpush] at h ⊢
        cases h
        rw [Machine.run_cons]
        simp [receiveQueue, QueueRun.step, hpush, setCall]
      · rw [hpush] at h ⊢
        cases h
        rw [Machine.run_cons]
        simp [receiveQueue, QueueRun.step, hpush]
    · cases h
  · by_cases hpop : a = .pop
    · rw [hpop] at h ⊢
      simp only [step] at h
      split at h
      · next hpassed =>
        split at h
        · next hend =>
          cases h
          rw [Bool.and_eq_true, List.isEmpty_iff] at hend
          exact ⟨[], by simp [queueCalls, hend.2]⟩
        · split at h
          · cases h
          · next envelope queue hqueue =>
            cases h
            refine ⟨[.pop], ?_⟩
            simp only [queueCalls, hpassed, hqueue]
            rfl
      · cases h
    · have hqueue := recvQueue_step (fun id heq ↦ hpush ⟨id, heq⟩) hpop h
      have hnone : r.queueCalls qosClass a = [] := by
        cases a with
        | push id => exact absurd ⟨id, rfl⟩ hpush
        | pop => exact absurd rfl hpop
        | _ => rfl
      exact ⟨[], by rw [hqueue, hnone, List.append_nil, Machine.run_nil]⟩

end Receiver

namespace RecordedReceiver

/-- The queue with the calls on it. -/
def queueRun (s : RecordedReceiver) : QueueRun where
  queue := s.receiver.recvQueue
  calls := s.calls

/-- The threads use the queue one at a time, and in a sound state of the receiver. -/
theorem simulates_receiveQueue (qosClass : QosClass) :
    Machine.Simulates (recordedReceiver qosClass) (receiveQueue qosClass)
      (fun s r ↦ s.receiver.Sound ∧ r = s.queueRun) where
  init := by
    rintro _ rfl
    refine ⟨{}, rfl, ⟨⟨fun _ ↦ rfl, by simp, by simp, by simp⟩, ⟨?_, ?_⟩,
      ⟨fun _ ↦ rfl, fun _ ↦ rfl, fun _ _ _ ↦ by simp⟩⟩, rfl⟩
    · simp [WorkerPc.inside]
    · simp [CallPc.inside]
  step := by
    rintro s _ a s' ⟨hsound, rfl⟩ h
    rcases Option.map_eq_some_iff.mp h with ⟨receiver, hstep, rfl⟩
    rcases Receiver.run_queueCalls hstep s.calls with ⟨as, hrun⟩
    refine ⟨as, _, hrun, ⟨Receiver.lifecycle_step hsound.lifecycle hstep,
      Receiver.exclusive_step hsound.lifecycle hsound.exclusive hstep,
      Receiver.emptied_step hsound.lifecycle hsound.exclusive hsound.emptied hstep⟩, rfl⟩

/-- What a receiver guarantees of its messages. -/
structure Drained (qosClass : QosClass) (s : RecordedReceiver) : Prop where
  /-- The calls of all threads on the queue are those of one thread. -/
  atomic : (receiveQueue qosClass).Reachable s.queueRun
  /-- At most one of the worker and the calls is between locking and unlocking the mutex. -/
  apart : ∀ id, (s.receiver.calls id).inside = true → s.receiver.worker.inside = false ∧
    ∀ id', (s.receiver.calls id').inside = true → id' = id
  /-- Where `createThread` has failed or `stopThread` has returned, the worker does not run. -/
  joined : s.receiver.control = .stopped ∨ s.receiver.control = .failed →
    s.receiver.worker = .notStarted ∨ s.receiver.worker = .exited
  /-- Then it has taken out every envelope that was accepted, but for those replaced by newer ones
  in a queue that keeps the latest. -/
  handled : s.receiver.control = .stopped ∨ s.receiver.control = .failed →
    s.receiver.recvQueue = [] ∧ s.queueRun.popped.Sublist s.queueRun.accepted ∧
      s.queueRun.accepted.length = s.queueRun.popped.length + s.queueRun.replacements ∧
      ((getQosPolicy qosClass).keepLatest = false →
        s.queueRun.popped = s.queueRun.accepted)

end RecordedReceiver

/-- In every interleaving of the worker, the owner and any number of calls, the mutex makes one
queue of theirs, and where `stopThread` has returned no accepted message is left behind. -/
theorem receiver_drained (qosClass : QosClass) (s : RecordedReceiver)
    (h : (recordedReceiver qosClass).Reachable s) : s.Drained qosClass := by
  rcases (RecordedReceiver.simulates_receiveQueue qosClass).reachable h with
    ⟨r, hreachable, hsound, rfl⟩
  rcases QueueRun.exists_recordOf hreachable with ⟨record, hrecord⟩
  have hjoined : s.receiver.control = .stopped ∨ s.receiver.control = .failed →
      s.receiver.worker = .notStarted ∨ s.receiver.worker = .exited := by
    intro hcontrol
    have hended := hsound.lifecycle.ended hcontrol
    cases hworker : s.receiver.worker with
    | notStarted => exact Or.inl rfl
    | exited => exact Or.inr rfl
    | _ => simp [hworker, WorkerPc.ended] at hended
  refine ⟨hreachable, fun id hid ↦ ?_, hjoined, fun hcontrol ↦ ?_⟩
  · have howner := (hsound.exclusive.calls id).mp hid
    constructor
    · rw [← Bool.not_eq_true, hsound.exclusive.worker, howner]
      simp
    · intro id' hid'
      have howner' := (hsound.exclusive.calls id').mp hid'
      rw [howner] at howner'
      cases howner'
      rfl
  have hidle : s.receiver.Idle := by
    rcases hjoined hcontrol with hunstarted | hexited
    · refine Or.inr ⟨hunstarted, ?_⟩
      rcases hcontrol with hcontrol | hcontrol <;> simp [hcontrol]
    · exact Or.inl hexited
  have hqueue : s.queueRun.queue = [] := hsound.emptied.queue hidle
  have hbuffered := hrecord.buffered
  rw [hqueue] at hbuffered
  have hlength := hbuffered.length_enters
  have hsublist := hbuffered.leaves_sublist
  rw [hrecord.enters, hrecord.leaves, hrecord.evicts, List.length_nil, Nat.add_zero] at hlength
  rw [hrecord.enters, hrecord.leaves] at hsublist
  refine ⟨hqueue, hsublist, hlength, fun hkeep ↦ ?_⟩
  apply hsublist.eq_of_length
  rw [hrecord.keeps hkeep] at hlength
  omega

/-- A message that arrives while the receiver is stopped is handled before `stopThread` returns. -/
theorem receiver_drained_late :
    ∃ s : RecordedReceiver, s.Drained .command ∧ s.receiver.control = .stopped ∧
      s.queueRun.popped.length = 1 := by
  have hrun : ((recordedReceiver .command).run {} (startReceiver ++ [.evaluate, .sleep, .call 0 {},
      .acquire 0, .loadFlag 0, .resetSubscription, .exchangeFlag, .push 0, .notifyAll, .lock,
      .evaluate, .pop, .notifyOne 0, .finish, .lock, .evaluate, .pop, .join])).bind (fun s ↦
        some (s.receiver.control, s.queueRun.popped.length)) = some (.stopped, 1) := by
    decide +kernel
  rcases Option.bind_eq_some_iff.mp hrun with ⟨s, hs, hend⟩
  rcases Prod.mk.inj (Option.some.inj hend) with ⟨hcontrol, hlength⟩
  exact ⟨s, receiver_drained .command s ⟨_, _, rfl, hs⟩, hcontrol, hlength⟩

end NetBridge.Topic
