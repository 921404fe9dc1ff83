import NetBridge.Base.Buffer
import NetBridge.Base.Machine
import NetBridge.Transport.Executor

/-!
# Runs of the bounded executor

The threads of `BoundedExecutor`,
`src/swarm_ros_bridge/src/transport/zenoh_transport.cpp:81–148`: submitters, workers that sleep in
`condition_.wait` until they are notified, and callers of `Stop`. An action is one critical section
of `mutex_`, a notification behind it, or what happens in a task. The executor itself is that of
`Executor`; here the sleeping workers and a record of the run are added to it.
-/

namespace NetBridge.Transport

open NetBridge.Base

/-- A task as it was submitted, with the number of the submission. -/
structure Submission (τ : Type) where
  number : Nat
  task : τ
deriving DecidableEq

/-- Where the first call of `Stop` stands; `zenoh_transport.cpp:104–119`. -/
inductive StopPc where
  | notCalled
  /-- `stopping_` is set; about to notify. -/
  | notifying
  | joining
  | returned
deriving DecidableEq

/-- The record of a run. -/
inductive ExecutorEvent (τ : Type) where
  /-- `TrySubmit` returned whether it accepted the task. -/
  | submitted (submission : Submission τ) (accepted : Bool)
  | taken (w : Nat) (submission : Submission τ)
  /-- The task returned or threw. -/
  | finished (w : Nat) (submission : Submission τ) (threw : Bool)
  /-- `Stop` has set `stopping_`. -/
  | stopping
  /-- The first call of `Stop` returned. -/
  | stopped
deriving DecidableEq

/-- An executor with its sleeping workers, the first call of `Stop`, the number of submissions and
the record. -/
structure RunningExecutor (τ : Type) where
  executor : Executor (Submission τ)
  asleep : List Nat := []
  stop : StopPc := .notCalled
  submissions : Nat := 0
  events : List (ExecutorEvent τ) := []
deriving DecidableEq

/-- The atomic steps. -/
inductive ExecutorAction (τ : Type) where
  /-- `TrySubmit`; its `notify_one` wakes the given worker. -/
  | submit (task : τ) (woken : Option Nat)
  /-- A worker that is awake and in no task takes the mutex. -/
  | work (w : Nat)
  /-- The task of a worker returns, or throws anything. -/
  | finish (w : Nat) (threw : Bool)
  | wakeSpuriously (w : Nat)
  | callStop
  /-- `notify_all` of `Stop`. -/
  | notifyAll
  /-- The joins of `Stop` have returned. -/
  | join
deriving DecidableEq

/-- The actions that neither submit a task nor end one. -/
def ExecutorAction.internal {τ : Type} : ExecutorAction τ → Bool
  | submit _ _ => false
  | finish _ _ => false
  | _ => true

namespace RunningExecutor

variable {τ : Type}

/-- `notify_one` wakes a sleeping worker, if there is one. -/
def notifyOne (asleep : List Nat) (woken : Option Nat) : Option (List Nat) :=
  match woken with
  | some w => if w ∈ asleep then some (asleep.filter fun v ↦ v ≠ w) else none
  | none => if asleep = [] then some [] else none

/-- One atomic step, where it is enabled. -/
def step (r : RunningExecutor τ) : ExecutorAction τ → Option (RunningExecutor τ)
  | .submit task woken =>
    let submission : Submission τ := ⟨r.submissions, task⟩
    match r.executor.trySubmit submission with
    | (true, executor) =>
      (notifyOne r.asleep woken).map fun asleep ↦ { r with
        executor, asleep
        submissions := r.submissions + 1
        events := r.events ++ [.submitted submission true] }
    | (false, executor) => some { r with
        executor
        submissions := r.submissions + 1
        events := r.events ++ [.submitted submission false] }
  | .work w =>
    if w ∈ r.asleep then none
    else
      match r.executor.tasks with
      | submission :: _ =>
        (r.executor.workerStep w .take).map fun executor ↦
          { r with executor, events := r.events ++ [.taken w submission] }
      | [] =>
        if r.executor.stopping then
          (r.executor.workerStep w .exit).map fun executor ↦ { r with executor }
        else
          match r.executor.workers[w]? with
          | some .waiting => some { r with asleep := w :: r.asleep }
          | _ => none
  | .finish w threw =>
    match r.executor.workers[w]? with
    | some (.running submission) =>
      (r.executor.workerStep w .finish).map fun executor ↦
        { r with executor, events := r.events ++ [.finished w submission threw] }
    | _ => none
  | .wakeSpuriously w =>
    if w ∈ r.asleep then some { r with asleep := r.asleep.filter fun v ↦ v ≠ w } else none
  | .callStop =>
    -- A later call of `Stop` returns at once.
    if r.executor.stopping then some r
    else some { r with
      executor := r.executor.beginStop
      stop := .notifying
      events := r.events ++ [.stopping] }
  | .notifyAll =>
    if r.stop = .notifying then some { r with asleep := [], stop := .joining } else none
  | .join =>
    if r.stop = .joining ∧ r.executor.joined = true then
      some { r with
        executor := { r.executor with workers := [] }
        stop := .returned
        events := r.events ++ [.stopped] }
    else none

end RunningExecutor

/-- An executor from its construction on, for tasks of any kind. -/
def runningExecutor (τ : Type) (threadCount capacity : Nat) :
    Machine (RunningExecutor τ) (ExecutorAction τ) where
  init r := r = { executor := Executor.make threadCount capacity }
  step := RunningExecutor.step

namespace ExecutorEvent

variable {τ : Type}

/-- What the event does to the queue of tasks. -/
@[simp] def onBuffer : ExecutorEvent τ → List (BufferEvent (Submission τ))
  | submitted submission true => [.entered submission]
  | submitted submission false => [.refused submission]
  | taken _ submission => [.left submission]
  | _ => []

/-- The submission that was accepted. -/
@[simp] def accepts : ExecutorEvent τ → List (Submission τ)
  | submitted submission true => [submission]
  | _ => []

/-- The submission that was refused. -/
@[simp] def refuses : ExecutorEvent τ → List (Submission τ)
  | submitted submission false => [submission]
  | _ => []

/-- The submission that a worker took. -/
@[simp] def takes : ExecutorEvent τ → List (Submission τ)
  | taken _ submission => [submission]
  | _ => []

/-- The submission whose task is over. -/
@[simp] def finishes : ExecutorEvent τ → List (Submission τ)
  | finished _ submission _ => [submission]
  | _ => []

end ExecutorEvent

namespace RunningExecutor

variable {τ : Type}

/-- The accepted submissions in their order. -/
def accepted (r : RunningExecutor τ) : List (Submission τ) :=
  r.events.flatMap ExecutorEvent.accepts

/-- The refused submissions in their order. -/
def refused (r : RunningExecutor τ) : List (Submission τ) :=
  r.events.flatMap ExecutorEvent.refuses

/-- The submissions that workers took, in the order in which they did. -/
def taken (r : RunningExecutor τ) : List (Submission τ) :=
  r.events.flatMap ExecutorEvent.takes

/-- The submissions whose tasks were run to their end. -/
def finished (r : RunningExecutor τ) : List (Submission τ) :=
  r.events.flatMap ExecutorEvent.finishes

/-- No worker can move. -/
def Quiet (r : RunningExecutor τ) : Prop :=
  (∀ w, r.step (.work w) = none) ∧ ∀ w threw, r.step (.finish w threw) = none

/-- A worker that is awake: it is about to take the mutex or in a task. -/
def Awake (r : RunningExecutor τ) (w : Nat) : Prop :=
  w ∉ r.asleep ∧ ∃ worker, r.executor.workers[w]? = some worker ∧ worker ≠ .exited

/-! ## What a step does -/

/-- The moves of a running executor, with all that each one does. -/
inductive Move (r : RunningExecutor τ) : ExecutorAction τ → RunningExecutor τ → Prop where
  | accept (task : τ) (woken : Option Nat) (asleep : List Nat) : r.executor.stopping = false →
      r.executor.tasks.length < r.executor.capacity → asleep.Sublist r.asleep →
      (r.asleep = [] ∨ ∃ w ∈ r.asleep, w ∉ asleep) →
      Move r (.submit task woken) { r with
        executor := { r.executor with tasks := r.executor.tasks ++ [⟨r.submissions, task⟩] }
        asleep
        submissions := r.submissions + 1
        events := r.events ++ [.submitted ⟨r.submissions, task⟩ true] }
  | refuse (task : τ) (woken : Option Nat) :
      r.executor.stopping = true ∨ r.executor.capacity ≤ r.executor.tasks.length →
      Move r (.submit task woken) { r with
        submissions := r.submissions + 1
        events := r.events ++ [.submitted ⟨r.submissions, task⟩ false] }
  | take {w : Nat} {submission : Submission τ} {tasks : List (Submission τ)}
      {executor : Executor (Submission τ)} : w ∉ r.asleep →
      r.executor.tasks = submission :: tasks → r.executor.workerStep w .take = some executor →
      Move r (.work w) { r with executor, events := r.events ++ [.taken w submission] }
  | exit {w : Nat} {executor : Executor (Submission τ)} : w ∉ r.asleep →
      r.executor.workerStep w .exit = some executor → Move r (.work w) { r with executor }
  | sleep {w : Nat} : w ∉ r.asleep → r.executor.tasks = [] → r.executor.stopping = false →
      r.executor.workers[w]? = some .waiting →
      Move r (.work w) { r with asleep := w :: r.asleep }
  | finish {w : Nat} {submission : Submission τ} {executor : Executor (Submission τ)}
      (threw : Bool) : r.executor.workers[w]? = some (.running submission) →
      r.executor.workerStep w .finish = some executor →
      Move r (.finish w threw) { r with
        executor, events := r.events ++ [.finished w submission threw] }
  | wake {w : Nat} : w ∈ r.asleep →
      Move r (.wakeSpuriously w) { r with asleep := r.asleep.filter fun v ↦ v ≠ w }
  | stop : r.executor.stopping = false →
      Move r .callStop { r with
        executor := r.executor.beginStop
        stop := .notifying
        events := r.events ++ [.stopping] }
  | stopAgain : r.executor.stopping = true → Move r .callStop r
  | notifyAll : r.stop = .notifying → Move r .notifyAll { r with asleep := [], stop := .joining }
  | join : r.stop = .joining → r.executor.joined = true →
      Move r .join { r with
        executor := { r.executor with workers := [] }
        stop := .returned
        events := r.events ++ [.stopped] }

/-- A notified worker no longer sleeps. -/
theorem notifyOne_cases {asleep asleep' : List Nat} {woken : Option Nat}
    (h : notifyOne asleep woken = some asleep') :
    asleep'.Sublist asleep ∧ (asleep = [] ∨ ∃ w ∈ asleep, w ∉ asleep') := by
  unfold notifyOne at h
  split at h
  · next w =>
    split at h
    · next hw =>
      cases h
      exact ⟨List.filter_sublist, Or.inr ⟨w, hw, by simp⟩⟩
    · cases h
  · split at h
    · next hnone =>
      cases h
      exact ⟨List.nil_sublist _, Or.inl hnone⟩
    · cases h

/-- A step of a worker that is about to take the mutex. -/
theorem move_of_work {r r' : RunningExecutor τ} {w : Nat} (h : r.step (.work w) = some r') :
    Move r (.work w) r' := by
  simp only [step] at h
  split at h
  · cases h
  · next hw =>
    split at h
    · next submission tasks htasks =>
      rcases Option.map_eq_some_iff.mp h with ⟨executor, htake, rfl⟩
      exact .take hw htasks htake
    · next htasks =>
      split at h
      · rcases Option.map_eq_some_iff.mp h with ⟨executor, hexit, rfl⟩
        exact .exit hw hexit
      · next hstop =>
        split at h
        · next hwaiting =>
          cases h
          exact .sleep hw htasks (by simpa using hstop) hwaiting
        · cases h

/-- Every step is one of the moves. -/
theorem move_of_step {r r' : RunningExecutor τ} {a : ExecutorAction τ} (h : r.step a = some r') :
    Move r a r' := by
  cases a with
  | submit task woken =>
    rcases r.executor.trySubmit_cases ⟨r.submissions, task⟩ with
      ⟨hopen, hroom, htry⟩ | ⟨hfull, htry⟩
    · simp only [step, htry] at h
      rcases Option.map_eq_some_iff.mp h with ⟨asleep, hnotify, rfl⟩
      rcases notifyOne_cases hnotify with ⟨hsublist, hwoken⟩
      exact .accept task woken asleep hopen hroom hsublist hwoken
    · simp only [step, htry] at h
      cases h
      exact .refuse task woken hfull
  | work w => exact move_of_work h
  | finish w threw =>
    simp only [step] at h
    split at h
    · next submission hrunning =>
      rcases Option.map_eq_some_iff.mp h with ⟨executor, hfinish, rfl⟩
      exact .finish threw hrunning hfinish
    · cases h
  | wakeSpuriously w =>
    simp only [step] at h
    split at h
    · next hw =>
      cases h
      exact .wake hw
    · cases h
  | callStop =>
    simp only [step] at h
    split at h
    · next hstop =>
      cases h
      exact .stopAgain hstop
    · next hopen =>
      cases h
      exact .stop (by simpa using hopen)
  | notifyAll =>
    simp only [step] at h
    split at h
    · next hstop =>
      cases h
      exact .notifyAll hstop
    · cases h
  | join =>
    simp only [step] at h
    split at h
    · next hjoin =>
      cases h
      exact .join hjoin.1 hjoin.2
    · cases h

/-! ## What a step does to the held tasks -/

/-- A submission is held once it is accepted. -/
theorem held_submit {r r' : RunningExecutor τ} {task : τ} {woken : Option Nat}
    (h : r.step (.submit task woken) = some r') :
    (r.executor.trySubmit ⟨r.submissions, task⟩).1 = true ∧
        r'.executor.held.Perm (⟨r.submissions, task⟩ :: r.executor.held) ∨
      (r.executor.trySubmit ⟨r.submissions, task⟩).1 = false ∧ r'.executor = r.executor := by
  cases move_of_step h with
  | accept _ _ asleep hopen hroom =>
    apply Or.inl
    refine ⟨?_, r.executor.held_accept _⟩
    simp [Executor.trySubmit, hopen, Nat.not_le.mpr hroom]
  | refuse _ _ hfull =>
    apply Or.inr
    simp [Executor.trySubmit, hfull]

/-- The submission whose task ends is held no longer. -/
theorem held_finish {r r' : RunningExecutor τ} {w : Nat} {threw : Bool}
    (h : r.step (.finish w threw) = some r') :
    ∃ submission, r.executor.workers[w]? = some (.running submission) ∧
      r.executor.held.Perm (submission :: r'.executor.held) := by
  cases move_of_step h with
  | finish _ hrunning hfinish =>
    rcases Executor.workerStep_finish hfinish with ⟨_, _, rfl⟩
    exact ⟨_, hrunning, Executor.held_finish hrunning⟩

/-- Every other step keeps the held tasks. -/
theorem held_internal {r r' : RunningExecutor τ} {a : ExecutorAction τ} (ha : a.internal = true)
    (h : r.step a = some r') : r'.executor.held.Perm r.executor.held := by
  cases move_of_step h with
  | accept | refuse | finish => cases ha
  | take _ _ htake => exact Executor.held_take htake
  | exit _ hexit => exact Executor.held_exit hexit
  | sleep | wake | stop | stopAgain | notifyAll => exact .refl _
  | join _ hjoined =>
    rw [Executor.held_of_joined hjoined]
    simp [Executor.held]

end RunningExecutor

end NetBridge.Transport
