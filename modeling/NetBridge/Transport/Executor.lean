import Mathlib.Algebra.GroupWithZero.Nat
import Mathlib.Data.List.Perm.Basic
import NetBridge.Transport.Envelope

/-!
# The bounded executor

`BoundedExecutor`, `src/swarm_ros_bridge/src/transport/zenoh_transport.cpp:81–148`. The flag
and the queue change under the executor's mutex only, and every change notifies, so a waiting
worker is modelled as able to move whenever its wait predicate holds.
-/

namespace NetBridge.Transport

/-- A worker thread of the executor: in its wait, in a task, or returned from `Run`. -/
inductive ExecutorWorker (τ : Type) where
  | waiting
  | running (task : τ)
  | exited
deriving DecidableEq

/-- `BoundedExecutor`; `zenoh_transport.cpp:142–147`. -/
structure Executor (τ : Type) where
  capacity : Nat
  tasks : List τ := []
  stopping : Bool := false
  workers : List (ExecutorWorker τ)
deriving DecidableEq

/-- What a worker does next. -/
inductive WorkerStep where
  /-- It takes the oldest task and leaves the mutex. -/
  | take
  /-- Its task returns or throws. -/
  | finish
  /-- It returns from `Run`. -/
  | exit
deriving DecidableEq

namespace Executor

variable {τ : Type}

/-- The constructor; `zenoh_transport.cpp:83–90`. -/
def make (threadCount capacity : Nat) : Executor τ where
  capacity := max 1 capacity
  workers := List.replicate (max 1 threadCount) .waiting

/-- `TrySubmit`; `zenoh_transport.cpp:94–102`. -/
def trySubmit (executor : Executor τ) (task : τ) : Bool × Executor τ :=
  if executor.stopping ∨ executor.tasks.length ≥ executor.capacity then (false, executor)
  else (true, { executor with tasks := executor.tasks ++ [task] })

/-- The locked part of `Stop`; `zenoh_transport.cpp:104–112`. -/
def beginStop (executor : Executor τ) : Executor τ := { executor with stopping := true }

/-- The joins of `Stop` have returned; `zenoh_transport.cpp:113–117`. -/
def joined (executor : Executor τ) : Bool :=
  executor.workers.all fun worker ↦
    match worker with
    | .exited => true
    | _ => false

/-- One step of worker `w` in `Run`; `zenoh_transport.cpp:121–139`. -/
def workerStep (executor : Executor τ) (w : Nat) : WorkerStep → Option (Executor τ)
  | .take =>
    match executor.workers[w]?, executor.tasks with
    | some .waiting, task :: tasks =>
      some { executor with tasks, workers := executor.workers.set w (.running task) }
    | _, _ => none
  | .finish =>
    match executor.workers[w]? with
    | some (.running _) => some { executor with workers := executor.workers.set w .waiting }
    | _ => none
  | .exit =>
    match executor.workers[w]? with
    | some .waiting =>
      if executor.stopping && executor.tasks.isEmpty then
        some { executor with workers := executor.workers.set w .exited }
      else none
    | _ => none

/-- A worker is in `task`. -/
def Runs (executor : Executor τ) (task : τ) : Prop := .running task ∈ executor.workers

/-- The task is queued or some worker is in it. -/
def Holds (executor : Executor τ) (task : τ) : Prop :=
  task ∈ executor.tasks ∨ executor.Runs task

/-- The tasks that are queued or running. -/
def held (executor : Executor τ) : List τ :=
  executor.tasks ++ executor.workers.filterMap fun worker ↦
    match worker with
    | .running task => some task
    | _ => none

/-- The list of held tasks. -/
theorem mem_held {executor : Executor τ} {task : τ} :
    task ∈ executor.held ↔ executor.Holds task := by
  rw [held, List.mem_append, List.mem_filterMap]
  apply or_congr_right
  constructor
  · intro h
    obtain ⟨worker, hm, he⟩ := h
    split at he
    · cases he
      exact hm
    · cases he
  · intro h
    exact ⟨.running task, h, rfl⟩

instance (executor : Executor τ) (P : τ → Prop) [DecidablePred P] :
    Decidable (∀ task, executor.Holds task → P task) :=
  decidable_of_iff (∀ task ∈ executor.held, P task) (by simp only [mem_held])

/-- A fresh executor holds nothing. -/
theorem not_holds_make (threadCount capacity : Nat) (task : τ) :
    ¬(make threadCount capacity).Holds task := by
  intro h
  cases h with
  | inl h => exact absurd h List.not_mem_nil
  | inr h => exact absurd (List.eq_of_mem_replicate h) (by simp)

/-- A submission adds at most its own task. -/
theorem holds_trySubmit {executor : Executor τ} {task task' : τ}
    (h : (executor.trySubmit task).2.Holds task') : executor.Holds task' ∨ task' = task := by
  unfold trySubmit at h
  split at h
  · exact Or.inl h
  · cases h with
    | inl h =>
      cases List.mem_append.mp h with
      | inl h => exact Or.inl (Or.inl h)
      | inr h => exact Or.inr (List.mem_singleton.mp h)
    | inr h => exact Or.inl (Or.inr h)

/-- Stopping neither adds nor removes tasks. -/
@[simp] theorem holds_beginStop (executor : Executor τ) (task : τ) :
    executor.beginStop.Holds task ↔ executor.Holds task := Iff.rfl

private theorem runs_set {executor : Executor τ} {w : Nat} {worker : ExecutorWorker τ}
    {tasks : List τ} {task : τ}
    (h : Runs { executor with tasks, workers := executor.workers.set w worker } task) :
    executor.Runs task ∨ worker = .running task := by
  cases List.mem_or_eq_of_mem_set h with
  | inl h => exact Or.inl h
  | inr h => exact Or.inr h.symm

/-- Workers add no tasks. -/
theorem holds_workerStep {executor executor' : Executor τ} {w : Nat} {s : WorkerStep} {task : τ}
    (hs : executor.workerStep w s = some executor') (h : executor'.Holds task) :
    executor.Holds task := by
  cases s with
  | take =>
    simp only [workerStep] at hs
    split at hs
    · next task' tasks _ htasks =>
      cases hs
      cases h with
      | inl h =>
        apply Or.inl
        rw [htasks]
        exact List.mem_cons_of_mem _ h
      | inr h =>
        cases runs_set h with
        | inl h => exact Or.inr h
        | inr h =>
          cases h
          apply Or.inl
          rw [htasks]
          exact List.mem_cons_self
    · cases hs
  | finish =>
    simp only [workerStep] at hs
    split at hs
    · cases hs
      cases h with
      | inl h => exact Or.inl h
      | inr h =>
        cases runs_set h with
        | inl h => exact Or.inr h
        | inr h => cases h
    · cases hs
  | exit =>
    simp only [workerStep] at hs
    split at hs
    · split at hs
      · cases hs
        cases h with
        | inl h => exact Or.inl h
        | inr h =>
          cases runs_set h with
          | inl h => exact Or.inr h
          | inr h => cases h
      · cases hs
    · cases hs

/-! ## What a worker does -/

section

variable {executor executor' : Executor τ} {w : Nat}

/-- A waiting worker takes the oldest task. -/
theorem workerStep_take (h : executor.workerStep w .take = some executor') :
    executor.workers[w]? = some .waiting ∧ ∃ task tasks, executor.tasks = task :: tasks ∧
      executor' = { executor with tasks, workers := executor.workers.set w (.running task) } := by
  simp only [workerStep] at h
  split at h
  · next task tasks hw htasks =>
    cases h
    exact ⟨hw, task, tasks, htasks, rfl⟩
  · cases h

/-- A worker that is done with its task waits for the next one. -/
theorem workerStep_finish (h : executor.workerStep w .finish = some executor') :
    ∃ task, executor.workers[w]? = some (.running task) ∧
      executor' = { executor with workers := executor.workers.set w .waiting } := by
  simp only [workerStep] at h
  split at h
  · next task hw =>
    cases h
    exact ⟨task, hw, rfl⟩
  · cases h

/-- A worker returns once the executor stops and no task waits. -/
theorem workerStep_exit (h : executor.workerStep w .exit = some executor') :
    executor.workers[w]? = some .waiting ∧ executor.stopping = true ∧ executor.tasks = [] ∧
      executor' = { executor with workers := executor.workers.set w .exited } := by
  simp only [workerStep] at h
  split at h
  · next hw =>
    split at h
    · next hstop =>
      cases h
      simp only [Bool.and_eq_true, List.isEmpty_iff] at hstop
      exact ⟨hw, hstop.1, hstop.2, rfl⟩
    · cases h
  · cases h

/-- An accepted submission adds its task behind the others; a refused one changes nothing. -/
theorem trySubmit_cases (executor : Executor τ) (task : τ) :
    (executor.stopping = false ∧ executor.tasks.length < executor.capacity ∧
      executor.trySubmit task =
        (true, { executor with tasks := executor.tasks ++ [task] })) ∨
    ((executor.stopping = true ∨ executor.capacity ≤ executor.tasks.length) ∧
      executor.trySubmit task = (false, executor)) := by
  unfold trySubmit
  split
  · next h => exact Or.inr ⟨h, rfl⟩
  · next h =>
    rw [not_or, Bool.not_eq_true] at h
    exact Or.inl ⟨h.1, by omega, rfl⟩

private theorem set_perm {old : ExecutorWorker τ} (h : executor.workers[w]? = some old)
    (new : ExecutorWorker τ) :
    executor.workers.Perm (old :: executor.workers.eraseIdx w) ∧
      (executor.workers.set w new).Perm (new :: executor.workers.eraseIdx w) := by
  rcases List.getElem?_eq_some_iff.mp h with ⟨hw, rfl⟩
  exact ⟨(List.getElem_cons_eraseIdx_perm hw).symm, List.set_perm_cons_eraseIdx hw new⟩

/-- The task that a worker is in. -/
@[simp] def taskOf : ExecutorWorker τ → Option τ
  | .running task => some task
  | _ => none

/-- The held tasks are those that wait and those of the workers. -/
theorem held_eq (executor : Executor τ) :
    executor.held = executor.tasks ++ executor.workers.filterMap taskOf := rfl

private theorem held_set (tasks : List τ) {old : ExecutorWorker τ}
    (h : executor.workers[w]? = some old) (new : ExecutorWorker τ) :
    ∃ others, (executor.tasks ++ executor.workers.filterMap taskOf).Perm
        (executor.tasks ++ ((taskOf old).toList ++ others)) ∧
      (held { executor with tasks, workers := executor.workers.set w new }).Perm
        (tasks ++ ((taskOf new).toList ++ others)) := by
  rcases set_perm h new with ⟨hold, hnew⟩
  refine ⟨(executor.workers.eraseIdx w).filterMap taskOf, ?_, ?_⟩
  · apply ((hold.filterMap taskOf).append_left executor.tasks).trans
    cases old <;> exact .refl _
  · apply ((hnew.filterMap taskOf).append_left tasks).trans
    cases new <;> exact .refl _

/-- An accepted task is held from then on. -/
theorem held_accept (executor : Executor τ) (task : τ) :
    (held { executor with tasks := executor.tasks ++ [task] }).Perm (task :: executor.held) := by
  simp only [held_eq, List.append_assoc, List.singleton_append]
  exact List.perm_middle

/-- A worker that takes a task keeps it held. -/
theorem held_take (h : executor.workerStep w .take = some executor') :
    executor'.held.Perm executor.held := by
  rcases workerStep_take h with ⟨hw, task, tasks, htasks, rfl⟩
  rcases held_set tasks hw (.running task) with ⟨others, hold, hnew⟩
  rw [htasks] at hold
  rw [held_eq executor, htasks]
  exact hnew.trans (List.perm_middle.trans hold.symm)

/-- A worker that is done with a task holds it no longer. -/
theorem held_finish {task : τ} (hw : executor.workers[w]? = some (.running task)) :
    executor.held.Perm (task :: held { executor with
      workers := executor.workers.set w .waiting }) := by
  rcases held_set executor.tasks hw .waiting with ⟨others, hold, hnew⟩
  exact hold.trans (List.perm_middle.trans (hnew.symm.cons task))

/-- A worker that returns holds no task. -/
theorem held_exit (h : executor.workerStep w .exit = some executor') :
    executor'.held.Perm executor.held := by
  rcases workerStep_exit h with ⟨hw, -, -, rfl⟩
  rcases held_set executor.tasks hw .exited with ⟨others, hold, hnew⟩
  exact hnew.trans hold.symm

/-- What is left to a worker by itself: to finish its task, and to wait or return. -/
@[simp] def weight : ExecutorWorker τ → Nat
  | .running _ => 2
  | .waiting => 1
  | .exited => 0

/-- What is left to the workers; a task that waits is yet to be taken and finished. -/
def load (executor : Executor τ) : Nat :=
  2 * executor.tasks.length + (executor.workers.map weight).sum

private theorem weights_set {old : ExecutorWorker τ} (h : executor.workers[w]? = some old)
    (new : ExecutorWorker τ) :
    ((executor.workers.set w new).map weight).sum + weight old =
      (executor.workers.map weight).sum + weight new := by
  rcases set_perm h new with ⟨hold, hnew⟩
  rw [(hold.map weight).sum_nat, (hnew.map weight).sum_nat]
  simp only [List.map_cons, List.sum_cons]
  omega

/-- Each step of a worker leaves less to the workers. -/
theorem load_workerStep {s : WorkerStep} (h : executor.workerStep w s = some executor') :
    executor'.load < executor.load := by
  cases s with
  | take =>
    rcases workerStep_take h with ⟨hw, task, tasks, htasks, rfl⟩
    have hweights := weights_set hw (.running task)
    simp only [load, htasks, weight, List.length_cons] at hweights ⊢
    omega
  | finish =>
    rcases workerStep_finish h with ⟨task, hw, rfl⟩
    have hweights := weights_set hw .waiting
    simp only [load, weight] at hweights ⊢
    omega
  | exit =>
    rcases workerStep_exit h with ⟨hw, -, -, rfl⟩
    have hweights := weights_set hw .exited
    simp only [load, weight] at hweights ⊢
    omega

/-- Once all workers have returned, only waiting tasks are held. -/
theorem held_of_joined (h : executor.joined = true) : executor.held = executor.tasks := by
  have hnone : ∀ worker ∈ executor.workers, taskOf worker = none := by
    intro worker hm
    have hexited := List.all_eq_true.mp h worker hm
    cases worker with
    | exited => rfl
    | waiting | running => cases hexited
  rw [held_eq, List.filterMap_eq_nil_iff.mpr hnone, List.append_nil]

end

end Executor

end NetBridge.Transport
