import NetBridge.Transport.WorkerInvariants

/-!
# Every accepted task is run exactly once

The contract of `BoundedExecutor`,
`src/swarm_ros_bridge/src/transport/zenoh_transport.cpp:81–148`, and of its `Stop`, on which
`ZenohTransport::Impl::Close` (`zenoh_transport.cpp:212–231`) relies.
-/

namespace NetBridge.Transport

open NetBridge.Base

namespace RunningExecutor

variable {τ : Type}

/-! ## Progress of the workers -/

/-- What is left to do for the workers by themselves. -/
def remaining (r : RunningExecutor τ) : Nat :=
  r.executor.load + (r.executor.workers.length - r.asleep.length)

/-- Each step of a worker leaves less to do. -/
theorem remaining_work {r r' : RunningExecutor τ} (hr : r.Staffed) {w : Nat}
    (h : r.step (.work w) = some r') : r'.remaining < r.remaining := by
  cases move_of_work h with
  | take _ _ htake =>
    have hload := Executor.load_workerStep htake
    rcases Executor.workerStep_take htake with ⟨_, _, _, _, rfl⟩
    simpa [remaining] using hload
  | exit _ hexit =>
    have hload := Executor.load_workerStep hexit
    rcases Executor.workerStep_exit hexit with ⟨_, _, _, rfl⟩
    simpa [remaining] using hload
  | sleep hawake _ _ hwaiting =>
    have hlt := (List.getElem?_eq_some_iff.mp hwaiting).1
    have hsubset : w :: r.asleep ⊆ List.range r.executor.workers.length := by
      intro v hv
      rcases List.mem_cons.mp hv with rfl | hv
      · exact List.mem_range.mpr hlt
      · rcases List.getElem?_eq_some_iff.mp (hr.sleepers v hv) with ⟨hlt, -⟩
        exact List.mem_range.mpr hlt
    have hlength := (List.subperm_of_subset
      (List.nodup_cons.mpr ⟨hawake, hr.once⟩) hsubset).length_le
    simp only [List.length_cons, List.length_range] at hlength
    simp only [remaining, List.length_cons]
    omega

/-- The end of a task leaves less to do. -/
theorem remaining_finish {r r' : RunningExecutor τ} {w : Nat} {threw : Bool}
    (h : r.step (.finish w threw) = some r') : r'.remaining < r.remaining := by
  cases move_of_step h with
  | finish _ _ hfinish =>
    have hload := Executor.load_workerStep hfinish
    rcases Executor.workerStep_finish hfinish with ⟨_, _, rfl⟩
    simpa [remaining] using hload

/-- An action of a worker. -/
def OfWorker (a : ExecutorAction τ) : Prop :=
  (∃ w, a = .work w) ∨ ∃ w threw, a = .finish w threw

/-- Workers that cannot move hold no task, and none is left in the joins of `Stop`. -/
theorem Quiet.held {r : RunningExecutor τ} (hr : r.Staffed) (h : r.Quiet) :
    r.executor.held = [] ∧ (r.stop = .joining → r.executor.joined = true) := by
  have hidle : ∀ (w : Nat) (submission : Submission τ),
      r.executor.workers[w]? ≠ some (.running submission) := by
    intro w submission hw
    have hfinish := h.2 w false
    simp [step, Executor.workerStep, hw] at hfinish
  have htasks : r.executor.tasks = [] := by
    apply Classical.byContradiction
    intro hne
    rcases hr.served hne with ⟨w, hawake, worker, hw, hexited⟩
    rcases List.exists_cons_of_ne_nil hne with ⟨submission, tasks, htasks⟩
    cases worker with
    | exited => exact hexited rfl
    | running submission => exact hidle w submission hw
    | waiting =>
      have hwork := h.1 w
      simp [step, hawake, htasks, Executor.workerStep, hw] at hwork
  constructor
  · rw [Executor.held_eq, htasks, List.nil_append, List.filterMap_eq_nil_iff]
    intro worker hm
    rcases List.mem_iff_getElem?.mp hm with ⟨w, hw⟩
    cases worker with
    | running submission => exact absurd hw (hidle w submission)
    | waiting | exited => rfl
  · intro hjoining
    have hstop : r.executor.stopping = true := by
      rw [← Bool.not_eq_false, hr.running, hjoining]
      decide
    apply List.all_eq_true.mpr
    intro worker hm
    rcases List.mem_iff_getElem?.mp hm with ⟨w, hw⟩
    cases worker with
    | exited => rfl
    | running submission => exact absurd hw (hidle w submission)
    | waiting =>
      have hwork := h.1 w
      simp [step, hr.roused (Or.inl hjoining), htasks, hstop, Executor.workerStep, hw] at hwork

/-! ## The contract of the executor -/

/-- All that a run keeps. -/
structure Sound (threadCount capacity : Nat) (r : RunningExecutor τ) : Prop where
  accounted : r.Accounted
  staffed : r.Staffed
  closed : r.Closed
  built : r.Built threadCount capacity

/-- A step keeps all of it. -/
theorem sound_step {threadCount capacity : Nat} (r : RunningExecutor τ) (a : ExecutorAction τ)
    (r' : RunningExecutor τ) (hr : r.Sound threadCount capacity) (h : r.step a = some r') :
    r'.Sound threadCount capacity :=
  have hmove := move_of_step h
  { accounted := accounted_move hr.accounted hmove
    staffed := staffed_move hr.staffed hmove
    closed := closed_move hr.closed hmove
    built := built_move hr.staffed hr.built hmove }

/-- A new executor is sound. -/
theorem sound_make (threadCount capacity : Nat) :
    Sound (τ := τ) threadCount capacity { executor := Executor.make threadCount capacity } := by
  have hworkers : ∀ worker ∈ (Executor.make (τ := Submission τ) threadCount capacity).workers,
      worker = .waiting := fun worker hm ↦ List.eq_of_mem_replicate hm
  constructor
  · refine ⟨.empty, by simp [accepted, refused], by simp [accepted, refused], ?_, Nat.zero_le _⟩
    simp [accepted, finished, Executor.held, Executor.make]
  · constructor
    · simp [Executor.make]
    · simp
    · simp
    · exact fun hne ↦ absurd rfl hne
    · intro hm
      cases hworkers _ hm
    · simp
    · simp [Executor.make]
    · simp
  · exact ⟨by simp, List.Pairwise.nil⟩
  · exact ⟨rfl, by simp [Executor.make]⟩

/-- Every run is sound. -/
theorem sound_of_reachable {threadCount capacity : Nat} {r : RunningExecutor τ}
    (h : (runningExecutor τ threadCount capacity).Reachable r) : r.Sound threadCount capacity := by
  apply h.invariant
  · rintro _ rfl
    exact sound_make threadCount capacity
  · exact sound_step

/-- Workers by themselves come to rest. -/
theorem worker_steps_le {threadCount capacity : Nat} {r r' : RunningExecutor τ}
    {as : List (ExecutorAction τ)} (hr : r.Sound threadCount capacity)
    (hworkers : ∀ a ∈ as, OfWorker a)
    (hrun : (runningExecutor τ threadCount capacity).run r as = some r') :
    as.length + r'.remaining ≤ r.remaining := by
  induction as generalizing r with
  | nil =>
    cases hrun
    simp
  | cons a as ih =>
    rcases Machine.run_cons_eq_some.mp hrun with ⟨t, ht, hrun⟩
    have hless : t.remaining < r.remaining := by
      rcases hworkers a List.mem_cons_self with ⟨w, rfl⟩ | ⟨w, threw, rfl⟩
      · exact remaining_work hr.staffed ht
      · exact remaining_finish ht
    have hrest := ih (sound_step r a t hr ht)
      (fun b hb ↦ hworkers b (List.mem_cons_of_mem _ hb)) hrun
    rw [List.length_cons]
    omega

/-- What enters the queue of tasks is accepted. -/
theorem enters_onBuffer (events : List (ExecutorEvent τ)) :
    (events.flatMap ExecutorEvent.onBuffer).flatMap BufferEvent.enters =
      events.flatMap ExecutorEvent.accepts := by
  rw [List.flatMap_assoc]
  congr 1
  funext event
  fun_cases ExecutorEvent.onBuffer event <;> simp

/-- What leaves the queue of tasks is taken. -/
theorem leaves_onBuffer (events : List (ExecutorEvent τ)) :
    (events.flatMap ExecutorEvent.onBuffer).flatMap BufferEvent.leaves =
      events.flatMap ExecutorEvent.takes := by
  rw [List.flatMap_assoc]
  congr 1
  funext event
  fun_cases ExecutorEvent.onBuffer event <;> simp

/-- No task is evicted from the queue. -/
theorem evicts_onBuffer (events : List (ExecutorEvent τ)) :
    (events.flatMap ExecutorEvent.onBuffer).flatMap BufferEvent.evicts = [] := by
  rw [List.flatMap_assoc, List.flatMap_eq_nil_iff]
  intro event _
  fun_cases ExecutorEvent.onBuffer event <;> simp

/-- What was accepted is what was taken and the tasks behind it. -/
theorem Accounted.in_order {r : RunningExecutor τ} (hr : r.Accounted) :
    r.accepted = r.taken ++ r.executor.tasks := by
  have henters := hr.buffered.enters_eq (evicts_onBuffer r.events)
  rwa [enters_onBuffer, leaves_onBuffer] at henters

/-- The contract of the executor, where a capacity of 0 counts as 1. -/
structure Contract (threadCount capacity : Nat) (r : RunningExecutor τ) : Prop where
  /-- At most `capacity` tasks wait. -/
  bounded : r.executor.capacity = max 1 capacity ∧ r.executor.tasks.length ≤ r.executor.capacity
  /-- The workers take the tasks in the order of their submission, and each one once. -/
  ordered : r.accepted = r.taken ++ r.executor.tasks ∧ r.accepted.Nodup
  /-- Each accepted task has been run to its end or is held, and not twice. -/
  exactlyOnce : r.accepted.Perm (r.finished ++ r.executor.held)
  refusedNeverRun : ∀ submission ∈ r.refused, submission ∉ r.taken ∧ submission ∉ r.finished
  /-- Once `stopping_` is set, no task is accepted. -/
  closed : ClosedByStop r.events ∧
    (r.executor.stopping = true → ∀ submission, (r.executor.trySubmit submission).1 = false)
  /-- A task that throws leaves its worker awake and ready for the next one. -/
  kept : ∀ w threw r', r.step (.finish w threw) = some r' →
    r'.executor.workers = r.executor.workers.set w .waiting ∧ w ∉ r'.asleep
  /-- No worker is lost before `Stop` has joined it, none returns while tasks wait. -/
  staffed : (r.stop ≠ .returned → r.executor.workers.length = max 1 threadCount) ∧
    (.exited ∈ r.executor.workers → r.executor.stopping = true ∧ r.executor.tasks = [])
  /-- The workers by themselves come to rest, and then every accepted task has been run. -/
  progress : (∀ as r', (∀ a ∈ as, OfWorker a) →
      (runningExecutor τ threadCount capacity).run r as = some r' → as.length ≤ r.remaining) ∧
    (r.Quiet → r.accepted.Perm r.finished ∧ (r.stop = .joining → r.executor.joined = true))
  /-- When the first `Stop` returns, every accepted task has been run. -/
  drained : r.stop = .returned → r.executor.tasks = [] ∧ r.accepted.Perm r.finished

end RunningExecutor

open RunningExecutor in
/-- Every run of every executor keeps the contract, however submissions, workers, tasks that throw
and calls of `Stop` interleave. -/
theorem executor_exactly_once (τ : Type) (threadCount capacity : Nat) (r : RunningExecutor τ)
    (h : (runningExecutor τ threadCount capacity).Reachable r) :
    Contract threadCount capacity r := by
  have hr := sound_of_reachable h
  have hdistinct := List.nodup_append.mp hr.accounted.distinct
  have hrefused : ∀ submission ∈ r.refused, submission ∉ r.accepted :=
    fun submission hrefused haccepted ↦ hdistinct.2.2 _ haccepted _ hrefused rfl
  have hordered := hr.accounted.in_order
  constructor
  · exact ⟨hr.built.capacity, hr.accounted.bounded⟩
  · exact ⟨hordered, hdistinct.1⟩
  · exact hr.accounted.conserved
  · intro submission hm
    have hnot := hrefused submission hm
    constructor
    · intro htaken
      apply hnot
      rw [hordered]
      exact List.mem_append_left _ htaken
    · intro hfinished
      exact hnot (hr.accounted.conserved.mem_iff.mpr (List.mem_append_left _ hfinished))
  · refine ⟨hr.closed.ordered, ?_⟩
    intro hstop submission
    simp [Executor.trySubmit, hstop]
  · intro w threw r' hstep
    cases move_of_step hstep with
    | finish _ hrunning hfinish =>
      rcases Executor.workerStep_finish hfinish with ⟨_, _, rfl⟩
      refine ⟨rfl, ?_⟩
      intro hw
      rw [hr.staffed.sleepers w hw] at hrunning
      cases hrunning
  · exact ⟨hr.built.threads, hr.staffed.exited⟩
  · constructor
    · intro as r' hworkers hrun
      have hle := worker_steps_le hr hworkers hrun
      omega
    · intro hquiet
      have hheld := hquiet.held hr.staffed
      refine ⟨?_, hheld.2⟩
      simpa [hheld.1] using hr.accounted.conserved
  · intro hreturned
    have hempty := hr.staffed.returned hreturned
    refine ⟨hempty.2, ?_⟩
    simpa [Executor.held, hempty.1, hempty.2] using hr.accounted.conserved

open RunningExecutor in
/-- One worker and a place for one task: the first task throws, the third one is refused, and
`Stop` waits for the second. -/
theorem executor_exactly_once_stopped :
    ∃ r : RunningExecutor Char, Contract 1 1 r ∧ r.stop = .returned ∧
      r.finished = [⟨0, 'a'⟩, ⟨1, 'b'⟩] ∧ r.refused = [⟨2, 'c'⟩] :=
  ⟨_, executor_exactly_once Char 1 1 _ ⟨_, [.work 0, .submit 'a' (some 0), .work 0,
    .submit 'b' none, .submit 'c' none, .finish 0 true, .callStop, .notifyAll, .work 0,
    .finish 0 false, .work 0, .join], rfl, rfl⟩, rfl, rfl, rfl⟩

end NetBridge.Transport
