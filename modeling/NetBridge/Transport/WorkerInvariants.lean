import NetBridge.Transport.Workers

/-!
# What every run of the executor keeps

Invariants of the executor of `src/swarm_ros_bridge/src/transport/zenoh_transport.cpp:81–148`
under every interleaving: the record accounts for the tasks, some worker is awake while tasks
wait, no worker is lost, and nothing is accepted behind `Stop`.
-/

namespace NetBridge.Transport

open NetBridge.Base

namespace RunningExecutor

variable {τ : Type}

/-! ## The record accounts for the tasks -/

/-- The record accounts for the submissions and for the tasks that are held. -/
structure Accounted (r : RunningExecutor τ) : Prop where
  buffered : Buffered (r.events.flatMap ExecutorEvent.onBuffer) r.executor.tasks
  fresh : ∀ submission ∈ r.accepted ++ r.refused, submission.number < r.submissions
  distinct : (r.accepted ++ r.refused).Nodup
  conserved : r.accepted.Perm (r.finished ++ r.executor.held)
  bounded : r.executor.tasks.length ≤ r.executor.capacity

private theorem fresh_concat {submissions : Nat} {accepted refused : List (Submission τ)}
    (hfresh : ∀ submission ∈ accepted ++ refused, submission.number < submissions)
    (hdistinct : (accepted ++ refused).Nodup) (task : τ) (numbered : List (Submission τ))
    (hperm : numbered.Perm (⟨submissions, task⟩ :: (accepted ++ refused))) :
    (∀ submission ∈ numbered, submission.number < submissions + 1) ∧ numbered.Nodup := by
  constructor
  · intro submission hm
    rcases List.mem_cons.mp (hperm.mem_iff.mp hm) with rfl | hm
    · exact Nat.lt_succ_self _
    · exact Nat.lt_succ_of_lt (hfresh submission hm)
  · rw [hperm.nodup_iff, List.nodup_cons]
    refine ⟨?_, hdistinct⟩
    intro hm
    exact absurd (hfresh _ hm) (Nat.lt_irrefl _)

private theorem accounted_accept {r : RunningExecutor τ} (hr : r.Accounted) (task : τ)
    (asleep : List Nat) (hroom : r.executor.tasks.length < r.executor.capacity) :
    Accounted { r with
      executor := { r.executor with tasks := r.executor.tasks ++ [⟨r.submissions, task⟩] }
      asleep
      submissions := r.submissions + 1
      events := r.events ++ [.submitted ⟨r.submissions, task⟩ true] } := by
  have hnumbered := fresh_concat hr.fresh hr.distinct task
    ((r.accepted ++ [⟨r.submissions, task⟩]) ++ r.refused) (by simp)
  constructor
  · simpa using hr.buffered.enter ⟨r.submissions, task⟩
  · simpa [accepted, refused] using hnumbered.1
  · simpa [accepted, refused] using hnumbered.2
  · have hheld := r.executor.held_accept ⟨r.submissions, task⟩
    have hperm := (hr.conserved.append_right [(⟨r.submissions, task⟩ : Submission τ)]).trans
      (List.perm_append_singleton _ _)
    simp only [accepted, finished, List.flatMap_append, List.flatMap_cons, List.flatMap_nil,
      ExecutorEvent.accepts, ExecutorEvent.finishes, List.append_nil] at hperm ⊢
    exact hperm.trans (List.perm_middle.symm.trans (hheld.symm.append_left _))
  · simp only [List.length_append, List.length_singleton]
    omega

/-- A step keeps the account. -/
theorem accounted_move {r r' : RunningExecutor τ} {a : ExecutorAction τ} (hr : r.Accounted)
    (h : Move r a r') :
    r'.Accounted := by
  cases h with
  | accept task woken asleep hopen hroom hsublist hwoken =>
    exact accounted_accept hr task asleep hroom
  | refuse task woken hfull =>
    have hnumbered := fresh_concat hr.fresh hr.distinct task
      (r.accepted ++ (r.refused ++ [⟨r.submissions, task⟩]))
      (by rw [← List.append_assoc]; exact List.perm_append_singleton _ _)
    constructor
    · simpa using hr.buffered.refuse ⟨r.submissions, task⟩
    · simpa [accepted, refused] using hnumbered.1
    · simpa [accepted, refused] using hnumbered.2
    · simpa [accepted, finished] using hr.conserved
    · exact hr.bounded
  | @take w submission tasks executor hawake htasks htake =>
    have hheld := Executor.held_take htake
    rcases Executor.workerStep_take htake with ⟨hw, first, rest, hfirst, rfl⟩
    rw [htasks] at hfirst
    cases hfirst
    have hbuffered := hr.buffered
    have hbounded := hr.bounded
    rw [htasks] at hbuffered hbounded
    constructor
    · simpa using hbuffered.leave
    · simpa [accepted, refused] using hr.fresh
    · simpa [accepted, refused] using hr.distinct
    · simpa [accepted, finished] using hr.conserved.trans (hheld.symm.append_left _)
    · exact Nat.le_of_succ_le hbounded
  | @exit w executor hawake hexit =>
    have hheld := Executor.held_exit hexit
    rcases Executor.workerStep_exit hexit with ⟨hw, hstop, htasks, rfl⟩
    exact { hr with conserved := hr.conserved.trans (hheld.symm.append_left _) }
  | sleep => exact { hr with }
  | @finish w submission executor threw hrunning hfinish =>
    have hheld := Executor.held_finish hrunning
    rcases Executor.workerStep_finish hfinish with ⟨_, _, rfl⟩
    constructor
    · simpa using hr.buffered
    · simpa [accepted, refused] using hr.fresh
    · simpa [accepted, refused] using hr.distinct
    · simpa [accepted, finished] using hr.conserved.trans (hheld.append_left _)
    · exact hr.bounded
  | wake => exact { hr with }
  | stop =>
    constructor
    · simpa [Executor.beginStop] using hr.buffered
    · simpa [accepted, refused] using hr.fresh
    · simpa [accepted, refused] using hr.distinct
    · simpa [accepted, finished, Executor.beginStop, Executor.held] using hr.conserved
    · exact hr.bounded
  | stopAgain => exact hr
  | notifyAll => exact { hr with }
  | join hjoining hjoined =>
    constructor
    · simpa using hr.buffered
    · simpa [accepted, refused] using hr.fresh
    · simpa [accepted, refused] using hr.distinct
    · have hconserved := hr.conserved
      rw [Executor.held_of_joined hjoined] at hconserved
      simpa [accepted, finished, Executor.held] using hconserved
    · exact hr.bounded

/-! ## The workers -/

/-- The workers of an executor: only a waiting one sleeps, none does behind `notify_all`, and while
tasks wait, one is awake. -/
structure Staffed (r : RunningExecutor τ) : Prop where
  employed : r.stop ≠ .returned → r.executor.workers ≠ []
  sleepers : ∀ w ∈ r.asleep, r.executor.workers[w]? = some .waiting
  once : r.asleep.Nodup
  served : r.executor.tasks ≠ [] → ∃ w, r.Awake w
  exited : .exited ∈ r.executor.workers → r.executor.stopping = true ∧ r.executor.tasks = []
  roused : r.stop = .joining ∨ r.stop = .returned → r.asleep = []
  running : r.executor.stopping = false ↔ r.stop = .notCalled
  returned : r.stop = .returned → r.executor.workers = [] ∧ r.executor.tasks = []

private theorem awake_set {r : RunningExecutor τ} {w : Nat}
    {old new : ExecutorWorker (Submission τ)} {executor : Executor (Submission τ)}
    (hw : r.executor.workers[w]? = some old)
    (hset : executor.workers = r.executor.workers.set w new) (hnew : new ≠ .exited)
    (hawake : w ∉ r.asleep) (events : List (ExecutorEvent τ)) :
    Awake { r with executor, events } w := by
  refine ⟨hawake, new, ?_, hnew⟩
  rcases List.getElem?_eq_some_iff.mp hw with ⟨hlt, -⟩
  simp [hset, hlt]

private theorem sleepers_set {r : RunningExecutor τ} {w : Nat} (hr : r.Staffed)
    (hawake : w ∉ r.asleep) (new : ExecutorWorker (Submission τ)) :
    ∀ v ∈ r.asleep, (r.executor.workers.set w new)[v]? = some .waiting := by
  intro v hv
  have hne : w ≠ v := by
    rintro rfl
    exact hawake hv
  rw [List.getElem?_set_ne hne]
  exact hr.sleepers v hv

private theorem mem_set_exited {workers : List (ExecutorWorker (Submission τ))} {w : Nat}
    {new : ExecutorWorker (Submission τ)} (hnew : new ≠ .exited)
    (h : .exited ∈ workers.set w new) : .exited ∈ workers := by
  rcases List.mem_or_eq_of_mem_set h with h | h
  · exact h
  · exact absurd h.symm hnew

/-- A running executor has not returned from `Stop`. -/
theorem Staffed.not_returned {r : RunningExecutor τ} (hr : r.Staffed)
    (hopen : r.executor.stopping = false) : r.stop ≠ .returned := by
  rw [hr.running.mp hopen]
  decide

/-- While the executor runs, no worker has exited. -/
theorem Staffed.works {r : RunningExecutor τ} (hr : r.Staffed)
    (hopen : r.executor.stopping = false) {w : Nat} (hlt : w < r.executor.workers.length) :
    ∃ worker, r.executor.workers[w]? = some worker ∧ worker ≠ .exited := by
  refine ⟨r.executor.workers[w], List.getElem?_eq_getElem hlt, ?_⟩
  intro hexited
  have hmem : .exited ∈ r.executor.workers := hexited ▸ List.getElem_mem hlt
  rw [(hr.exited hmem).1] at hopen
  cases hopen

private theorem staffed_accept {r : RunningExecutor τ} (hr : r.Staffed) (task : τ)
    {asleep : List Nat} (hopen : r.executor.stopping = false) (hsublist : asleep.Sublist r.asleep)
    (hwoken : r.asleep = [] ∨ ∃ w ∈ r.asleep, w ∉ asleep) :
    Staffed { r with
      executor := { r.executor with tasks := r.executor.tasks ++ [⟨r.submissions, task⟩] }
      asleep
      submissions := r.submissions + 1
      events := r.events ++ [.submitted ⟨r.submissions, task⟩ true] } := by
  have hnot := hr.running.mp hopen
  have hpos := List.length_pos_of_ne_nil (hr.employed (hr.not_returned hopen))
  have hawake : ∃ w < r.executor.workers.length, w ∉ asleep := by
    rcases hwoken with hnone | ⟨w, hw, hwoken⟩
    · rw [hnone] at hsublist
      exact ⟨0, hpos, by simp [List.sublist_nil.mp hsublist]⟩
    · rcases List.getElem?_eq_some_iff.mp (hr.sleepers w hw) with ⟨hlt, -⟩
      exact ⟨w, hlt, hwoken⟩
  constructor
  · exact hr.employed
  · intro w hw
    exact hr.sleepers w (hsublist.subset hw)
  · exact hr.once.sublist hsublist
  · rintro -
    rcases hawake with ⟨w, hlt, hw⟩
    exact ⟨w, hw, hr.works hopen hlt⟩
  · intro hmem
    rw [(hr.exited hmem).1] at hopen
    cases hopen
  · simp [hnot]
  · exact hr.running
  · simp [hnot]

/-- A step keeps the executor staffed. -/
theorem staffed_move {r r' : RunningExecutor τ} {a : ExecutorAction τ} (hr : r.Staffed)
    (h : Move r a r') :
    r'.Staffed := by
  cases h with
  | accept task woken asleep hopen hroom hsublist hwoken =>
    exact staffed_accept hr task hopen hsublist hwoken
  | refuse => exact { hr with }
  | @take w submission tasks executor hawake htasks htake =>
    rcases Executor.workerStep_take htake with ⟨hw, first, rest, hfirst, rfl⟩
    have hlive : r.stop ≠ .returned := by
      intro hreturned
      rw [(hr.returned hreturned).2] at htasks
      cases htasks
    constructor
    · simpa using hr.employed
    · exact sleepers_set hr hawake _
    · exact hr.once
    · rintro -
      exact ⟨w, awake_set hw rfl (by simp) hawake _⟩
    · intro hmem
      have htasks' := (hr.exited (mem_set_exited (by simp) hmem)).2
      rw [htasks] at htasks'
      cases htasks'
    · exact hr.roused
    · exact hr.running
    · exact fun hreturned ↦ absurd hreturned hlive
  | @exit w executor hawake hexit =>
    rcases Executor.workerStep_exit hexit with ⟨hw, hstop, htasks, rfl⟩
    constructor
    · simpa using hr.employed
    · exact sleepers_set hr hawake _
    · exact hr.once
    · exact fun hne ↦ absurd htasks hne
    · exact fun _ ↦ ⟨hstop, htasks⟩
    · exact hr.roused
    · exact hr.running
    · simpa using hr.returned
  | @sleep w hawake htasks hopen hw =>
    have hnot := hr.running.mp hopen
    constructor
    · exact hr.employed
    · intro v hv
      rcases List.mem_cons.mp hv with rfl | hv
      · exact hw
      · exact hr.sleepers v hv
    · exact List.nodup_cons.mpr ⟨hawake, hr.once⟩
    · exact fun hne ↦ absurd htasks hne
    · exact hr.exited
    · simp [hnot]
    · exact hr.running
    · exact hr.returned
  | @finish w submission executor threw hrunning hfinish =>
    have hawake : w ∉ r.asleep := by
      intro hw
      rw [hr.sleepers w hw] at hrunning
      cases hrunning
    rcases Executor.workerStep_finish hfinish with ⟨_, hw, rfl⟩
    constructor
    · simpa using hr.employed
    · exact sleepers_set hr hawake _
    · exact hr.once
    · rintro -
      exact ⟨w, awake_set hw rfl (by simp) hawake _⟩
    · exact fun hmem ↦ hr.exited (mem_set_exited (by simp) hmem)
    · exact hr.roused
    · exact hr.running
    · simpa using hr.returned
  | @wake w hw =>
    constructor
    · exact hr.employed
    · exact fun v hv ↦ hr.sleepers v (List.mem_filter.mp hv).1
    · exact hr.once.sublist List.filter_sublist
    · intro hne
      rcases hr.served hne with ⟨v, hv, hworker⟩
      exact ⟨v, fun hv' ↦ hv (List.mem_filter.mp hv').1, hworker⟩
    · exact hr.exited
    · intro hstop
      simp [hr.roused hstop]
    · exact hr.running
    · exact hr.returned
  | stop hopen =>
    have hnot := hr.running.mp hopen
    constructor
    · exact fun _ ↦ hr.employed (hr.not_returned hopen)
    · exact hr.sleepers
    · exact hr.once
    · exact hr.served
    · exact fun hmem ↦ ⟨rfl, (hr.exited hmem).2⟩
    · simp
    · simp [Executor.beginStop]
    · simp
  | stopAgain => exact hr
  | notifyAll hnotifying =>
    have hemployed : r.executor.workers ≠ [] := hr.employed (by simp [hnotifying])
    constructor
    · exact fun _ ↦ hemployed
    · simp
    · simp
    · intro hne
      rcases hr.served hne with ⟨v, -, hworker⟩
      exact ⟨v, by simp, hworker⟩
    · exact hr.exited
    · simp
    · simp [hr.running, hnotifying]
    · simp
  | join hjoining hjoined =>
    have htasks : r.executor.tasks = [] := by
      rcases List.exists_mem_of_ne_nil _ (hr.employed (by simp [hjoining])) with ⟨worker, hm⟩
      have hexited := List.all_eq_true.mp hjoined worker hm
      cases worker with
      | exited => exact (hr.exited hm).2
      | waiting | running => cases hexited
    constructor
    · simp
    · simp [hr.roused (Or.inl hjoining)]
    · exact hr.once
    · exact fun hne ↦ absurd htasks hne
    · simp
    · exact fun _ ↦ hr.roused (Or.inl hjoining)
    · simp [hr.running, hjoining]
    · exact fun _ ↦ ⟨rfl, htasks⟩

/-! ## Stopping -/

/-- No task is accepted behind the setting of `stopping_`. -/
def ClosedByStop (events : List (ExecutorEvent τ)) : Prop :=
  events.Pairwise fun event event' ↦ event = .stopping → event'.accepts = []

/-- The record of the flag and of what follows it. -/
structure Closed (r : RunningExecutor τ) : Prop where
  flagged : .stopping ∈ r.events → r.executor.stopping = true
  ordered : ClosedByStop r.events

private theorem closed_concat {r : RunningExecutor τ} (hr : r.Closed)
    {executor : Executor (Submission τ)} {event : ExecutorEvent τ}
    (hflag : r.executor.stopping = true → executor.stopping = true ∧ event.accepts = [])
    (hevent : event = .stopping → executor.stopping = true) (asleep : List Nat) (stop : StopPc)
    (submissions : Nat) :
    Closed ⟨executor, asleep, stop, submissions, r.events ++ [event]⟩ := by
  constructor
  · intro hm
    rcases List.mem_append.mp hm with hm | hm
    · exact (hflag (hr.flagged hm)).1
    · exact hevent (List.mem_singleton.mp hm).symm
  · apply List.pairwise_append.mpr
    refine ⟨hr.ordered, List.pairwise_singleton _ _, ?_⟩
    rintro _ hm event' hm' rfl
    rw [List.mem_singleton.mp hm']
    exact (hflag (hr.flagged hm)).2

/-- A step keeps the executor closed once it is. -/
theorem closed_move {r r' : RunningExecutor τ} {a : ExecutorAction τ} (hr : r.Closed)
    (h : Move r a r') : r'.Closed := by
  cases h with
  | accept task woken asleep hopen =>
    apply closed_concat hr
    · simp [hopen]
    · simp
  | refuse =>
    apply closed_concat hr
    · simp
    · simp
  | take hawake htasks htake =>
    rcases Executor.workerStep_take htake with ⟨_, _, _, _, rfl⟩
    apply closed_concat hr
    · simp
    · simp
  | exit hawake hexit =>
    rcases Executor.workerStep_exit hexit with ⟨_, _, _, rfl⟩
    exact { hr with }
  | sleep => exact { hr with }
  | finish threw hrunning hfinish =>
    rcases Executor.workerStep_finish hfinish with ⟨_, _, rfl⟩
    apply closed_concat hr
    · simp
    · simp
  | wake => exact { hr with }
  | stop =>
    apply closed_concat hr
    · simp [Executor.beginStop]
    · simp [Executor.beginStop]
  | stopAgain => exact hr
  | notifyAll => exact { hr with }
  | join =>
    apply closed_concat hr
    · simp
    · simp

/-- The construction is kept: the capacity, and the threads until `Stop` has joined them. -/
structure Built (threadCount capacity : Nat) (r : RunningExecutor τ) : Prop where
  capacity : r.executor.capacity = max 1 capacity
  threads : r.stop ≠ .returned → r.executor.workers.length = max 1 threadCount

/-- A step neither resizes the queue nor loses a worker. -/
theorem built_move {threadCount capacity : Nat} {r r' : RunningExecutor τ} {a : ExecutorAction τ}
    (hs : r.Staffed) (hr : r.Built threadCount capacity) (h : Move r a r') :
    r'.Built threadCount capacity := by
  cases h with
  | accept | refuse | sleep | wake => exact { hr with }
  | stopAgain => exact hr
  | take hawake htasks htake =>
    rcases Executor.workerStep_take htake with ⟨_, _, _, _, rfl⟩
    exact ⟨hr.capacity, by simpa using hr.threads⟩
  | exit hawake hexit =>
    rcases Executor.workerStep_exit hexit with ⟨_, _, _, rfl⟩
    exact ⟨hr.capacity, by simpa using hr.threads⟩
  | finish threw hrunning hfinish =>
    rcases Executor.workerStep_finish hfinish with ⟨_, _, rfl⟩
    exact ⟨hr.capacity, by simpa using hr.threads⟩
  | stop hopen => exact ⟨hr.capacity, fun _ ↦ hr.threads (hs.not_returned hopen)⟩
  | notifyAll hnotifying =>
    exact ⟨hr.capacity, fun _ ↦ hr.threads (by simp [hnotifying])⟩
  | join => exact ⟨hr.capacity, by simp⟩

end RunningExecutor

end NetBridge.Transport
