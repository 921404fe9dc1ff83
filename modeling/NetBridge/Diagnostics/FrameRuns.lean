import Mathlib.Data.List.Dedup
import Mathlib.Data.List.SplitBy
import Mathlib.Algebra.BigOperators.Group.List.Basic
import NetBridge.Diagnostics.TopicMetrics

/-!
# Frame statistics in closed form

`ObserveCompleteFrameSequence`, `src/swarm_ros_bridge/src/diagnostics/topic_metrics.cpp:40–68`,
counts frame by frame. Over a whole list of sequence numbers its counters are sums over the maximal
non-decreasing runs of the list: a lower number starts a new epoch of the sender, and a repeated one
is ignored.
-/

namespace NetBridge.Diagnostics

/-- The frame statistics after a list of sequence numbers. -/
def observeSequences (sequences : List UInt64) (state : FrameCounts) : FrameCounts :=
  sequences.foldl (fun state sequence ↦ observeCompleteFrameSequence sequence state) state

/-- Two lists of numbers are observed one behind the other. -/
theorem observeSequences_append (front rest : List UInt64) (state : FrameCounts) :
    observeSequences (front ++ rest) state =
      observeSequences rest (observeSequences front state) := List.foldl_append

/-- The maximal non-decreasing runs. -/
def frameRuns (sequences : List UInt64) : List (List UInt64) :=
  sequences.splitBy fun sequence next ↦ sequence ≤ next

/-- The frames from the first number of a run to its last. -/
def runExpected : List UInt64 → Nat
  | [] => 0
  | first :: rest => (rest.getLastD first).toNat - first.toNat + 1

/-- The distinct numbers of a run. -/
def runComplete (run : List UInt64) : Nat := run.dedup.length

/-- The statistics are these numbers, up to the width of the counters. -/
structure FrameCounts.Counts (state : FrameCounts) (e c r : Nat) : Prop where
  expected : state.expectedFrames = UInt64.ofNat e
  complete : state.transportCompleteFrames = UInt64.ofNat c
  lost : state.inferredLostFrames = UInt64.ofNat (e - c)
  resets : state.sequenceResets = UInt64.ofNat r
  le : c ≤ e

namespace FrameCounts

variable {state : FrameCounts} {e c r : Nat}

/-- A new receiver has counted nothing. -/
theorem counts_init : Counts {} 0 0 0 := ⟨rfl, rfl, rfl, rfl, Nat.le_refl 0⟩

/-- The first number of all starts the statistics. -/
theorem counts_first (sequence : UInt64) :
    (observeCompleteFrameSequence sequence {}).Counts 1 1 0 ∧
      (observeCompleteFrameSequence sequence {}).last? = some sequence :=
  ⟨⟨rfl, rfl, rfl, rfl, Nat.le_refl 1⟩, rfl⟩

private theorem initialized_of_last {last : UInt64} (h : state.last? = some last) :
    state.frameSequenceInitialized = true ∧ state.lastFrameSequence = last := by
  unfold last? at h
  split at h
  · next hi =>
    cases h
    exact ⟨hi, rfl⟩
  · cases h

/-- A lower number starts an epoch. -/
theorem counts_lower (h : state.Counts e c r) {last sequence : UInt64}
    (hlast : state.last? = some last) (hlower : sequence < last) :
    (observeCompleteFrameSequence sequence state).Counts (e + 1) (c + 1) (r + 1) ∧
      (observeCompleteFrameSequence sequence state).last? = some sequence := by
  rcases initialized_of_last hlast with ⟨hi, rfl⟩
  have hne : sequence ≠ state.lastFrameSequence := by
    rintro rfl
    exact UInt64.lt_irrefl _ hlower
  have hle := h.le
  simp only [observeCompleteFrameSequence, hi, Bool.not_true, Bool.false_eq_true, if_false, hne,
    hlower, if_true]
  refine ⟨⟨?_, ?_, ?_, ?_, by omega⟩, by simp [last?]⟩
  · simp [h.expected, UInt64.ofNat_add]
  · simp [h.complete, UInt64.ofNat_add]
  · simp only [h.lost]
    congr 1
    omega
  · simp [h.resets, UInt64.ofNat_add]

/-- A repeated number changes nothing. -/
theorem observe_repeated {last : UInt64} (hlast : state.last? = some last) :
    observeCompleteFrameSequence last state = state := by
  rcases initialized_of_last hlast with ⟨hi, rfl⟩
  simp [observeCompleteFrameSequence, hi]

/-- A higher number is one more complete frame, behind the lost ones. -/
theorem counts_higher (h : state.Counts e c r) {last sequence : UInt64}
    (hlast : state.last? = some last) (hhigher : last < sequence) :
    (observeCompleteFrameSequence sequence state).Counts
        (e + (sequence.toNat - last.toNat)) (c + 1) r ∧
      (observeCompleteFrameSequence sequence state).last? = some sequence := by
  rcases initialized_of_last hlast with ⟨hi, rfl⟩
  have hnat : state.lastFrameSequence.toNat < sequence.toNat := hhigher
  have hne : sequence ≠ state.lastFrameSequence := by
    rintro rfl
    exact Nat.lt_irrefl _ hnat
  have hnot : ¬sequence < state.lastFrameSequence := fun hlt ↦
    Nat.lt_asymm hnat (UInt64.lt_iff_toNat_lt.mp hlt)
  have hle := h.le
  have hdelta : sequence - state.lastFrameSequence =
      UInt64.ofNat (sequence.toNat - state.lastFrameSequence.toNat) := by
    rw [UInt64.ofNat_sub (Nat.le_of_lt hnat), UInt64.ofNat_toNat, UInt64.ofNat_toNat]
  have hgap : sequence - state.lastFrameSequence - 1 =
      UInt64.ofNat (sequence.toNat - state.lastFrameSequence.toNat - 1) := by
    have hone : 1 ≤ sequence.toNat - state.lastFrameSequence.toNat := by omega
    rw [hdelta]
    exact (UInt64.ofNat_sub hone).symm
  simp only [observeCompleteFrameSequence, hi, Bool.not_true, Bool.false_eq_true, if_false, hne,
    hnot]
  refine ⟨⟨?_, ?_, ?_, h.resets, by omega⟩, by simp [last?]⟩
  · simp [h.expected, hdelta, UInt64.ofNat_add]
  · simp [h.complete, UInt64.ofNat_add]
  · simp only [h.lost, hgap, ← UInt64.ofNat_add]
    congr 1
    omega

end FrameCounts

/-! ## Runs -/

private theorem le_of_nonDecreasing {first : UInt64} {rest : List UInt64}
    (h : (first :: rest).IsChain (· ≤ ·)) : ∀ sequence ∈ first :: rest, first ≤ sequence := by
  induction rest generalizing first with
  | nil =>
    intro sequence hm
    rw [List.mem_singleton.mp hm]
    exact UInt64.le_refl first
  | cons next rest ih =>
    rw [List.isChain_cons_cons] at h
    intro sequence hm
    rcases List.mem_cons.mp hm with rfl | hm
    · exact UInt64.le_refl _
    · exact UInt64.le_trans h.1 (ih h.2 sequence hm)

private theorem le_last_of_nonDecreasing {first : UInt64} {rest : List UInt64}
    (h : (first :: rest).IsChain (· ≤ ·)) : first.toNat ≤ (rest.getLastD first).toNat := by
  apply UInt64.le_iff_toNat_le.mp
  apply le_of_nonDecreasing h
  rw [← List.getLast_eq_getLastD (List.cons_ne_nil first rest)]
  exact List.getLast_mem _

private theorem runComplete_cons {first next : UInt64} {rest : List UInt64}
    (h : (first :: next :: rest).IsChain (· ≤ ·)) :
    runComplete (first :: next :: rest) =
      runComplete (next :: rest) + if first < next then 1 else 0 := by
  rw [List.isChain_cons_cons] at h
  unfold runComplete
  by_cases hlt : first < next
  · have hnot : first ∉ next :: rest := fun hm ↦
      UInt64.not_lt.mpr (le_of_nonDecreasing h.2 first hm) hlt
    rw [List.dedup_cons_of_notMem hnot, if_pos hlt, List.length_cons]
  · have heq : first = next := UInt64.le_antisymm h.1 (UInt64.not_lt.mp hlt)
    rw [heq, List.dedup_cons_of_mem List.mem_cons_self, if_neg (UInt64.lt_irrefl next),
      Nat.add_zero]

private theorem runComplete_pos (first : UInt64) (rest : List UInt64) :
    0 < runComplete (first :: rest) := by
  apply List.length_pos_of_mem (a := first)
  rw [List.mem_dedup]
  exact List.mem_cons_self

private theorem length_frameRuns_le (sequences : List UInt64) :
    (frameRuns sequences).length ≤ ((frameRuns sequences).map runExpected).sum := by
  have hpos : ∀ n ∈ (frameRuns sequences).map runExpected, 1 ≤ n := by
    intro n hm
    rcases List.mem_map.mp hm with ⟨run, hrun, rfl⟩
    obtain ⟨first, rest, rfl⟩ := List.exists_cons_of_ne_nil (List.ne_nil_of_mem_splitBy hrun)
    exact Nat.le_add_left 1 _
  simpa using List.length_le_sum_of_one_le _ hpos

namespace FrameCounts

/-- The rest of a run moves the expected frames to its last number and counts its distinct
numbers. -/
theorem counts_rest {last : UInt64} {rest : List UInt64} {state : FrameCounts} {e c r : Nat}
    (h : state.Counts e c r) (hlast : state.last? = some last)
    (hrun : (last :: rest).IsChain (· ≤ ·)) :
    (observeSequences rest state).Counts (e + ((rest.getLastD last).toNat - last.toNat))
        (c + (runComplete (last :: rest) - 1)) r ∧
      (observeSequences rest state).last? = some (rest.getLastD last) := by
  induction rest generalizing last state e c with
  | nil =>
    refine ⟨?_, hlast⟩
    simpa [observeSequences, runComplete] using h
  | cons next rest ih =>
    have hcount := runComplete_cons hrun
    rw [List.isChain_cons_cons] at hrun
    have hnext := le_last_of_nonDecreasing hrun.2
    have hle : last.toNat ≤ next.toNat := UInt64.le_iff_toNat_le.mp hrun.1
    have hpos := runComplete_pos next rest
    rw [List.getLastD_cons]
    show Counts (observeSequences rest (observeCompleteFrameSequence next state)) _ _ _ ∧
      (observeSequences rest (observeCompleteFrameSequence next state)).last? = _
    by_cases hlt : last < next
    · rcases counts_higher h hlast hlt with ⟨hcounts, hlast'⟩
      rcases ih hcounts hlast' hrun.2 with ⟨hcounts', hlast''⟩
      rw [if_pos hlt] at hcount
      refine ⟨?_, hlast''⟩
      convert hcounts' using 1
      · omega
      · omega
    · have heq : last = next := UInt64.le_antisymm hrun.1 (UInt64.not_lt.mp hlt)
      rw [if_neg hlt] at hcount
      rw [← heq, observe_repeated hlast]
      rw [← heq] at hrun hcount
      rcases ih h hlast hrun.2 with ⟨hcounts', hlast''⟩
      refine ⟨?_, hlast''⟩
      convert hcounts' using 1
      omega

private theorem counts_run {first : UInt64} {rest : List UInt64} {state : FrameCounts}
    {e c r : Nat}
    (h : (observeCompleteFrameSequence first state).Counts (e + 1) (c + 1) r)
    (hlast : (observeCompleteFrameSequence first state).last? = some first)
    (hrun : (first :: rest).IsChain (· ≤ ·)) :
    (observeSequences (first :: rest) state).Counts (e + runExpected (first :: rest))
        (c + runComplete (first :: rest)) r ∧
      (observeSequences (first :: rest) state).last? =
        some ((first :: rest).getLast (List.cons_ne_nil first rest)) := by
  have hpos := runComplete_pos first rest
  rcases counts_rest h hlast hrun with ⟨hcounts, hlast'⟩
  rw [List.getLast_eq_getLastD]
  refine ⟨?_, hlast'⟩
  show Counts (observeSequences rest (observeCompleteFrameSequence first state)) _ _ _
  convert hcounts using 1
  · simp only [runExpected]
    omega
  · omega

/-- The runs behind the first each start an epoch. -/
theorem counts_runs {runs : List (List UInt64)} {run : List UInt64} {last : UInt64}
    {state : FrameCounts} {e c r : Nat} (h : state.Counts e c r)
    (hlast : state.last? = some last) (hrun : ∀ hne, run.getLast hne = last)
    (hruns : ∀ run ∈ runs, run.IsChain (· ≤ ·))
    (hchain : (run :: runs).IsChain fun run next ↦
      ∃ hr hn, decide (run.getLast hr ≤ next.head hn) = false) :
    (observeSequences runs.flatten state).Counts (e + (runs.map runExpected).sum)
      (c + (runs.map runComplete).sum) (r + runs.length) := by
  induction runs generalizing run last state e c r with
  | nil => simpa [observeSequences] using h
  | cons next runs ih =>
    rw [List.isChain_cons_cons] at hchain
    rcases hchain with ⟨⟨hr, hn, hlower⟩, hchain⟩
    obtain ⟨first, rest, rfl⟩ := List.exists_cons_of_ne_nil hn
    rw [hrun hr, List.head_cons, decide_eq_false_iff_not, UInt64.not_le] at hlower
    rcases counts_lower h hlast hlower with ⟨hfirst, hfirst'⟩
    rcases counts_run hfirst hfirst' (hruns _ List.mem_cons_self) with ⟨hcounts, hlast'⟩
    have hrest := ih hcounts hlast' (fun _ ↦ rfl)
      (fun run hm ↦ hruns run (List.mem_cons_of_mem _ hm)) hchain
    rw [List.flatten_cons, observeSequences_append]
    convert hrest using 1
    · rw [List.map_cons, List.sum_cons, Nat.add_assoc]
    · rw [List.map_cons, List.sum_cons, Nat.add_assoc]
    · rw [List.length_cons]
      omega

/-- The counters of any list of sequence numbers, up to their width. -/
theorem counts_sequences (sequences : List UInt64) :
    (observeSequences sequences {}).Counts ((frameRuns sequences).map runExpected).sum
      ((frameRuns sequences).map runComplete).sum ((frameRuns sequences).length - 1) := by
  have hchain := List.isChain_getLast_head_splitBy (fun sequence next : UInt64 ↦
    sequence ≤ next) sequences
  have hruns : ∀ run ∈ frameRuns sequences, run.IsChain (· ≤ ·) := fun run hm ↦
    (List.isChain_of_mem_splitBy hm).imp fun _ _ hle ↦ of_decide_eq_true hle
  have hflat : (frameRuns sequences).flatten = sequences := List.flatten_splitBy _ sequences
  have hne : ∀ run ∈ frameRuns sequences, run ≠ [] := fun run hm ↦
    List.ne_nil_of_mem_splitBy hm
  change (frameRuns sequences).IsChain _ at hchain
  conv => arg 1; rw [← hflat]
  cases hsplit : frameRuns sequences with
  | nil => exact counts_init
  | cons run runs =>
    rw [hsplit] at hruns hchain hne
    obtain ⟨first, rest, rfl⟩ := List.exists_cons_of_ne_nil (hne run List.mem_cons_self)
    rcases counts_first first with ⟨hfirst, hfirst'⟩
    rcases counts_run hfirst hfirst' (hruns _ List.mem_cons_self) with ⟨hcounts, hlast⟩
    have hrest := counts_runs hcounts hlast (fun _ ↦ rfl)
      (fun run hm ↦ hruns run (List.mem_cons_of_mem _ hm)) hchain
    rw [List.flatten_cons, observeSequences_append]
    convert hrest using 1
    · rw [List.map_cons, List.sum_cons, Nat.zero_add]
    · rw [List.map_cons, List.sum_cons, Nat.zero_add]
    · rw [List.length_cons]
      omega

end FrameCounts

/-- Over any list of sequence numbers whose frames the counters hold, the statistics are sums over
the maximal non-decreasing runs. -/
theorem frame_counts_of_runs (sequences : List UInt64)
    (hwidth : ((frameRuns sequences).map runExpected).sum < 2 ^ 64) :
    (observeSequences sequences {}).sequenceResets.toNat = (frameRuns sequences).length - 1 ∧
    (observeSequences sequences {}).expectedFrames.toNat =
      ((frameRuns sequences).map runExpected).sum ∧
    (observeSequences sequences {}).transportCompleteFrames.toNat =
      ((frameRuns sequences).map runComplete).sum ∧
    (observeSequences sequences {}).transportCompleteFrames.toNat +
        (observeSequences sequences {}).inferredLostFrames.toNat =
      (observeSequences sequences {}).expectedFrames.toNat := by
  have h := FrameCounts.counts_sequences sequences
  have hruns := length_frameRuns_le sequences
  have hle := h.le
  have hexpected := congrArg UInt64.toNat h.expected
  have hcomplete := congrArg UInt64.toNat h.complete
  have hlost := congrArg UInt64.toNat h.lost
  have hresets := congrArg UInt64.toNat h.resets
  rw [UInt64.toNat_ofNat'] at hexpected hcomplete hlost hresets
  omega

/-- Gaps, repeats and a restart. -/
theorem frame_counts_of_runs_restart :
    (observeSequences [1, 1, 4, 6, 2, 3] {}).sequenceResets.toNat = 1 ∧
    (observeSequences [1, 1, 4, 6, 2, 3] {}).expectedFrames.toNat = 8 ∧
    (observeSequences [1, 1, 4, 6, 2, 3] {}).transportCompleteFrames.toNat = 5 ∧
    (observeSequences [1, 1, 4, 6, 2, 3] {}).transportCompleteFrames.toNat +
        (observeSequences [1, 1, 4, 6, 2, 3] {}).inferredLostFrames.toNat =
      (observeSequences [1, 1, 4, 6, 2, 3] {}).expectedFrames.toNat :=
  frame_counts_of_runs [1, 1, 4, 6, 2, 3] (by decide)

end NetBridge.Diagnostics
