import Mathlib.Data.Rat.Cast.Order
import Mathlib.Order.Interval.Finset.Nat
import NetBridge.Base.Bytes
import NetBridge.Base.RosTime

/-!
# Topic metrics

`TopicRuntimeState` and the frame statistics of a receiver,
`src/swarm_ros_bridge/src/diagnostics/topic_metrics.cpp:40–68,117–137` over
`include/diagnostics/topic_metrics.hpp:49–94`.
-/

namespace NetBridge.Diagnostics

open NetBridge.Base

/-- `toSec` of a duration in nanoseconds. -/
def durationToSec (duration : Int) : Float :=
  Float.ofInt (duration / 1000000000) + 1e-9 * Float.ofInt (duration % 1000000000)

/-- The message counters of `TopicRuntimeState`; `topic_metrics.hpp:57–63`. -/
structure MessageCounts where
  totalSent : UInt64 := 0
  totalReceived : UInt64 := 0
  droppedMessages : UInt64 := 0
  transportQueueDrops : UInt64 := 0
deriving DecidableEq

/-- The frame statistics of `TopicRuntimeState`; `topic_metrics.hpp:80–85`. -/
structure FrameCounts where
  frameSequenceInitialized : Bool := false
  lastFrameSequence : UInt64 := 0
  expectedFrames : UInt64 := 0
  transportCompleteFrames : UInt64 := 0
  inferredLostFrames : UInt64 := 0
  sequenceResets : UInt64 := 0
deriving DecidableEq

/-- `TopicRuntimeState`; `topic_metrics.hpp:49–86`. The names, rates and window start that only the
report reads are left out; nothing changes `rate_window_sec`. -/
structure TopicRuntimeState extends MessageCounts, FrameCounts where
  totalSendBytes : UInt64 := 0
  totalRecvBytes : UInt64 := 0
  packetSize : UInt32 := 0
  lastSendTime : RosTime := {}
  lastRecvTime : RosTime := {}
  recentSendTimes : List RosTime := []
  recentRecvTimes : List RosTime := []
  recentSendBytes : List (RosTime × UInt64) := []
  recentRecvBytes : List (RosTime × UInt64) := []
  adaptiveQualityEnabled : Bool := false
  currentJpegQuality : UInt32 := 0
  targetBandwidthKbps : Float := 0.0
  adaptCooldownFrames : UInt32 := 0
  lastAdaptTotalSent : UInt64 := 0
  avgLatencyMs : Float := 0.0
  jitterMs : Float := 0.0
  lastLatencyMs : Float := -1.0

/-- `rate_window_sec` in nanoseconds; `topic_metrics.hpp:69`. -/
def rateWindow : Int := 3000000000

/-- `ObserveCompleteFrameSequence` of a state that exists; `topic_metrics.cpp:40–68`. -/
def observeCompleteFrameSequence (sequence : UInt64) (state : FrameCounts) : FrameCounts :=
  if !state.frameSequenceInitialized then
    { state with
      frameSequenceInitialized := true
      lastFrameSequence := sequence
      expectedFrames := state.expectedFrames + 1
      transportCompleteFrames := state.transportCompleteFrames + 1 }
  else if sequence = state.lastFrameSequence then state
  else if sequence < state.lastFrameSequence then
    { state with
      sequenceResets := state.sequenceResets + 1
      lastFrameSequence := sequence
      expectedFrames := state.expectedFrames + 1
      transportCompleteFrames := state.transportCompleteFrames + 1 }
  else
    let sequenceDelta := sequence - state.lastFrameSequence
    { state with
      expectedFrames := state.expectedFrames + sequenceDelta
      inferredLostFrames := state.inferredLostFrames + (sequenceDelta - 1)
      transportCompleteFrames := state.transportCompleteFrames + 1
      lastFrameSequence := sequence }

/-- The quotient that `complete_frame_success_rate_pct` clamps, before it is rounded. -/
def successPct (state : TopicRuntimeState) : ℚ :=
  state.totalReceived.toNat * 100 / state.expectedFrames.toNat

/-! ## The frame statistics -/

namespace FrameCounts

/-- The sequence number of the last observed envelope. -/
def last? (state : FrameCounts) : Option UInt64 :=
  if state.frameSequenceInitialized then some state.lastFrameSequence else none

/-- How far an envelope moves the expected frames: to its number from a smaller one, and by one
frame at the start and behind a restart of the sender. -/
def advance (state : FrameCounts) (sequence : UInt64) : Nat :=
  if state.frameSequenceInitialized ∧ state.lastFrameSequence ≤ sequence then
    sequence.toNat - state.lastFrameSequence.toNat
  else 1

/-- Each expected frame is complete or lost. -/
def Balanced (state : FrameCounts) : Prop :=
  state.expectedFrames.toNat =
    state.transportCompleteFrames.toNat + state.inferredLostFrames.toNat

/-- No frame has been expected yet. -/
theorem balanced_init : Balanced {} := rfl

end FrameCounts

private theorem toNat_add {a b : UInt64} (h : a.toNat + b.toNat < 2 ^ 64) :
    (a + b).toNat = a.toNat + b.toNat := by
  rw [UInt64.toNat_add, Nat.mod_eq_of_lt h]

private theorem toNat_succ {a : UInt64} (h : a.toNat + 1 < 2 ^ 64) :
    (a + 1).toNat = a.toNat + 1 :=
  toNat_add h

/-- A new sequence number counts one complete frame, and those between it and the last one are
lost, while the expected frames stay within their 64 bits. -/
theorem observe_new (sequence : UInt64) {state : FrameCounts} (hb : state.Balanced)
    (hnew : state.last? ≠ some sequence)
    (hlt : state.expectedFrames.toNat + state.advance sequence < 2 ^ 64) :
    (observeCompleteFrameSequence sequence state).Balanced ∧
      (observeCompleteFrameSequence sequence state).last? = some sequence ∧
      (observeCompleteFrameSequence sequence state).transportCompleteFrames.toNat =
        state.transportCompleteFrames.toNat + 1 ∧
      (observeCompleteFrameSequence sequence state).expectedFrames.toNat =
        state.expectedFrames.toNat + state.advance sequence := by
  have hone : (1 : UInt64).toNat = 1 := rfl
  unfold FrameCounts.Balanced at hb ⊢
  unfold FrameCounts.advance at hlt ⊢
  unfold observeCompleteFrameSequence
  cases hi : state.frameSequenceInitialized with
  | false =>
    simp only [hi, Bool.false_eq_true, false_and, if_false] at hlt
    simp only [Bool.not_false, if_true, Bool.false_eq_true, false_and, if_false,
      FrameCounts.last?]
    have hexpected := toNat_succ (a := state.expectedFrames) (by omega)
    have hcomplete := toNat_succ (a := state.transportCompleteFrames) (by omega)
    refine ⟨?_, trivial, by omega, by omega⟩
    simp only [hexpected, hcomplete]
    omega
  | true =>
    have hne : sequence ≠ state.lastFrameSequence := by
      rintro rfl
      exact hnew (by simp [FrameCounts.last?, hi])
    simp only [hi, true_and] at hlt
    simp only [Bool.not_true, Bool.false_eq_true, if_false, hne, true_and, FrameCounts.last?]
    by_cases hless : sequence < state.lastFrameSequence
    · rw [if_neg (UInt64.not_le.mpr hless)] at hlt
      simp only [hless, if_true, if_neg (UInt64.not_le.mpr hless)]
      have hexpected := toNat_succ (a := state.expectedFrames) (by omega)
      have hcomplete := toNat_succ (a := state.transportCompleteFrames) (by omega)
      refine ⟨?_, trivial, by omega, by omega⟩
      simp only [hexpected, hcomplete]
      omega
    · have hle : state.lastFrameSequence ≤ sequence := UInt64.not_lt.mp hless
      rw [if_pos hle] at hlt
      simp only [hless, if_false, if_true, if_pos hle]
      have hnatle : state.lastFrameSequence.toNat ≤ sequence.toNat := hle
      have hnatne : sequence.toNat ≠ state.lastFrameSequence.toNat :=
        fun h ↦ hne (UInt64.toNat_inj.mp h)
      have hdelta : (sequence - state.lastFrameSequence).toNat =
          sequence.toNat - state.lastFrameSequence.toNat := UInt64.toNat_sub_of_le _ _ hle
      have hgap : (sequence - state.lastFrameSequence - 1).toNat =
          (sequence - state.lastFrameSequence).toNat - 1 := by
        apply UInt64.toNat_sub_of_le
        rw [UInt64.le_iff_toNat_le]
        omega
      have hexpected := toNat_add (a := state.expectedFrames)
        (b := sequence - state.lastFrameSequence) (by omega)
      have hcomplete := toNat_succ (a := state.transportCompleteFrames) (by omega)
      have hlost := toNat_add (a := state.inferredLostFrames)
        (b := sequence - state.lastFrameSequence - 1) (by omega)
      refine ⟨?_, trivial, by omega, by omega⟩
      simp only [hexpected, hcomplete, hlost]
      omega

/-- The last one of ascending numbers is the greatest. -/
theorem le_getLastD {sequences : List UInt64} {first : UInt64}
    (h : (first :: sequences).Pairwise (· < ·)) :
    ∀ sequence ∈ first :: sequences, sequence ≤ sequences.getLastD first := by
  induction sequences generalizing first with
  | nil =>
    intro sequence hm
    rw [List.mem_singleton.mp hm]
    exact UInt64.le_refl first
  | cons next sequences ih =>
    intro sequence hm
    have hrest := ih (List.pairwise_cons.mp h).2
    rw [List.getLastD_cons]
    rcases List.mem_cons.mp hm with rfl | hm
    · have hless := List.rel_of_pairwise_cons h List.mem_cons_self
      exact UInt64.le_of_lt (UInt64.lt_of_lt_of_le hless (hrest next List.mem_cons_self))
    · exact hrest sequence hm

/-- Ascending sequence numbers count as many complete frames, and the frames expected reach from the
number before them to the last one. -/
theorem observe_ascending {sequences : List UInt64} (last : UInt64) (state : FrameCounts)
    (hb : state.Balanced) (hlast : state.last? = some last)
    (hasc : (last :: sequences).Pairwise (· < ·))
    (hlt : state.expectedFrames.toNat + ((sequences.getLastD last).toNat - last.toNat) < 2 ^ 64) :
    (sequences.foldl (fun state sequence ↦ observeCompleteFrameSequence sequence state)
        state).Balanced ∧
      (sequences.foldl (fun state sequence ↦ observeCompleteFrameSequence sequence state)
        state).transportCompleteFrames.toNat =
          state.transportCompleteFrames.toNat + sequences.length ∧
      (sequences.foldl (fun state sequence ↦ observeCompleteFrameSequence sequence state)
        state).expectedFrames.toNat =
          state.expectedFrames.toNat + ((sequences.getLastD last).toNat - last.toNat) := by
  induction sequences generalizing last state with
  | nil =>
    refine ⟨hb, rfl, ?_⟩
    simp
  | cons sequence sequences ih =>
    have hless : last < sequence := List.rel_of_pairwise_cons hasc List.mem_cons_self
    have hrest := List.pairwise_cons.mp hasc
    have hle := le_getLastD hrest.2 sequence List.mem_cons_self
    rw [UInt64.lt_iff_toNat_lt] at hless
    rw [UInt64.le_iff_toNat_le] at hle
    have hadvance : state.advance sequence = sequence.toNat - last.toNat := by
      unfold FrameCounts.last? at hlast
      split at hlast
      · next hi =>
        cases hlast
        rw [FrameCounts.advance, if_pos ⟨hi, UInt64.le_iff_toNat_le.mpr (Nat.le_of_lt hless)⟩]
      · cases hlast
    rw [List.getLastD_cons] at hlt ⊢
    rcases observe_new sequence hb (by
        rw [hlast, Ne, Option.some_inj]
        rintro rfl
        exact absurd hless (Nat.lt_irrefl _)) (by omega) with
      ⟨hbalanced, hnext, hcomplete, hexpected⟩
    rcases ih sequence _ hbalanced hnext hrest.2 (by omega) with
      ⟨hbalanced', hcomplete', hexpected'⟩
    rw [List.foldl_cons, List.length_cons]
    exact ⟨hbalanced', by omega, by omega⟩

end NetBridge.Diagnostics
