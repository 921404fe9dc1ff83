import Mathlib.Algebra.Order.Field.Rat
import Mathlib.Tactic.Linarith
import Mathlib.Tactic.NormNum
import NetBridge.Topic.Reception

/-!
# Frame statistics of image receivers

What a receiver of images counts when an envelope arrives
(`src/swarm_ros_bridge/src/topic_factory.cpp:468–470,553–557`,
`src/diagnostics/topic_metrics.cpp:40–68`) against what it counts when a frame is published
(`src/topic_factory.cpp:429–430,559–570`). A repeated sequence number is ignored by the former
only.
-/

namespace NetBridge.Topic

open NetBridge.Base NetBridge.Diagnostics NetBridge.Transport

/-- The envelope of a call of `enqueueEnvelope`. -/
def ReceptionAction.arriving : ReceptionAction → Option TransportEnvelope
  | .enqueue envelope => some envelope
  | _ => none

/-- An admitted envelope does not repeat the sequence number of the admitted one before it, and
the expected frames stay within their 64 bits. -/
def Fresh (msgs : List MessageType) (topicCfg : TopicCfg) (r : Reception) (a : ReceptionAction) :
    Prop :=
  ∀ envelope ∈ a.arriving, admits msgs topicCfg envelope = true →
    r.metrics.last? ≠ some envelope.sequence ∧
      r.metrics.expectedFrames.toNat + r.metrics.advance envelope.sequence < 2 ^ 64

instance (msgs : List MessageType) (topicCfg : TopicCfg) (r : Reception) (a : ReceptionAction) :
    Decidable (Fresh msgs topicCfg r a) :=
  inferInstanceAs (Decidable (∀ envelope ∈ a.arriving, _ → _))

namespace Reception

/-- Decoded frames are complete ones and complete frames expected ones, the others of these are
lost; so the success rate is at most 100 percent, and less with losses. -/
structure Consistent (r : Reception) : Prop where
  decoded : r.metrics.totalReceived.toNat ≤ r.metrics.transportCompleteFrames.toNat
  complete : r.metrics.transportCompleteFrames.toNat ≤ r.metrics.expectedFrames.toNat
  lost : r.metrics.inferredLostFrames.toNat =
    r.metrics.expectedFrames.toNat - r.metrics.transportCompleteFrames.toNat
  atMost : successPct r.metrics ≤ 100
  below : r.metrics.inferredLostFrames ≠ 0 → successPct r.metrics < 100

/-- The expected frames are complete or lost, and the complete ones cover the frames that are
published and those inside. -/
structure Watched (r : Reception) : Prop where
  balanced : r.metrics.toFrameCounts.Balanced
  covered : r.metrics.totalReceived.toNat + r.inside ≤ r.metrics.transportCompleteFrames.toNat

variable {msgs : List MessageType} {topicCfg : TopicCfg} {r : Reception}

private theorem successPct_le {state : TopicRuntimeState}
    (h : state.totalReceived.toNat ≤ state.expectedFrames.toNat) : successPct state ≤ 100 := by
  have hcast : (state.totalReceived.toNat : ℚ) ≤ state.expectedFrames.toNat := Nat.cast_le.mpr h
  apply div_le_of_le_mul₀
  · positivity
  · norm_num
  · linarith

private theorem successPct_lt {state : TopicRuntimeState}
    (h : state.totalReceived.toNat < state.expectedFrames.toNat) : successPct state < 100 := by
  have hcast : (state.totalReceived.toNat : ℚ) < state.expectedFrames.toNat := Nat.cast_lt.mpr h
  have hpos : (0 : ℚ) < state.expectedFrames.toNat := Nat.cast_pos.mpr (by omega)
  rw [successPct, div_lt_iff₀ hpos]
  linarith

/-- What is counted at the arrival bounds what is counted at the publication. -/
theorem Watched.consistent (hr : r.Watched) : r.Consistent := by
  have hbalance := hr.balanced
  have hcovered := hr.covered
  unfold FrameCounts.Balanced at hbalance
  constructor
  · omega
  · omega
  · omega
  · apply successPct_le
    omega
  · intro hlost
    apply successPct_lt
    have hpos : r.metrics.inferredLostFrames.toNat ≠ 0 :=
      fun h ↦ hlost (UInt64.toNat_inj.mp h)
    omega

private theorem watched_push {envelope : TransportEnvelope} (hbalanced : r.metrics.Balanced)
    (hroom : r.metrics.totalReceived.toNat + r.inside + 1 ≤
      r.metrics.transportCompleteFrames.toNat) (calls : List TransportEnvelope) :
    Watched { r.push topicCfg envelope with calls } := by
  rcases Bool.eq_false_or_eq_true r.recvThreadFlag with hflag | hflag
  · rcases push_cases topicCfg hflag envelope with
      ⟨queue, result, ⟨_, hlength, hpush⟩ | ⟨_, hlength, hpush⟩⟩
    · rw [hpush]
      refine ⟨hbalanced, ?_⟩
      simp only [inside] at hroom ⊢
      omega
    · rw [hpush]
      refine ⟨hbalanced, ?_⟩
      simp only [inside, counts_recordTransportQueueDrop,
        frames_recordTransportQueueDrop] at hroom ⊢
      omega
  · have hpush : r.push topicCfg envelope = r := by simp [push, hflag]
    rw [hpush]
    refine ⟨hbalanced, ?_⟩
    simp only [inside] at hroom ⊢
    omega

/-- A step with a new sequence number keeps what is inside covered. -/
theorem watched_step (himage : topicCfg.type = imageType) (r : Reception) (a : ReceptionAction)
    (r' : Reception) (hr : r.Watched) (ha : Fresh msgs topicCfg r a)
    (h : r.step msgs topicCfg a = some r') : r'.Watched := by
  have hcovered := hr.covered
  cases a with
  | enqueue envelope =>
    cases h
    unfold enqueueEnvelope
    split
    · next hpasses =>
      rcases ha envelope rfl hpasses with ⟨hnew, hlt⟩
      rcases observe_new _ hr.balanced hnew hlt with ⟨hbalanced, _, hcomplete, _⟩
      rw [observe, if_pos himage]
      apply watched_push
      · exact hbalanced
      · simp only [inside, counts_recordCompleteImageEnvelope,
          frames_recordCompleteImageEnvelope, hcomplete] at hcovered ⊢
        omega
    · exact ⟨hr.balanced, hcovered⟩
  | pop =>
    rcases step_pop h with ⟨envelope, queue, hpopped, hqueue, rfl⟩
    refine ⟨hr.balanced, ?_⟩
    simp only [inside, hpopped, hqueue, Option.toList_none, Option.toList_some,
      List.length_cons, List.length_nil] at hcovered ⊢
    omega
  | publish latencyNow now =>
    rcases step_publish h with ⟨envelope, hpopped, rfl⟩
    have hlt := r.metrics.transportCompleteFrames.toNat_lt
    simp only [inside, hpopped, Option.toList_some, List.length_cons, List.length_nil]
      at hcovered
    refine ⟨by simpa using hr.balanced, ?_⟩
    simp only [inside, counts_recordReceive, frames_recordReceive, Option.toList_none,
      List.length_nil, UInt64.toNat_add, UInt64.toNat_one]
    omega
  | fail =>
    rcases step_fail h with ⟨envelope, hpopped, rfl⟩
    refine ⟨hr.balanced, ?_⟩
    simp only [inside, hpopped, Option.toList_none, Option.toList_some, List.length_cons,
      List.length_nil, counts_recordDrop, frames_recordDrop] at hcovered ⊢
    omega
  | stop =>
    cases h
    exact ⟨hr.balanced, hcovered⟩

end Reception

/-- In every run of a receiver of images in which no admitted envelope repeats the sequence number
of the one before it and the expected frames stay within 64 bits, the frame statistics are
consistent at all times. -/
theorem image_metrics_consistent (msgs : List MessageType) (topicCfg : TopicCfg)
    (himage : topicCfg.type = imageType) (actions : List ReceptionAction)
    (hfresh : (reception msgs topicCfg).Along (Fresh msgs topicCfg) (.start topicCfg) actions) :
    (reception msgs topicCfg).Always Reception.Consistent (.start topicCfg) actions := by
  apply Machine.always_of_invariant (Reception.watched_step himage)
    (fun _ ↦ Reception.Watched.consistent) _ hfresh
  exact ⟨FrameCounts.balanced_init, Nat.le_refl 0⟩

/-- The second frame is lost, the third one replaces the first one and is published. -/
theorem image_metrics_consistent_gap :
    (reception [] imageReceiver).Always Reception.Consistent (.start imageReceiver)
      [.enqueue (imageEnvelope 1), .enqueue (imageEnvelope 3), .pop, .publish {} {}] :=
  image_metrics_consistent [] imageReceiver rfl _ (by decide)

/-- The metrics of an idle receiver after one frame. -/
def afterFrame (sequence : UInt64) (metrics : TopicRuntimeState) : TopicRuntimeState :=
  recordReceive 0 (inferLatencyMs 0 {}) {} (recordCompleteImageEnvelope sequence metrics)

/-- A frame that arrives at an idle receiver, is popped and published. -/
def frameActions (sequence : UInt64) : List ReceptionAction :=
  [.enqueue (imageEnvelope sequence), .pop, .publish {} {}]

private theorem run_frame (sequence : UInt64) (metrics : TopicRuntimeState)
    (calls : List TransportEnvelope) (pushes : List BoundedQueuePushResult) :
    (reception [] imageReceiver).run ⟨true, [], none, metrics, calls, pushes⟩
        (frameActions sequence) =
      some ⟨true, [], none, afterFrame sequence metrics, calls ++ [imageEnvelope sequence],
        pushes ++ [.enqueued]⟩ := rfl

/-- The metrics of an image receiver after the frames 1, 3 and 3. -/
def threeFrames : TopicRuntimeState :=
  afterFrame 3 (afterFrame 3 (afterFrame 1 (initialMetrics imageReceiver)))

/-- A repeated frame is published twice and counted as complete once: three frames are published of
two complete and three expected ones, and the lost one does not show in the success rate. -/
theorem image_metrics_repeated :
    ∃ r, (reception [] imageReceiver).Reachable r ∧ r.metrics.totalReceived = 3 ∧
      r.metrics.transportCompleteFrames = 2 ∧ r.metrics.expectedFrames = 3 ∧
      r.metrics.inferredLostFrames = 1 ∧ successPct r.metrics = 100 ∧ ¬r.Consistent := by
  have hrun : (reception [] imageReceiver).run (.start imageReceiver)
      (frameActions 1 ++ (frameActions 3 ++ frameActions 3)) =
        some ⟨true, [], none, threeFrames,
          [imageEnvelope 1, imageEnvelope 3, imageEnvelope 3],
          [.enqueued, .enqueued, .enqueued]⟩ := by
    simp only [Reception.start, Machine.run_append, run_frame, Option.bind_some, List.nil_append,
      List.cons_append, threeFrames]
  have hreceived : (threeFrames).totalReceived = 3 := by
    simp [threeFrames, afterFrame, initialMetrics]
  have hframes : (threeFrames).toFrameCounts =
      { frameSequenceInitialized := true, lastFrameSequence := 3, expectedFrames := 3,
        transportCompleteFrames := 2, inferredLostFrames := 1 } := by
    simp only [threeFrames, afterFrame, frames_recordReceive, frames_recordCompleteImageEnvelope]
    decide
  refine ⟨_, ⟨.start imageReceiver, _, rfl, hrun⟩, hreceived, ?_, ?_, ?_, ?_, ?_⟩
  · simp only [hframes]
  · simp only [hframes]
  · simp only [hframes]
  · have hthree : (3 : UInt64).toNat = 3 := rfl
    simp only [successPct, hreceived, hframes, hthree]
    norm_num
  · intro h
    have hdecoded := h.decoded
    simp only [hreceived, hframes] at hdecoded
    exact absurd hdecoded (by decide)
end NetBridge.Topic
