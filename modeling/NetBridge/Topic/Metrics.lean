import Mathlib.Data.UInt
import NetBridge.Diagnostics.TopicMetrics
import NetBridge.Topic.Factory

/-!
# Recording metrics

What a `TopicFactory` records about its messages,
`src/swarm_ros_bridge/src/topic_factory.cpp:83–92,529–656`. Each function holds `metrics_mutex_`, so
it is one step.
-/

namespace NetBridge.Topic

open NetBridge.Base NetBridge.Diagnostics

/-- The metrics of a new factory; `topic_factory.cpp:83–92`. -/
def initialMetrics (topicCfg : TopicCfg) : TopicRuntimeState where
  adaptiveQualityEnabled := topicCfg.imgAdaptiveQuality
  currentJpegQuality := topicCfg.imgJpegQuality.toUInt32
  targetBandwidthKbps := topicCfg.imgTargetBandwidthKbps
  adaptCooldownFrames := topicCfg.imgAdaptCooldownFrames.toUInt32

/-- `pop_front` while the oldest entry is older than the window. -/
def pruneWindow {α : Type} (time : α → RosTime) (now : RosTime) (recent : List α) : List α :=
  recent.dropWhile fun entry ↦ now.since (time entry) > rateWindow

/-- `pruneMetricsWindowLocked`; `topic_factory.cpp:572–590`. -/
def pruneMetricsWindowLocked (now : RosTime) (state : TopicRuntimeState) : TopicRuntimeState :=
  { state with
    recentSendTimes := pruneWindow id now state.recentSendTimes
    recentRecvTimes := pruneWindow id now state.recentRecvTimes
    recentSendBytes := pruneWindow Prod.fst now state.recentSendBytes
    recentRecvBytes := pruneWindow Prod.fst now state.recentRecvBytes }

/-- The quality that `maybeAdaptImageQualityLocked` sets, if it does;
`topic_factory.cpp:601–625`. -/
def adaptedQuality (topicCfg : TopicCfg) (now : RosTime) (state : TopicRuntimeState) :
    Option Int32 :=
  match state.recentSendBytes with
  | [] => none
  | oldest :: _ =>
    let recentBytes := (state.recentSendBytes.map Prod.snd).sum
    let window := max 0.001 (durationToSec (now.since oldest.1))
    let bandwidthKbps := recentBytes.toFloat * 8.0 / 1000.0 / window
    let upper := state.targetBandwidthKbps * 1.15
    let lower := state.targetBandwidthKbps * 0.85
    let quality := state.currentJpegQuality.toInt32
    if bandwidthKbps > upper ∧ quality > topicCfg.imgMinJpegQuality then
      some (max topicCfg.imgMinJpegQuality (quality - topicCfg.imgQualityStep))
    else if bandwidthKbps < lower ∧ quality < topicCfg.imgMaxJpegQuality then
      some (min topicCfg.imgMaxJpegQuality (quality + topicCfg.imgQualityStep))
    else none

/-- `maybeAdaptImageQualityLocked`; `topic_factory.cpp:592–625`. -/
def maybeAdaptImageQualityLocked (topicCfg : TopicCfg) (now : RosTime)
    (state : TopicRuntimeState) : TopicRuntimeState :=
  if topicCfg.type ≠ imageType ∨ !state.adaptiveQualityEnabled ∨
      state.targetBandwidthKbps ≤ 0.0 ∨ state.recentSendBytes.length < 2 ∨
      state.totalSent < state.lastAdaptTotalSent + state.adaptCooldownFrames.toUInt64 then
    state
  else
    match adaptedQuality topicCfg now state with
    | some quality => { state with
        currentJpegQuality := quality.toUInt32
        lastAdaptTotalSent := state.totalSent }
    | none => state

/-- `recordSend`; `topic_factory.cpp:529–540`. -/
def recordSend (topicCfg : TopicCfg) (bytes : UInt64) (now : RosTime)
    (state : TopicRuntimeState) : TopicRuntimeState :=
  let state := pruneMetricsWindowLocked now state
  maybeAdaptImageQualityLocked topicCfg now { state with
    totalSent := state.totalSent + 1
    totalSendBytes := state.totalSendBytes + bytes
    packetSize := bytes.toUInt32
    lastSendTime := now
    recentSendTimes := state.recentSendTimes ++ [now]
    recentSendBytes := state.recentSendBytes ++ [(now, bytes)] }

/-- `recordDrop`; `topic_factory.cpp:542–545`. -/
def recordDrop (state : TopicRuntimeState) : TopicRuntimeState :=
  { state with droppedMessages := state.droppedMessages + 1 }

/-- `recordTransportQueueDrop`; `topic_factory.cpp:547–551`. -/
def recordTransportQueueDrop (state : TopicRuntimeState) : TopicRuntimeState :=
  { state with
    droppedMessages := state.droppedMessages + 1
    transportQueueDrops := state.transportQueueDrops + 1 }

/-- `recordCompleteImageEnvelope`; `topic_factory.cpp:553–557`. -/
def recordCompleteImageEnvelope (sequence : UInt64) (state : TopicRuntimeState) :
    TopicRuntimeState :=
  { state with toFrameCounts := observeCompleteFrameSequence sequence state.toFrameCounts }

/-- `inferLatencyMs` with the clock at `now`; `topic_factory.cpp:627–636`. -/
def inferLatencyMs (sourceTimeNs : Int64) (now : RosTime) : Float :=
  if sourceTimeNs ≤ 0 then -1.0
  else
    let nowNs := now.toNSec.toInt64
    if nowNs < sourceTimeNs then -1.0 else (nowNs - sourceTimeNs).toFloat / 1e6

/-- `computeLatencyStats` of a state that exists; `topic_factory.cpp:638–656`. -/
def computeLatencyStats (latencyMs : Float) (state : TopicRuntimeState) : TopicRuntimeState :=
  if latencyMs < 0.0 then state
  else if state.totalReceived ≤ 1 ∨ state.avgLatencyMs ≤ 0.0 then
    { state with avgLatencyMs := latencyMs, jitterMs := 0.0, lastLatencyMs := latencyMs }
  else
    { state with
      avgLatencyMs := state.avgLatencyMs * (1.0 - 0.2) + latencyMs * 0.2
      jitterMs :=
        if state.lastLatencyMs ≥ 0.0 then
          state.jitterMs * (1.0 - 0.2) + (latencyMs - state.lastLatencyMs).abs * 0.2
        else state.jitterMs
      lastLatencyMs := latencyMs }

/-- `recordReceive`; `topic_factory.cpp:559–570`. -/
def recordReceive (bytes : UInt64) (latencyMs : Float) (now : RosTime)
    (state : TopicRuntimeState) : TopicRuntimeState :=
  let state := pruneMetricsWindowLocked now state
  computeLatencyStats latencyMs { state with
    totalReceived := state.totalReceived + 1
    totalRecvBytes := state.totalRecvBytes + bytes
    packetSize := bytes.toUInt32
    lastRecvTime := now
    recentRecvTimes := state.recentRecvTimes ++ [now]
    recentRecvBytes := state.recentRecvBytes ++ [(now, bytes)] }

/-! ## What each record counts -/

section

variable (topicCfg : TopicCfg) (bytes : UInt64) (now : RosTime) (state : TopicRuntimeState)

/-- An adaptation sets the quality and remembers when, or does nothing. -/
theorem maybeAdaptImageQualityLocked_cases :
    maybeAdaptImageQualityLocked topicCfg now state = state ∨
      ∃ quality, adaptedQuality topicCfg now state = some quality ∧
        maybeAdaptImageQualityLocked topicCfg now state =
          { state with
            currentJpegQuality := quality.toUInt32
            lastAdaptTotalSent := state.totalSent } := by
  unfold maybeAdaptImageQualityLocked
  split
  · exact Or.inl rfl
  · split
    · next quality hadapted => exact Or.inr ⟨quality, hadapted, rfl⟩
    · exact Or.inl rfl

/-- A latency changes the latency statistics. -/
theorem computeLatencyStats_eq (latencyMs : Float) :
    ∃ avgLatencyMs jitterMs lastLatencyMs, computeLatencyStats latencyMs state =
      { state with avgLatencyMs, jitterMs, lastLatencyMs } := by
  unfold computeLatencyStats
  split
  · exact ⟨_, _, _, rfl⟩
  · split
    · exact ⟨_, _, _, rfl⟩
    · exact ⟨_, _, _, rfl⟩

/-- Adapting the quality counts no message. -/
@[simp] theorem counts_maybeAdaptImageQualityLocked :
    (maybeAdaptImageQualityLocked topicCfg now state).toMessageCounts = state.toMessageCounts := by
  rcases maybeAdaptImageQualityLocked_cases topicCfg now state with h | ⟨_, _, h⟩
  · rw [h]
  · rw [h]

/-- Latencies count no message. -/
@[simp] theorem counts_computeLatencyStats (latencyMs : Float) :
    (computeLatencyStats latencyMs state).toMessageCounts = state.toMessageCounts := by
  rcases computeLatencyStats_eq state latencyMs with ⟨_, _, _, h⟩
  rw [h]

/-- Latencies do not touch the frame statistics. -/
@[simp] theorem frames_computeLatencyStats (latencyMs : Float) :
    (computeLatencyStats latencyMs state).toFrameCounts = state.toFrameCounts := by
  rcases computeLatencyStats_eq state latencyMs with ⟨_, _, _, h⟩
  rw [h]

/-- A send counts as sent. -/
@[simp] theorem counts_recordSend : (recordSend topicCfg bytes now state).toMessageCounts =
    { state.toMessageCounts with totalSent := state.totalSent + 1 } := by
  rw [recordSend, counts_maybeAdaptImageQualityLocked]
  rfl

/-- A drop counts as dropped. -/
@[simp] theorem counts_recordDrop : (recordDrop state).toMessageCounts =
    { state.toMessageCounts with droppedMessages := state.droppedMessages + 1 } := rfl

/-- A drop is no frame. -/
@[simp] theorem frames_recordDrop :
    (recordDrop state).toFrameCounts = state.toFrameCounts := rfl

/-- A drop of the queue counts as dropped, and as one of the queue. -/
@[simp] theorem counts_recordTransportQueueDrop :
    (recordTransportQueueDrop state).toMessageCounts = { state.toMessageCounts with
      droppedMessages := state.droppedMessages + 1
      transportQueueDrops := state.transportQueueDrops + 1 } := rfl

/-- A drop of the queue is no frame. -/
@[simp] theorem frames_recordTransportQueueDrop :
    (recordTransportQueueDrop state).toFrameCounts = state.toFrameCounts := rfl

/-- An image envelope is not counted as a message yet. -/
@[simp] theorem counts_recordCompleteImageEnvelope (sequence : UInt64) :
    (recordCompleteImageEnvelope sequence state).toMessageCounts = state.toMessageCounts := rfl

/-- The number of an image envelope is observed. -/
@[simp] theorem frames_recordCompleteImageEnvelope (sequence : UInt64) :
    (recordCompleteImageEnvelope sequence state).toFrameCounts =
      observeCompleteFrameSequence sequence state.toFrameCounts := rfl

/-- A decoded message counts as received. -/
@[simp] theorem counts_recordReceive (latencyMs : Float) :
    (recordReceive bytes latencyMs now state).toMessageCounts =
      { state.toMessageCounts with totalReceived := state.totalReceived + 1 } := by
  rw [recordReceive, counts_computeLatencyStats]
  rfl

/-- A decoded message is no new frame. -/
@[simp] theorem frames_recordReceive (latencyMs : Float) :
    (recordReceive bytes latencyMs now state).toFrameCounts = state.toFrameCounts := by
  rw [recordReceive, frames_computeLatencyStats]
  rfl

end

end NetBridge.Topic
