import NetBridge.Diagnostics.Cache
import NetBridge.Topic.Metrics

/-!
# Topic reports

What a `TopicFactory` reports of its metrics: `GetMetricsSnapshot`,
`src/swarm_ros_bridge/src/topic_factory.cpp:517–522`, over `MakeTopicMetrics`,
`src/diagnostics/topic_metrics.cpp:10–36,70–142`.
-/

namespace NetBridge.Topic

open NetBridge.Base NetBridge.Transport NetBridge.Diagnostics

/-- `QosClassName`; `bridge_transport.cpp:235–247`. -/
def qosClassName : QosClass → Bytes
  | .command => ascii "command"
  | .state => ascii "state"
  | .bulk => ascii "bulk"
  | .service => ascii "service"

/-- The names of the directions; `topic_factory.cpp:75`. -/
def SendOrRecv.direction : SendOrRecv → Bytes
  | .send => ascii "send"
  | .recv => ascii "recv"

/-- The codec that a factory reports; `topic_factory.cpp:76–78`. -/
def reportedCodec (topicCfg : TopicCfg) : Bytes :=
  if topicCfg.type = pointCloudType then
    if topicCfg.cloudCompress then topicCfg.cloudCodec else ascii "raw"
  else if topicCfg.type = imageType then ascii "jpeg"
  else ascii "raw"

/-- `TopicRuntimeState` with the members that only the report reads. -/
structure ReportedState extends TopicRuntimeState where
  topicName : Bytes
  msgType : Bytes
  direction : Bytes
  codec : Bytes
  transport : Bytes
  qosClass : Bytes
  configuredRateHz : Float
  windowStart : RosTime
  configuredJpegQuality : UInt32

/-- The state of a factory: nothing changes these members after its constructor;
`topic_factory.cpp:73–92`. -/
def reportedState (factory : TopicFactory) (windowStart : RosTime) (state : TopicRuntimeState) :
    ReportedState where
  toTopicRuntimeState := state
  topicName := factory.topicCfg.name
  msgType := factory.topicCfg.type
  direction := factory.sendOrRecv.direction
  codec := reportedCodec factory.topicCfg
  transport := factory.topicCfg.transportName
  qosClass := qosClassName factory.topicCfg.qosClass
  configuredRateHz := factory.topicCfg.maxFreq
  windowStart := windowStart
  configuredJpegQuality := factory.topicCfg.imgJpegQuality.toUInt32

/-- `TopicMetrics`; `topic_metrics.hpp:14–45`. -/
structure TopicMetrics where
  topicName : Bytes
  msgType : Bytes
  direction : Bytes
  codec : Bytes
  transport : Bytes
  qosClass : Bytes
  configuredRateHz : Float
  sendRateHz : Float
  recvRateHz : Float
  avgLatencyMs : Float
  jitterMs : Float
  bandwidthKbps : Float
  effectiveRecvBandwidthKbps : Float
  imageLossRatePct : Float
  completeFrameSuccessRatePct : Float
  stabilityScore : Float
  lastRecvAgeMs : Float
  adaptiveQualityEnabled : Bool
  configuredJpegQuality : UInt32
  currentJpegQuality : UInt32
  targetBandwidthKbps : Float
  packetSize : UInt32
  totalMessages : UInt64
  droppedMessages : UInt64
  transportQueueDrops : UInt64
  expectedFrames : UInt64
  transportCompleteFrames : UInt64
  decodedFrames : UInt64
  inferredLostFrames : UInt64
  sequenceResets : UInt64

/-- `ComputeObservedWindow`; `topic_metrics.cpp:10–18`. -/
def computeObservedWindow (now windowStart : RosTime) (configuredWindowSec : Float) : Float :=
  if windowStart.isZero then configuredWindowSec
  else
    let observed := max 0.001 (durationToSec (now.since windowStart))
    min (max 0.001 configuredWindowSec) observed

/-- `ComputeStability`; `topic_metrics.cpp:20–36`. -/
def computeStability (state : ReportedState) (sendRateHz recvRateHz : Float) : Float :=
  if state.configuredRateHz ≤ 0.0 then if state.droppedMessages = 0 then 100.0 else 85.0
  else
    let referenceRate := if state.direction = ascii "send" then sendRateHz else recvRateHz
    let rateRatio := min 1.0 (referenceRate / max 0.001 state.configuredRateHz)
    let dropPenalty := min 40.0 (state.droppedMessages.toFloat * 2.0)
    let latencyPenalty :=
      if state.avgLatencyMs > 0.0 then min 25.0 (state.avgLatencyMs / 8.0) else 0.0
    max 0.0 (min 100.0 (rateRatio * 100.0 - dropPenalty - latencyPenalty))

/-- `MakeTopicMetrics`; `topic_metrics.cpp:70–142`. -/
def makeTopicMetrics (state : ReportedState) (now : RosTime) : TopicMetrics :=
  let sendElapsed := computeObservedWindow now
    (state.recentSendTimes.head?.getD state.windowStart) 3.0
  let recvElapsed := computeObservedWindow now
    (state.recentRecvTimes.head?.getD state.windowStart) 3.0
  let sendRateHz :=
    if state.recentSendTimes.isEmpty then 0.0
    else Float.ofNat state.recentSendTimes.length / sendElapsed
  let recvRateHz :=
    if state.recentRecvTimes.isEmpty then 0.0
    else Float.ofNat state.recentRecvTimes.length / recvElapsed
  let sends := state.direction = ascii "send"
  let recentBytes :=
    ((if sends then state.recentSendBytes else state.recentRecvBytes).map Prod.snd).sum
  let bandwidthKbps :=
    if recentBytes = 0 then 0.0
    else recentBytes.toFloat * 8.0 / 1000.0 / (if sends then sendElapsed else recvElapsed)
  let images := state.msgType = imageType ∧ state.direction = ascii "recv" ∧
    state.expectedFrames > 0
  { topicName := state.topicName
    msgType := state.msgType
    direction := state.direction
    codec := state.codec
    transport := state.transport
    qosClass := state.qosClass
    configuredRateHz := state.configuredRateHz
    sendRateHz
    recvRateHz
    avgLatencyMs := state.avgLatencyMs
    jitterMs := state.jitterMs
    bandwidthKbps
    effectiveRecvBandwidthKbps := if sends then 0.0 else bandwidthKbps
    imageLossRatePct := if images then
      min 100.0 (state.inferredLostFrames.toFloat * 100.0 / state.expectedFrames.toFloat) else 0.0
    completeFrameSuccessRatePct := if images then
      min 100.0 (state.totalReceived.toFloat * 100.0 / state.expectedFrames.toFloat) else 0.0
    stabilityScore := computeStability state sendRateHz recvRateHz
    lastRecvAgeMs := if state.lastRecvTime.isZero then -1.0
      else durationToSec (now.since state.lastRecvTime) * 1000.0
    adaptiveQualityEnabled := state.adaptiveQualityEnabled
    configuredJpegQuality := state.configuredJpegQuality
    currentJpegQuality := state.currentJpegQuality
    targetBandwidthKbps := state.targetBandwidthKbps
    packetSize := state.packetSize
    totalMessages := state.totalSent + state.totalReceived
    droppedMessages := state.droppedMessages
    transportQueueDrops := state.transportQueueDrops
    expectedFrames := state.expectedFrames
    transportCompleteFrames := state.transportCompleteFrames
    decodedFrames := if state.direction = ascii "recv" then state.totalReceived else 0
    inferredLostFrames := state.inferredLostFrames
    sequenceResets := state.sequenceResets }

/-- `metrics_state_` of a factory and the reading of the clock in `GetMetricsSnapshot`. -/
structure MetricsReading where
  state : TopicRuntimeState
  windowStart : RosTime
  now : RosTime

/-- `GetMetricsSnapshot`; `topic_factory.cpp:517–522`. -/
def TopicFactory.getMetricsSnapshot (factory : TopicFactory) (reading : MetricsReading) :
    TopicMetrics :=
  makeTopicMetrics
    (reportedState factory reading.windowStart (pruneMetricsWindowLocked reading.now reading.state))
    reading.now

end NetBridge.Topic
