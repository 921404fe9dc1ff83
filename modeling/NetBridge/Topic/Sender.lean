import NetBridge.Topic.Metrics

/-!
# Sending messages

`subCallback` and `sendFreqControl`, `src/swarm_ros_bridge/src/topic_factory.cpp:136–232,308–322`,
over `ZenohPublisher::Publish`, `src/transport/zenoh_transport.cpp:343–355`. The encoders of
messages, the clock and Zenoh's `put` are inputs of a callback.
-/

namespace NetBridge.Topic

open NetBridge.Base NetBridge.Diagnostics NetBridge.Transport

/-- The `header` of a message. -/
structure MessageHeader where
  stamp : RosTime := {}
  seq : UInt32 := 0
  frameId : Bytes := []
deriving DecidableEq

/-- A message as `subCallback` sees it: its header, if its type has one, what the encoder makes of
it, if it does not throw, and its `to_drone_ids`. -/
structure RosMessage where
  header : Option MessageHeader := none
  encoded : Option Bytes
  toDroneIds : List UInt8 := []
deriving DecidableEq

/-- The input of one call of `subCallback`: the message, the readings of the clock, and for each
publish whether `put` returns. -/
structure Callback where
  message : RosMessage
  now : RosTime := {}
  stampNow : RosTime := {}
  puts : Nat → Bool := fun _ ↦ true
  sendNow : Nat → RosTime := fun _ ↦ {}

/-- What a callback does with a message, with the sequence number that it has taken. -/
inductive SendEvent where
  | limited
  | encodeFailed (sequence : UInt64)
  | unconfigured (sequence : UInt64) (target : Bytes)
  | publishFailed (sequence : UInt64) (key : Bytes)
  | published (key : Bytes) (envelope : TransportEnvelope)
deriving DecidableEq

/-- A sending `TopicFactory` with its counters, and the record of its callbacks. -/
structure Sender where
  factory : TopicFactory
  subLastTime : RosTime := {}
  sequence : UInt64 := 0
  metrics : TopicRuntimeState
  events : List SendEvent := []

namespace Sender

/-- `recordDrop` where a message is not sent. -/
def drop (s : Sender) (event : SendEvent) : Sender :=
  { s with metrics := recordDrop s.metrics, events := s.events ++ [event] }

/-- `sendFreqControl`; `topic_factory.cpp:308–322`. The flag says that the message is dropped. -/
def sendFreqControl (s : Sender) (now : RosTime) : Bool × Sender :=
  let maxFreq := s.factory.topicCfg.maxFreq
  if (maxFreq - -1.0).abs < 2.220446049250313e-16 then (false, s)
  else
    let minimumInterval := 1.0 / max 0.001 maxFreq
    if !s.subLastTime.isZero && durationToSec (now.since s.subLastTime) < minimumInterval then
      (true, s.drop .limited)
    else (false, { s with subLastTime := now })

/-- `Publish` of a publisher and what is recorded; `topic_factory.cpp:215–231`. -/
def publish (s : Sender) (publisher : Publisher) (envelope : TransportEnvelope) (put : Bool)
    (now : RosTime) : Sender :=
  if (encodeEnvelope envelope (some []) (some [])).1 && put then
    { s with
      metrics := recordSend s.factory.topicCfg (UInt64.ofNat envelope.payload.length) now s.metrics
      events := s.events ++ [.published publisher.key envelope] }
  else s.drop (.publishFailed envelope.sequence publisher.key)

end Sender

/-- `RosTimeToNs`; `topic_factory.cpp:55–57`. -/
def rosTimeToNs (stamp : RosTime) : Int64 := if stamp.isZero then 0 else stamp.toNSec.toInt64

/-- `"drone" + std::to_string(id)`; `topic_factory.cpp:208`. -/
def droneHost (id : UInt8) : Bytes := ascii "drone" ++ ascii (toString id.toNat)

/-- Whether the message class of a type has a `to_drone_ids`. -/
def hasToDroneIds (msgs : List MessageType) (type : Bytes) : Bool :=
  ((msgs.find? fun m ↦ m.name = type).map MessageType.hasToDroneIds).getD false

/-- The envelope of a message with its payload; `topic_factory.cpp:142–157`. -/
def Callback.envelope (msgs : List MessageType) (topicCfg : TopicCfg) (sequence : UInt64)
    (c : Callback) (payload : Bytes) : TransportEnvelope :=
  match c.message.header with
  | some header =>
    buildEnvelope msgs topicCfg sequence (rosTimeToNs header.stamp) header.seq header.frameId
      payload
  | none => buildEnvelope msgs topicCfg sequence (rosTimeToNs c.stampNow) 0 [] payload

namespace Sender

/-- One round of the loop over `to_drone_ids`; `topic_factory.cpp:207–222`. -/
def publishDirected (envelope : TransportEnvelope) (c : Callback) (s : Sender)
    (id : UInt8 × Nat) : Sender :=
  match s.factory.dynamicSenders[droneHost id.1]? with
  | none => s.drop (.unconfigured envelope.sequence (droneHost id.1))
  | some publisher => s.publish publisher envelope (c.puts id.2) (c.sendNow id.2)

/-- `subCallback`; `topic_factory.cpp:136–232`. -/
def subCallback (msgs : List MessageType) (s : Sender) (c : Callback) : Sender :=
  match s.sendFreqControl c.now with
  | (true, s) => s
  | (false, s) =>
    let s := { s with sequence := s.sequence + 1 }
    match c.message.encoded with
    | none => s.drop (.encodeFailed s.sequence)
    | some payload =>
      let envelope := c.envelope msgs s.factory.topicCfg s.sequence payload
      if hasToDroneIds msgs s.factory.topicCfg.type then
        c.message.toDroneIds.zipIdx.foldl (publishDirected envelope c) s
      else
        match s.factory.sender with
        | some publisher => s.publish publisher envelope (c.puts 0) (c.sendNow 0)
        | none => s.drop (.publishFailed s.sequence [])

/-- A new sender. -/
def start (factory : TopicFactory) : Sender where
  factory := factory
  metrics := initialMetrics factory.topicCfg

/-- A sender after a list of callbacks. -/
def run (msgs : List MessageType) (s : Sender) (callbacks : List Callback) : Sender :=
  callbacks.foldl (subCallback msgs) s

end Sender

/-- The sequence number that an event has taken. -/
@[simp] def SendEvent.number : SendEvent → Option UInt64
  | limited => none
  | encodeFailed sequence => some sequence
  | unconfigured sequence _ => some sequence
  | publishFailed sequence _ => some sequence
  | published _ envelope => some envelope.sequence

/-- The key and the envelope of a publication. -/
@[simp] def SendEvent.publication : SendEvent → Option (Bytes × TransportEnvelope)
  | published key envelope => some (key, envelope)
  | limited | encodeFailed _ | unconfigured _ _ | publishFailed _ _ => none

/-- Whether the event is counted as a drop. -/
def SendEvent.isDrop : SendEvent → Bool
  | published _ _ => false
  | _ => true

/-- A publication is no drop. -/
@[simp] theorem SendEvent.isDrop_published (key : Bytes) (envelope : TransportEnvelope) :
    (published key envelope).isDrop = false := rfl

namespace Sender

/-- The sequence numbers that the events have taken. -/
def numbers (s : Sender) : List UInt64 := s.events.filterMap SendEvent.number

/-- The published envelopes with their keys. -/
def publications (s : Sender) : List (Bytes × TransportEnvelope) :=
  s.events.filterMap SendEvent.publication

/-- The counters are those of the recorded events. -/
structure Tallied (s : Sender) : Prop where
  sent : s.metrics.totalSent = UInt64.ofNat (s.events.countP fun event ↦ !event.isDrop)
  dropped : s.metrics.droppedMessages = UInt64.ofNat (s.events.countP SendEvent.isDrop)

variable {msgs : List MessageType} {s : Sender}

/-- A new sender has sent nothing. -/
theorem tallied_start (factory : TopicFactory) : (start factory).Tallied := ⟨rfl, rfl⟩

/-- A drop is counted. -/
theorem tallied_drop (h : s.Tallied) (event : SendEvent) (hdrop : event.isDrop = true) :
    (s.drop event).Tallied := by
  constructor
  · simp [drop, hdrop, h.sent]
  · simp [drop, hdrop, h.dropped, UInt64.ofNat_add]

/-- What `Publish` does: an envelope that fits the format is put and counted, or a drop is. -/
theorem publish_cases (s : Sender) (publisher : Publisher) (envelope : TransportEnvelope)
    (put : Bool) (now : RosTime) :
    (∃ metrics : TopicRuntimeState,
      metrics.toMessageCounts =
        { s.metrics.toMessageCounts with totalSent := s.metrics.totalSent + 1 } ∧
      s.publish publisher envelope put now =
        { s with metrics, events := s.events ++ [.published publisher.key envelope] }) ∨
      s.publish publisher envelope put now =
        s.drop (.publishFailed envelope.sequence publisher.key) := by
  unfold publish
  split
  · exact Or.inl ⟨_, counts_recordSend _ _ _ _, rfl⟩
  · exact Or.inr rfl

/-- A publish is counted as sent or dropped. -/
theorem tallied_publish (h : s.Tallied) (publisher : Publisher) (envelope : TransportEnvelope)
    (put : Bool) (now : RosTime) : (s.publish publisher envelope put now).Tallied := by
  rcases s.publish_cases publisher envelope put now with ⟨metrics, hcounts, hpublish⟩ | hpublish
  · have hsent : metrics.totalSent = s.metrics.totalSent + 1 :=
      congrArg MessageCounts.totalSent hcounts
    have hdropped : metrics.droppedMessages = s.metrics.droppedMessages := by
      rw [hcounts]
    rw [hpublish]
    constructor
    · simp [hsent, h.sent, UInt64.ofNat_add]
    · simp [hdropped, h.dropped]
  · rw [hpublish]
    exact tallied_drop h _ rfl

/-- What the rate limiter does: it keeps everything but its own time, or it drops the message. -/
theorem sendFreqControl_cases (s : Sender) (now : RosTime) :
    (∃ subLastTime, s.sendFreqControl now = (false, { s with subLastTime })) ∨
      s.sendFreqControl now = (true, s.drop .limited) := by
  unfold sendFreqControl
  dsimp only
  split
  · exact Or.inl ⟨s.subLastTime, rfl⟩
  · split
    · exact Or.inr rfl
    · exact Or.inl ⟨now, rfl⟩

/-- The first message passes at time zero, whatever the rate. -/
theorem sendFreqControl_zero {s : Sender} (h : s.subLastTime = {}) :
    s.sendFreqControl {} = (false, s) := by
  unfold Sender.sendFreqControl
  dsimp only
  split
  · rfl
  · rw [h]
    simp only [RosTime.isZero, decide_true, Bool.and_self, Bool.not_true, Bool.false_and,
      Bool.false_eq_true, if_false, ← h]

end Sender

end NetBridge.Topic
