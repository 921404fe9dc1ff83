import NetBridge.Base.Overwrite
import NetBridge.Transport.Keys
import NetBridge.Transport.Qos

/-!
# Topic factories

`TopicCfg` (`src/swarm_ros_bridge/include/topic_factory.h:28–58`), the construction of a
`TopicFactory` (`src/topic_factory.cpp:61–134`), the envelopes its sending side builds and the
checks its receiving side makes. ROS and Zenoh are a parameter that says which of their calls
return; the registered message types of `MSGS_MACRO` are a parameter too.
-/

namespace NetBridge.Topic

open NetBridge.Base NetBridge.Transport

/-- An entry of `MSGS_MACRO`: the type name, its `MD5Sum`, and whether the message class has a
`to_drone_ids` of type `std::vector<uint8_t>`. -/
structure MessageType where
  name : Bytes
  md5 : Bytes
  hasToDroneIds : Bool := false

/-- `std::map<std::string, bool>` of selected hosts. -/
abbrev HostMap : Type := Std.ExtTreeMap Bytes Bool

/-- `TopicCfg`; `topic_factory.h:28–58`. The unparsed `src_hostnames_xml` and
`dst_hostnames_xml` are left out. -/
structure TopicCfg where
  name : Bytes := []
  rawName : Bytes := []
  wireName : Bytes := []
  type : Bytes := []
  srcHostname : Bytes := []
  myHostname : Bytes := []
  transportName : Bytes := ascii "zenoh"
  dstHostnameMap : HostMap := ∅
  srcHostnameMap : HostMap := ∅
  maxFreq : Float := 10.0
  imgResizeRate : Float := 1.0
  imgJpegQuality : Int32 := 80
  imgAdaptiveQuality : Bool := false
  imgMinJpegQuality : Int32 := 45
  imgMaxJpegQuality : Int32 := 90
  imgTargetBandwidthKbps : Float := 1200.0
  imgQualityStep : Int32 := 5
  imgAdaptCooldownFrames : Int32 := 8
  cloudCompress : Bool := false
  cloudDownsample : Float := -1
  cloudCodec : Bytes := ascii "raw"
  hasPrefix : Bool := true
  samePrefix : Bool := false
  dynamicDst : Bool := false
  qosClass : QosClass := .state

/-- The type name that `topic_factory.cpp` compares with `"sensor_msgs/Image"`. -/
def imageType : Bytes := ascii "sensor_msgs/Image"

/-- The type name that `topic_factory.cpp` compares with `"sensor_msgs/PointCloud2"`. -/
def pointCloudType : Bytes := ascii "sensor_msgs/PointCloud2"

/-- The Zenoh sessions of a bridge. -/
inductive Session where
  | control
  | image
  | cloud
deriving DecidableEq

/-- A `TransportPublisher`. -/
structure Publisher where
  session : Session
  key : Bytes
  qosClass : QosClass
deriving DecidableEq

/-- Which calls of ROS and Zenoh return; the others throw. -/
structure Platform where
  /-- `NodeHandle::resolveName`. -/
  resolveName : Bytes → Option Bytes
  /-- `DeclarePublisher`. -/
  declares : Session → Bytes → QosClass → Bool
  /-- `NodeHandle::subscribe` of a topic with a type. -/
  subscribes : Bytes → Bytes → Bool
  /-- `NodeHandle::advertise` of a topic with a type. -/
  advertises : Bytes → Bytes → Bool

/-- `TopicFactory::SEND_OR_RECV`. -/
inductive SendOrRecv where
  | send
  | recv
deriving DecidableEq

/-- A constructed `TopicFactory`: its configuration, its session, its publishers and the ROS
topic of its subscriber (`sub_`) or publisher (`pub_`). -/
structure TopicFactory where
  topicCfg : TopicCfg
  sendOrRecv : SendOrRecv
  transport : Session
  sender : Option Publisher := none
  dynamicSenders : Std.ExtTreeMap Bytes Publisher := ∅
  sub : Option Bytes := none
  pub : Option Bytes := none

/-- Why a constructor throws: an unregistered type, or a call of ROS or Zenoh. -/
inductive Failure where
  | invalidMessageType (type : Bytes)
  | platform
deriving DecidableEq

section

variable (msgs : List MessageType) (platform : Platform)

/-- `RosTypeMd5`; `topic_factory.cpp:23–31`. -/
def rosTypeMd5 (msgType : Bytes) : Bytes :=
  ((msgs.find? fun m ↦ m.name = msgType).map MessageType.md5).getD []

/-- `DeclarePublisher`. -/
def declarePublisher (session : Session) (key : Bytes) (qosClass : QosClass) :
    Except Failure Publisher :=
  if platform.declares session key qosClass then .ok ⟨session, key, qosClass⟩
  else .error .platform

/-- `topicSubscriber`; `topic_factory.cpp:123–134`. -/
def topicSubscriber (topicName msgType : Bytes) : Except Failure Bytes :=
  if msgs.any fun m ↦ m.name = msgType then
    if platform.subscribes topicName msgType then .ok topicName else .error .platform
  else .error (.invalidMessageType msgType)

/-- `topicPublisher`; `topic_factory.cpp:324–335`. -/
def topicPublisher (topicName msgType : Bytes) : Except Failure Bytes :=
  if msgs.any fun m ↦ m.name = msgType then
    if platform.advertises topicName msgType then .ok topicName else .error .platform
  else .error (.invalidMessageType msgType)

/-- A directed publisher for each selected destination but the own host;
`topic_factory.cpp:101–109`. -/
def declareDirected (topicCfg : TopicCfg) (transport : Session) :
    Except Failure (Std.ExtTreeMap Bytes Publisher) :=
  topicCfg.dstHostnameMap.toList.foldlM (fun dynamicSenders destination ↦
    if !destination.2 || destination.1 = topicCfg.myHostname then pure dynamicSenders
    else do
      let publisher ← declarePublisher platform transport
        (topicDirectedKey topicCfg.srcHostname destination.1 topicCfg.wireName) topicCfg.qosClass
      pure (dynamicSenders.insert destination.1 publisher)) ∅

/-- `sender_` and `dynamic_senders_`; `topic_factory.cpp:94–113`. -/
def declareSenders (topicCfg : TopicCfg) (transport : Session) :
    Except Failure (Option Publisher × Std.ExtTreeMap Bytes Publisher) :=
  if !topicCfg.dynamicDst then do
    let publisher ← declarePublisher platform transport
      (topicFanoutKey topicCfg.srcHostname topicCfg.wireName) topicCfg.qosClass
    pure (some publisher, ∅)
  else do
    let dynamicSenders ← declareDirected platform topicCfg transport
    pure (none, dynamicSenders)

/-- The constructor of a sending factory; `topic_factory.cpp:93–115`. -/
def makeSender (topicCfg : TopicCfg) (transport : Session) : Except Failure TopicFactory := do
  let (sender, dynamicSenders) ← declareSenders platform topicCfg transport
  let sub ← topicSubscriber msgs platform topicCfg.name topicCfg.type
  pure { topicCfg, sendOrRecv := .send, transport, sender, dynamicSenders, sub := some sub }

/-- The constructor of a receiving factory; `topic_factory.cpp:116–118`. -/
def makeReceiver (topicCfg : TopicCfg) (transport : Session) : Except Failure TopicFactory := do
  let pub ← topicPublisher msgs platform topicCfg.name topicCfg.type
  pure { topicCfg, sendOrRecv := .recv, transport, pub := some pub }

/-- The key expression that `createThread` subscribes to; `topic_factory.cpp:663–667`. -/
def TopicFactory.subscribeKey (factory : TopicFactory) : Bytes :=
  let topicCfg := factory.topicCfg
  if topicCfg.dynamicDst then
    topicDirectedKey (ascii "*") topicCfg.myHostname topicCfg.wireName
  else topicFanoutKey topicCfg.srcHostname topicCfg.wireName

/-- The payload kind that `subCallback` sets; `topic_factory.cpp:144,166–197`. The message class
is the one registered for the type. -/
def builtPayloadKind (topicCfg : TopicCfg) : PayloadKind :=
  if topicCfg.type = imageType then .jpeg
  else if topicCfg.type = pointCloudType then
    if topicCfg.cloudCompress then .pointCloudCompressed else .rosSerialized
  else .rosSerialized

/-- The envelope that `subCallback` builds for a message; `topic_factory.cpp:142–198`. Its
sequence, times, frame and payload come from the message and the counters. -/
def buildEnvelope (topicCfg : TopicCfg) (sequence : UInt64) (sourceTimeNs : Int64)
    (sourceHeaderSequence : UInt32) (frameId payload : Bytes) : TransportEnvelope where
  payloadKind := builtPayloadKind topicCfg
  sequence := sequence
  sourceTimeNs := sourceTimeNs
  sourceHeaderSequence := sourceHeaderSequence
  sourceHost := topicCfg.myHostname
  rosType := topicCfg.type
  rosMd5 := rosTypeMd5 msgs topicCfg.type
  frameId := frameId
  payload := payload

/-- The payload kind that `enqueueEnvelope` expects; `topic_factory.cpp:435–441`. -/
def expectedPayloadKind (topicCfg : TopicCfg) : PayloadKind :=
  if topicCfg.type = imageType then .jpeg
  else if topicCfg.type = pointCloudType ∧ topicCfg.cloudCompress = true then
    .pointCloudCompressed
  else .rosSerialized

/-- The checks of `enqueueEnvelope`; `topic_factory.cpp:442–466`. -/
def admits (topicCfg : TopicCfg) (envelope : TransportEnvelope) : Bool :=
  envelope.payloadKind = expectedPayloadKind topicCfg &&
    (validateEnvelopeMetadata envelope topicCfg.type (rosTypeMd5 msgs topicCfg.type)
      (some [])).1 &&
    (topicCfg.dynamicDst || envelope.sourceHost = topicCfg.srcHostname) &&
    topicCfg.srcHostnameMap[envelope.sourceHost]? = some true

end

/-! ## What the constructors make -/

/-- Sender and receiver of one configuration agree about the payload kind. -/
theorem builtPayloadKind_eq (topicCfg : TopicCfg) :
    builtPayloadKind topicCfg = expectedPayloadKind topicCfg := by
  unfold builtPayloadKind expectedPayloadKind
  by_cases hi : topicCfg.type = imageType
  · rw [if_pos hi, if_pos hi]
  · rw [if_neg hi, if_neg hi]
    by_cases hp : topicCfg.type = pointCloudType
    · rw [if_pos hp]
      cases topicCfg.cloudCompress with
      | true => rw [if_pos rfl, if_pos ⟨hp, rfl⟩]
      | false => rw [if_neg Bool.false_ne_true, if_neg fun h ↦ Bool.false_ne_true h.2]
    · rw [if_neg hp, if_neg fun h ↦ hp h.1]

/-- What `enqueueEnvelope` has checked. -/
structure Admitted (msgs : List MessageType) (topicCfg : TopicCfg)
    (envelope : TransportEnvelope) : Prop where
  payloadKind : envelope.payloadKind = expectedPayloadKind topicCfg
  protocolVersion : envelope.protocolVersion = kBridgeProtocolVersion
  rosType : envelope.rosType = topicCfg.type
  rosMd5 : envelope.rosMd5 = rosTypeMd5 msgs topicCfg.type
  source : topicCfg.dynamicDst = true ∨ envelope.sourceHost = topicCfg.srcHostname
  selected : topicCfg.srcHostnameMap[envelope.sourceHost]? = some true

/-- The checks pass exactly on such envelopes. -/
theorem admits_iff_admitted (msgs : List MessageType) (topicCfg : TopicCfg)
    (envelope : TransportEnvelope) :
    admits msgs topicCfg envelope = true ↔ Admitted msgs topicCfg envelope := by
  simp only [admits, Bool.and_eq_true, Bool.or_eq_true, decide_eq_true_eq,
    validateEnvelopeMetadata_iff]
  constructor
  · rintro ⟨⟨⟨hkind, hversion, htype, hmd5⟩, hsource⟩, hselected⟩
    exact ⟨hkind, hversion, htype, hmd5, hsource, hselected⟩
  · intro h
    exact ⟨⟨⟨h.payloadKind, h.protocolVersion, h.rosType, h.rosMd5⟩, h.source⟩, h.selected⟩

private theorem declarePublisher_eq_ok {platform : Platform} {session : Session} {key : Bytes}
    {qosClass : QosClass} {publisher : Publisher}
    (h : declarePublisher platform session key qosClass = .ok publisher) :
    publisher = ⟨session, key, qosClass⟩ ∧ platform.declares session key qosClass = true := by
  unfold declarePublisher at h
  split at h
  · next hd =>
    cases h
    exact ⟨rfl, hd⟩
  · cases h

/-- The key on which a rule is published for a destination. -/
def publishKey (topicCfg : TopicCfg) (destination : Bytes) : Bytes :=
  if topicCfg.dynamicDst then
    topicDirectedKey topicCfg.srcHostname destination topicCfg.wireName
  else topicFanoutKey topicCfg.srcHostname topicCfg.wireName

/-- Zenoh has accepted the key for each other destination that the rule selects. -/
theorem declares_of_declareSenders {platform : Platform} {topicCfg : TopicCfg}
    {transport : Session} {senders : Option Publisher × Std.ExtTreeMap Bytes Publisher}
    (h : declareSenders platform topicCfg transport = .ok senders) {destination : Bytes}
    (hd : topicCfg.dstHostnameMap[destination]? = some true)
    (hne : destination ≠ topicCfg.myHostname) :
    platform.declares transport (publishKey topicCfg destination) topicCfg.qosClass = true := by
  unfold declareSenders at h
  unfold publishKey
  cases hdynamic : topicCfg.dynamicDst with
  | false =>
    rw [hdynamic] at h
    obtain ⟨publisher, hp, -⟩ := bind_eq_ok.mp h
    exact (declarePublisher_eq_ok hp).2
  | true =>
    rw [hdynamic] at h
    obtain ⟨directed, hdirected, -⟩ := bind_eq_ok.mp h
    have hm : (destination, true) ∈ topicCfg.dstHostnameMap.toList :=
      Std.ExtTreeMap.mem_toList_iff_getElem?_eq_some.mpr hd
    obtain ⟨before, after, hround⟩ := exists_round_of_mem hdirected hm
    rw [if_neg] at hround
    · obtain ⟨publisher, hp, -⟩ := bind_eq_ok.mp hround
      exact (declarePublisher_eq_ok hp).2
    · rw [Bool.not_true, Bool.false_or, decide_eq_true_eq]
      exact hne

/-- The publisher of a dynamic rule for a destination; `topic_factory.cpp:105–108`. -/
def directedPublisher (topicCfg : TopicCfg) (transport : Session) (destination : Bytes) :
    Publisher where
  session := transport
  key := topicDirectedKey topicCfg.srcHostname destination topicCfg.wireName
  qosClass := topicCfg.qosClass

/-- What a destination puts into `dynamic_senders_`. -/
private def directedEntry (platform : Platform) (topicCfg : TopicCfg) (transport : Session)
    (destination : Bytes × Bool) : Except Failure (Option (Bytes × Publisher)) :=
  if !destination.2 || destination.1 = topicCfg.myHostname then pure none
  else do
    let publisher ← declarePublisher platform transport
      (topicDirectedKey topicCfg.srcHostname destination.1 topicCfg.wireName) topicCfg.qosClass
    pure (some (destination.1, publisher))

private theorem directedEntry_eq_ok {platform : Platform} {topicCfg : TopicCfg}
    {transport : Session} {destination : Bytes × Bool} {e : Option (Bytes × Publisher)}
    (h : directedEntry platform topicCfg transport destination = .ok e) :
    e = if destination.2 = true ∧ destination.1 ≠ topicCfg.myHostname then
      some (destination.1, directedPublisher topicCfg transport destination.1) else none := by
  unfold directedEntry at h
  split at h
  · next hskip =>
    cases h
    rw [if_neg]
    simpa [imp_iff_not_or] using hskip
  · next hskip =>
    rcases bind_eq_ok.mp h with ⟨publisher, hp, h⟩
    cases h
    rw [if_pos (by simpa using hskip), (declarePublisher_eq_ok hp).1]
    rfl

private theorem declareDirected_eq_foldlM (platform : Platform) (topicCfg : TopicCfg)
    (transport : Session) : declareDirected platform topicCfg transport =
      topicCfg.dstHostnameMap.toList.foldlM
        (assign (directedEntry platform topicCfg transport)) ∅ := by
  unfold declareDirected
  congr 1
  funext dynamicSenders destination
  unfold assign directedEntry
  split
  · rfl
  · simp only [bind_assoc, pure_bind]

/-- The directed publishers are those of the selected destinations but the own host. -/
theorem getElem?_declareDirected {platform : Platform} {topicCfg : TopicCfg} {transport : Session}
    {dynamicSenders : Std.ExtTreeMap Bytes Publisher}
    (h : declareDirected platform topicCfg transport = .ok dynamicSenders) (target : Bytes) :
    dynamicSenders[target]? =
      if topicCfg.dstHostnameMap[target]? = some true ∧ target ≠ topicCfg.myHostname then
        some (directedPublisher topicCfg transport target)
      else none := by
  have hmem : ∀ selected, (target, selected) ∈ topicCfg.dstHostnameMap.toList ↔
      topicCfg.dstHostnameMap[target]? = some selected :=
    fun _ ↦ Std.ExtTreeMap.mem_toList_iff_getElem?_eq_some
  rw [declareDirected_eq_foldlM] at h
  rw [getElem?_of_assigns h, Std.ExtTreeMap.getElem?_empty, Option.or_none]
  split
  · next hreach =>
    have hm := (hmem true).mpr hreach.1
    rcases entry_of_assigns h _ hm with ⟨e, he⟩
    rw [directedEntry_eq_ok he, if_pos ⟨rfl, hreach.2⟩] at he
    apply lastAssigned_of_mem hm he
    rintro ⟨host, selected⟩ _ publisher he
    have he := directedEntry_eq_ok he
    split at he
    · cases he
      rfl
    · cases he
  · next hreach =>
    apply lastAssigned_eq_none.mpr
    rintro ⟨host, selected⟩ hm publisher he
    have he := directedEntry_eq_ok he
    split at he
    · next hsel =>
      cases he
      dsimp only at hsel
      rw [hmem, hsel.1] at hm
      exact hreach ⟨hm, hsel.2⟩
    · cases he

/-- A sending factory keeps its configuration, session and topic, and a fixed-route one publishes
on the fan-out key of its source. -/
theorem makeSender_eq_ok {msgs : List MessageType} {platform : Platform} {topicCfg : TopicCfg}
    {transport : Session} {factory : TopicFactory}
    (h : makeSender msgs platform topicCfg transport = .ok factory) :
    factory.topicCfg = topicCfg ∧ factory.transport = transport ∧
      factory.sub = some topicCfg.name ∧ factory.sender =
        if topicCfg.dynamicDst then none
        else some ⟨transport, topicFanoutKey topicCfg.srcHostname topicCfg.wireName,
          topicCfg.qosClass⟩ := by
  obtain ⟨⟨sender, dynamicSenders⟩, hsenders, h⟩ := bind_eq_ok.mp h
  obtain ⟨sub, hsub, h⟩ := bind_eq_ok.mp h
  have hname : sub = topicCfg.name := by
    unfold topicSubscriber at hsub
    split at hsub
    · split at hsub
      · exact (Except.ok.inj hsub).symm
      · cases hsub
    · cases hsub
  cases h
  refine ⟨rfl, rfl, by rw [hname], ?_⟩
  unfold declareSenders at hsenders
  cases hd : topicCfg.dynamicDst with
  | false =>
    rw [hd] at hsenders
    obtain ⟨publisher, hp, hsenders⟩ := bind_eq_ok.mp hsenders
    cases hsenders
    rw [(declarePublisher_eq_ok hp).1]
    rfl
  | true =>
    rw [hd] at hsenders
    obtain ⟨_, _, hsenders⟩ := bind_eq_ok.mp hsenders
    cases hsenders
    rfl

/-- A sending factory sends. -/
theorem makeSender_sendOrRecv {msgs : List MessageType} {platform : Platform} {topicCfg : TopicCfg}
    {transport : Session} {factory : TopicFactory}
    (h : makeSender msgs platform topicCfg transport = .ok factory) :
    factory.sendOrRecv = .send := by
  obtain ⟨_, _, h⟩ := bind_eq_ok.mp h
  obtain ⟨_, _, h⟩ := bind_eq_ok.mp h
  cases h
  rfl

/-- The publishers of a dynamic sender. -/
theorem getElem?_dynamicSenders {msgs : List MessageType} {platform : Platform}
    {topicCfg : TopicCfg} {transport : Session} {factory : TopicFactory}
    (h : makeSender msgs platform topicCfg transport = .ok factory)
    (hdynamic : topicCfg.dynamicDst = true) (target : Bytes) :
    factory.dynamicSenders[target]? =
      if topicCfg.dstHostnameMap[target]? = some true ∧ target ≠ topicCfg.myHostname then
        some (directedPublisher topicCfg transport target)
      else none := by
  rcases bind_eq_ok.mp h with ⟨⟨sender, dynamicSenders⟩, hsenders, h⟩
  rcases bind_eq_ok.mp h with ⟨sub, _, h⟩
  cases h
  unfold declareSenders at hsenders
  rw [hdynamic] at hsenders
  rcases bind_eq_ok.mp hsenders with ⟨directed, hdirected, hsenders⟩
  cases hsenders
  exact getElem?_declareDirected hdirected target

/-- A receiving factory keeps its configuration and session. -/
theorem makeReceiver_eq_ok {msgs : List MessageType} {platform : Platform} {topicCfg : TopicCfg}
    {transport : Session} {factory : TopicFactory}
    (h : makeReceiver msgs platform topicCfg transport = .ok factory) :
    factory.topicCfg = topicCfg ∧ factory.transport = transport := by
  obtain ⟨pub, _, h⟩ := bind_eq_ok.mp h
  cases h
  exact ⟨rfl, rfl⟩

/-- A receiving factory receives. -/
theorem makeReceiver_sendOrRecv {msgs : List MessageType} {platform : Platform}
    {topicCfg : TopicCfg} {transport : Session} {factory : TopicFactory}
    (h : makeReceiver msgs platform topicCfg transport = .ok factory) :
    factory.sendOrRecv = .recv := by
  obtain ⟨_, _, h⟩ := bind_eq_ok.mp h
  cases h
  rfl

/-- A receiving factory has advertised its topic. -/
theorem makeReceiver_pub {msgs : List MessageType} {platform : Platform} {topicCfg : TopicCfg}
    {transport : Session} {factory : TopicFactory}
    (h : makeReceiver msgs platform topicCfg transport = .ok factory) :
    factory.pub = some topicCfg.name ∧
      platform.advertises topicCfg.name topicCfg.type = true := by
  rcases bind_eq_ok.mp h with ⟨pub, hpub, h⟩
  cases h
  unfold topicPublisher at hpub
  split at hpub
  · split at hpub
    · next hadvertised =>
      cases hpub
      exact ⟨rfl, hadvertised⟩
    · cases hpub
  · cases hpub

end NetBridge.Topic
