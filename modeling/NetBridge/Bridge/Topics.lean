import NetBridge.Bridge.Config

/-!
# Topic operators

`BridgeFactory::topicOperatorInit` and what it calls,
`src/swarm_ros_bridge/src/bridge_factory.cpp:66–76,565–650`: a sender for each rule whose source
is the own host, under its expanded topic name, and a receiver for each rule and source that
reach the own host.
-/

namespace NetBridge.Bridge

open NetBridge.Base NetBridge.Transport NetBridge.Topic

/-- `TopicTransportName`; `bridge_factory.cpp:66–76`. -/
def topicTransportName (imageSession cloudSession : Bool) (rosType : Bytes) : Bytes :=
  if imageSession ∧ rosType = imageType then ascii "zenoh-udp"
  else if cloudSession ∧ rosType = pointCloudType then ascii "zenoh-cloud-tcp"
  else if imageSession ∨ cloudSession then ascii "zenoh-tcp"
  else ascii "zenoh"

/-- `transportForTopic`; `bridge_factory.cpp:632–650`. The constructor has opened the control
session and every enabled one, so none of them is null. -/
def transportForTopic (params : Parameters) (rosType : Bytes) : Session :=
  if params.imageSession ∧ rosType = imageType then .image
  else if params.cloudSession ∧ rosType = pointCloudType then .cloud
  else .control

/-- `drone_prefix`; `bridge_factory.cpp:571,597`. -/
def dronePrefix : Bytes := ascii "/drone_\x7bid\x7d"

/-- The name with `drone_prefix` replaced; `bridge_factory.cpp:574–575,605–606`. -/
def expandId (name : Bytes) (droneId : Int) : Bytes :=
  ascii "/drone_" ++ intToString droneId ++ name.drop dronePrefix.length

/-- `nh_->resolveName(name)`. -/
def resolveName (platform : Platform) (name : Bytes) : Accepted Bytes :=
  match platform.resolveName name with
  | some rawName => .ok rawName
  | none => .error .platform

/-- `map.at(host)`. -/
def selectedAt (map : HostMap) (host : Bytes) : Accepted Bool :=
  match map[host]? with
  | some selected => .ok selected
  | none => .error .outOfRange

/-- The exceptions of a `TopicFactory` constructor. -/
def ofFactory (made : Except Failure TopicFactory) : Accepted TopicFactory :=
  match made with
  | .ok factory => .ok factory
  | .error (.invalidMessageType type) =>
    invalidArgument (ascii "Invalid ROS message type: " ++ type)
  | .error .platform => .error .platform

/-- A factory that was made. -/
theorem ofFactory_eq_ok {made : Except Failure TopicFactory} {factory : TopicFactory}
    (h : ofFactory made = .ok factory) : made = .ok factory := by
  unfold ofFactory at h
  split at h
  · cases h
    rfl
  · cases h
  · cases h

section

variable (platform : Platform) (msgs : List MessageType) (params : Parameters) (me : Identity)

/-- The topic that a rule sends on this host; `bridge_factory.cpp:571–576`. -/
def sendName (name : Bytes) : Bytes :=
  if startsWith name dronePrefix ∧ me.droneId ≠ DRONE_ID_NULL then expandId name me.droneId
  else name

/-- The configuration of a sender; `bridge_factory.cpp:567–580`. -/
def sendCfg (configured : TopicCfg) : Accepted TopicCfg := do
  let name := sendName me configured.name
  let rawName ← resolveName platform name
  pure { configured with
    name, rawName
    srcHostname := me.hostname
    transportName := topicTransportName params.imageSession params.cloudSession configured.type }

/-- What a rule puts into `send_topics_`; `bridge_factory.cpp:566–583`. -/
def sendEntry (configured : TopicCfg) : Accepted (Option (Bytes × TopicFactory)) :=
  if configured.srcHostnameMap[me.hostname]? = some true then do
    let topic ← sendCfg platform params me configured
    let factory ← ofFactory
      (makeSender msgs platform topic (transportForTopic params topic.type))
    pure (some (topic.name, factory))
  else pure none

/-- The drone identifier in a receiver's name; `bridge_factory.cpp:602–604`. -/
def sourceDroneId (configured : TopicCfg) (source : Bytes) : Accepted Int :=
  if configured.dynamicDst then pure me.droneId else readInt (source.drop 5)

/-- The name of a rule with the drone identifier of its source; `bridge_factory.cpp:597–607`. -/
def expandedName (configured : TopicCfg) (source : Bytes) : Accepted Bytes :=
  if startsWith configured.name dronePrefix then do
    ensure (startsWith source (ascii "drone"))
      (ascii "\x7bid\x7d topic source must be a drone host")
    let droneId ← sourceDroneId me configured source
    pure (expandId configured.name droneId)
  else pure configured.name

/-- The topic that a rule publishes for a source; `bridge_factory.cpp:609–613`. -/
def prefixedName (configured : TopicCfg) (source name : Bytes) : Bytes :=
  if configured.hasPrefix ∧ !configured.samePrefix then ascii "/" ++ source ++ name
  else if configured.samePrefix then ascii "/bridge" ++ name
  else name

/-- The configuration of a receiver; `bridge_factory.cpp:596–616`. -/
def recvCfg (configured : TopicCfg) (source : Bytes) : Accepted TopicCfg := do
  let name ← expandedName me configured source
  let rawName ← resolveName platform name
  pure { configured with
    name := prefixedName configured source name
    rawName
    srcHostname := source
    transportName := topicTransportName params.imageSession params.cloudSession configured.type }

/-- The receiver of a rule for a source under a free name; `bridge_factory.cpp:596–621`. -/
def addReceiver (configured : TopicCfg) (source : Bytes)
    (recvTopics : Std.ExtTreeMap Bytes TopicFactory) :
    Accepted (Std.ExtTreeMap Bytes TopicFactory) := do
  let topic ← recvCfg platform params me configured source
  ensure (topic.name ∉ recvTopics) (ascii "duplicate receive ROS topic: " ++ topic.name)
  let factory ← ofFactory
    (makeReceiver msgs platform topic (transportForTopic params topic.type))
  pure (recvTopics.insert topic.name factory)

/-- The loop over the sources of a rule; `bridge_factory.cpp:589–625`. A dynamic rule ends with
its first source. -/
def addReceivers (configured : TopicCfg) : List Bytes → Std.ExtTreeMap Bytes TopicFactory →
    Accepted (Std.ExtTreeMap Bytes TopicFactory)
  | [], recvTopics => pure recvTopics
  | source :: sources, recvTopics =>
    if source = me.hostname ∧ !params.debug then addReceivers configured sources recvTopics
    else do
      let selected ← selectedAt configured.srcHostnameMap source
      if !selected then addReceivers configured sources recvTopics
      else do
        let recvTopics ← addReceiver platform msgs params me configured source recvTopics
        if configured.dynamicDst then pure recvTopics
        else addReceivers configured sources recvTopics

/-- One round of the second loop; `bridge_factory.cpp:585–626`. -/
def recvRound (hosts : List Bytes) (recvTopics : Std.ExtTreeMap Bytes TopicFactory)
    (configured : TopicCfg) : Accepted (Std.ExtTreeMap Bytes TopicFactory) := do
  let selected ← selectedAt configured.dstHostnameMap me.hostname
  if !selected then pure recvTopics
  else addReceivers platform msgs params me configured hosts recvTopics

end

/-- A bridge after the constructor has handled its topics. -/
structure BridgeFactory where
  me : Identity
  hostMap : Inventory
  topicCfgs : List TopicCfg
  sendTopics : Std.ExtTreeMap Bytes TopicFactory
  recvTopics : Std.ExtTreeMap Bytes TopicFactory
deriving Inhabited

/-- The constructor of `BridgeFactory` up to `topicOperatorInit`; `bridge_factory.cpp:91–124`. -/
def constructBridge (platform : Platform) (msgs : List MessageType) (params : Parameters)
    (hostname droneId : Option Bytes) : Accepted BridgeFactory := do
  let me ← getMyHostName hostname droneId
  let hostMap ← hostInventory params
  ensure (me.hostname ∈ hostMap)
    (ascii "local hostname is missing from hosts/IP configuration")
  let topicCfgs ← topicCfgs msgs params hostMap me.hostname
  let sendTopics ← topicCfgs.foldlM (assign (sendEntry platform msgs params me)) ∅
  let recvTopics ← topicCfgs.foldlM (recvRound platform msgs params me hostMap.keys) ∅
  pure ⟨me, hostMap, topicCfgs, sendTopics, recvTopics⟩

/-- Zenoh has accepted the key of a rule that this host sends, for each other destination. -/
theorem declares_of_sendEntry {platform : Platform} {msgs : List MessageType}
    {params : Parameters} {me : Identity} {rule : TopicCfg}
    {e : Option (Bytes × TopicFactory)} (h : sendEntry platform msgs params me rule = .ok e)
    (hsrc : rule.srcHostnameMap[me.hostname]? = some true) {destination : Bytes}
    (hdst : rule.dstHostnameMap[destination]? = some true) (hne : destination ≠ rule.myHostname) :
    ∃ session, platform.declares session
      (publishKey { rule with srcHostname := me.hostname } destination) rule.qosClass = true := by
  rw [sendEntry, if_pos hsrc] at h
  obtain ⟨topic, hcfg, h⟩ := bind_eq_ok.mp h
  obtain ⟨rawName, _, hcfg⟩ := bind_eq_ok.mp hcfg
  obtain ⟨factory, hmade, _⟩ := bind_eq_ok.mp h
  cases hcfg
  obtain ⟨senders, hsenders, _⟩ := bind_eq_ok.mp (ofFactory_eq_ok hmade)
  exact ⟨_, declares_of_declareSenders hsenders hdst hne⟩

/-- What a constructed bridge holds. -/
theorem constructBridge_eq_ok {platform : Platform} {msgs : List MessageType}
    {params : Parameters} {hostname droneId : Option Bytes} {bridge : BridgeFactory}
    (h : constructBridge platform msgs params hostname droneId = .ok bridge) :
    hostInventory params = .ok bridge.hostMap ∧ ∃ rules,
      topicRules msgs params bridge.hostMap = .ok rules ∧
      bridge.topicCfgs = rules.map (onHost bridge.me.hostname) ∧
      bridge.topicCfgs.foldlM (assign (sendEntry platform msgs params bridge.me)) ∅ =
        .ok bridge.sendTopics ∧
      bridge.topicCfgs.foldlM (recvRound platform msgs params bridge.me bridge.hostMap.keys) ∅ =
        .ok bridge.recvTopics := by
  obtain ⟨me, _, h⟩ := bind_eq_ok.mp h
  obtain ⟨hostMap, hhosts, h⟩ := bind_eq_ok.mp h
  obtain ⟨_, _, h⟩ := bind_eq_ok.mp h
  obtain ⟨cfgs, hcfgs, h⟩ := bind_eq_ok.mp h
  obtain ⟨sendTopics, hsend, h⟩ := bind_eq_ok.mp h
  obtain ⟨recvTopics, hrecv, h⟩ := bind_eq_ok.mp h
  obtain ⟨rules, hrules, hcfgs⟩ := bind_eq_ok.mp hcfgs
  cases h
  cases hcfgs
  exact ⟨hhosts, rules, hrules, rfl, hsend, hrecv⟩

end NetBridge.Bridge
