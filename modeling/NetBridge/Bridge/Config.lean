import NetBridge.Bridge.XmlRpc
import NetBridge.Topic.Factory

/-!
# Configuration

The part of `src/swarm_ros_bridge/src/bridge_factory.cpp` that reads the shared parameters:
the own host name (`135–150`), host selections (`152–179`), the host inventory (`182–211`) and
the topic list (`449–563`). The parameters of the Zenoh sessions enter through the flags that
say which dedicated sessions exist.
-/

namespace NetBridge.Bridge

open NetBridge.Base NetBridge.Transport NetBridge.Topic

/-- Ends the constructor with `std::invalid_argument`. -/
def invalidArgument {α : Type} (what : Bytes) : Accepted α := .error (.invalidArgument what)

/-- A test whose failure ends the constructor with `std::invalid_argument`. -/
def ensure (passed : Bool) (what : Bytes) : Accepted Unit :=
  if passed then pure () else invalidArgument what

/-- Ends the constructor with `std::runtime_error`. -/
def runtimeError {α : Type} (what : Bytes) : Accepted α := .error (.runtimeError what)

/-- `std::stoi`. -/
def readInt (s : Bytes) : Accepted Int :=
  match stoi s with
  | some value => .ok value
  | none => .error .stoi

/-! ## The own host -/

/-- `DRONE_ID_NULL`; `bridge_factory.hpp:17`. -/
def DRONE_ID_NULL : Int := -9999

/-- `my_hostname_` and `my_drone_id_`. -/
structure Identity where
  hostname : Bytes
  droneId : Int := DRONE_ID_NULL
deriving DecidableEq, Inhabited

/-- `std::atoi`: zero without digits; out of the range of `int` its behaviour is undefined, and
the low bits stand for what platforms return. -/
def atoi (s : Bytes) : Int :=
  let (negative, rest) := readSign (s.dropWhile isSpace)
  let magnitude : Nat := (rest.takeWhile isDigit).foldl (fun v d ↦ v * 10 + (d.toNat - 48)) 0
  Int.bmod (if negative then -(magnitude : Int) else magnitude) 4294967296

/-- `getMyHostName` over the parameter `hostname` and the variable `DRONE_ID`;
`bridge_factory.cpp:135–150`. -/
def getMyHostName (hostname droneId : Option Bytes) : Accepted Identity := do
  let me ← match hostname, droneId with
    | some hostname, _ =>
      if startsWith hostname (ascii "drone") then do
        let id ← readInt (hostname.drop 5)
        pure { hostname, droneId := id }
      else pure { hostname }
    | none, some droneId =>
      pure { hostname := ascii "drone" ++ intToString (atoi droneId), droneId := atoi droneId }
    | none, none => runtimeError (ascii "cannot find hostname parameter or DRONE_ID")
  if me.hostname = [] then runtimeError (ascii "hostname cannot be empty") else pure me

/-! ## Hosts -/

/-- `host_map_`: the hosts and their legacy addresses. -/
abbrev Inventory : Type := Std.ExtTreeMap Bytes Bytes

/-- The shared parameters: the host inventory as `hosts` or as legacy `IP`, the topic and service
lists, and which of the dedicated sessions are enabled. -/
structure Parameters where
  hosts : Option XmlRpcValue := none
  ip : Option XmlRpcValue := none
  topics : Option XmlRpcValue := none
  services : Option XmlRpcValue := none
  imageSession : Bool := false
  cloudSession : Bool := false
  serviceTimeoutMs : UInt64 := 1000
  debug : Bool := false

/-- A round over the `hosts` array. -/
def addHost (hostMap : Inventory) (host : XmlRpcValue) : Accepted Inventory := do
  let name ← host.asString
  pure (hostMap.insert name [])

/-- A round over the legacy `IP` struct. -/
def addAddress (hostMap : Inventory) (host : Bytes × XmlRpcValue) : Accepted Inventory :=
  if host.1 = ascii "all" ∨ host.1 = ascii "all_drone" then pure hostMap
  else do
    let address ← host.2.asString
    pure (hostMap.insert host.1 address)

/-- The host inventory; `bridge_factory.cpp:182–204`. -/
def hostInventory (params : Parameters) : Accepted Inventory :=
  match params.hosts, params.ip with
  | some (.array hosts), _ => hosts.foldlM addHost ∅
  | some _, _ => invalidArgument (ascii "hosts must be an array")
  | none, some (.struct addresses) => addresses.foldlM addAddress ∅
  | none, _ =>
    runtimeError (ascii "hosts is required (legacy IP map is also accepted)")

/-- `src_hostname_map_` and `dst_hostname_map_`: no host is selected;
`bridge_factory.cpp:208–211`. -/
def unselected (hostMap : Inventory) : HostMap := hostMap.map fun _ _ ↦ false

/-- One selector; `bridge_factory.cpp:160–177`. -/
def selectHost (output : HostMap) (selection : XmlRpcValue) : Accepted HostMap := do
  let selected ← selection.asConstString
  if selected = ascii "all" then pure (output.map fun _ _ ↦ true)
  else if selected = ascii "all_drone" then
    pure (output.map fun host value ↦ if startsWith host (ascii "drone") then true else value)
  else if selected ∈ output then pure (output.insert selected true)
  else invalidArgument (ascii "unknown host in route: " ++ selected)

/-- `expandHostSelection`; `bridge_factory.cpp:152–179`. -/
def expandHostSelection (selection : XmlRpcValue) (output : HostMap) : Accepted HostMap :=
  match selection with
  | .array items => items.foldlM selectHost output
  | _ => invalidArgument (ascii "srcIP/dstIP/clientIp must be an array")

/-! ## Topics -/

/-- `ParseQosClass`; `bridge_transport.cpp:217–233`. -/
def parseQosClass (value : Bytes) : Option QosClass :=
  if value = ascii "command" then some .command
  else if value = ascii "state" then some .state
  else if value = ascii "bulk" then some .bulk
  else if value = ascii "service" then some .service
  else none

/-- The settings of image topics; `bridge_factory.cpp:497–532`. -/
def imageSettings (topicXml : Members) (topic : TopicCfg) : TopicCfg :=
  let imgResizeRate := if topicXml.has "imgResizeRate" then
    (topicXml.get "imgResizeRate").toDouble topic.imgResizeRate else topic.imgResizeRate
  let imgJpegQuality := if topicXml.has "imgJpegQuality" then
    max 10 (min 100 ((topicXml.get "imgJpegQuality").toInt 80)) else topic.imgJpegQuality
  let imgAdaptiveQuality := if topicXml.has "imgAdaptiveQuality" then
    (topicXml.get "imgAdaptiveQuality").toBool false else topic.imgAdaptiveQuality
  let imgMinJpegQuality := if topicXml.has "imgMinJpegQuality" then
    (topicXml.get "imgMinJpegQuality").toInt 45 else topic.imgMinJpegQuality
  let imgMaxJpegQuality := if topicXml.has "imgMaxJpegQuality" then
    (topicXml.get "imgMaxJpegQuality").toInt 90 else topic.imgMaxJpegQuality
  let imgTargetBandwidthKbps := if topicXml.has "imgTargetBandwidthKbps" then
    (topicXml.get "imgTargetBandwidthKbps").toDouble 1200.0 else topic.imgTargetBandwidthKbps
  let imgQualityStep := if topicXml.has "imgQualityStep" then
    max 1 ((topicXml.get "imgQualityStep").toInt 5) else topic.imgQualityStep
  let imgAdaptCooldownFrames := if topicXml.has "imgAdaptCooldownFrames" then
    max 1 ((topicXml.get "imgAdaptCooldownFrames").toInt 8) else topic.imgAdaptCooldownFrames
  let imgMinJpegQuality := max 10 (min 100 imgMinJpegQuality)
  let imgMaxJpegQuality := max imgMinJpegQuality (min 100 imgMaxJpegQuality)
  { topic with
    imgResizeRate, imgJpegQuality, imgAdaptiveQuality, imgMinJpegQuality, imgMaxJpegQuality,
    imgTargetBandwidthKbps, imgQualityStep, imgAdaptCooldownFrames }

/-- The settings of point cloud topics; `bridge_factory.cpp:533–551`. -/
def cloudSettings (topicXml : Members) (topic : TopicCfg) : Accepted TopicCfg := do
  let cloudCompress := if topicXml.has "cloudCompress" then
    (topicXml.get "cloudCompress").toBool false else topic.cloudCompress
  let cloudDownsample := if topicXml.has "cloudDownsample" then
      let value := (topicXml.get "cloudDownsample").toDouble (-1.0)
      if value < 1e-4 ∨ value > 1e4 then -1.0 else value
    else topic.cloudDownsample
  let cloudCodec := if topicXml.has "cloudCodec" then
      (topicXml.get "cloudCodec").toString (ascii "raw")
    else if cloudCompress then ascii "pcl_octree" else ascii "raw"
  ensure (!cloudCompress || cloudCodec = ascii "draco" || cloudCodec = ascii "pcl_octree")
    (ascii "cloudCodec must be draco or pcl_octree")
  pure { topic with cloudCompress, cloudDownsample, cloudCodec }

/-- `qos_class_` of a topic; `bridge_factory.cpp:466–475`. -/
def topicQosClass (topicXml : Members) (topicName : Bytes) : Accepted QosClass := do
  ensure (topicXml.has "qos_class") (ascii "qos_class is required for topic " ++ topicName)
  let qosName ← (topicXml.get "qos_class").asString
  match parseQosClass qosName with
  | some .command => pure .command
  | some .state => pure .state
  | some .bulk => pure .bulk
  | _ =>
    invalidArgument (ascii "invalid topic qos_class for " ++ topicName ++ ascii ": " ++ qosName)

/-- The settings that depend on the type; `bridge_factory.cpp:497–551`. -/
def typedSettings (topicXml : Members) (topic : TopicCfg) : Accepted TopicCfg :=
  if topic.type = imageType then pure (imageSettings topicXml topic)
  else if topic.type = pointCloudType then cloudSettings topicXml topic
  else pure topic

/-- The rule in an entry of the topic list, which is the same on every host;
`bridge_factory.cpp:456–560`. -/
def topicRule (msgs : List MessageType) (hostMap : Inventory) (entry : XmlRpcValue) :
    Accepted TopicCfg := do
  match entry with
  | .struct topicXml =>
    let topicXml : Members := topicXml
    let topicName ← (topicXml.get "topic_name").asString
    let topicType ← (topicXml.get "msg_type").asString
    ensure (topicName.head? = some slash)
      (ascii "topic_name must start with '/': " ++ topicName)
    let qosClass ← topicQosClass topicXml topicName
    let srcHostnameMap ← expandHostSelection (topicXml.get "srcIP") (unselected hostMap)
    let dstHostnameMap ← expandHostSelection (topicXml.get "dstIP") (unselected hostMap)
    let topic ← typedSettings topicXml {
      name := topicName, wireName := topicName, type := topicType, qosClass
      maxFreq := (topicXml.get "max_freq").toDouble 10.0
      hasPrefix := if topicXml.has "prefix" then (topicXml.get "prefix").toBool true else true
      samePrefix := if topicXml.has "same_prefix" then
        (topicXml.get "same_prefix").toBool false else false
      srcHostnameMap, dstHostnameMap }
    pure { topic with dynamicDst := msgs.any fun m ↦ m.hasToDroneIds && m.name = topic.type }
  | _ => invalidArgument (ascii "each topic entry must be a struct")

/-- The rules of the topic list; `bridge_factory.cpp:449–563`. -/
def topicRules (msgs : List MessageType) (params : Parameters) (hostMap : Inventory) :
    Accepted (List TopicCfg) :=
  match params.topics with
  | none => pure []
  | some (.array entries) => entries.mapM (topicRule msgs hostMap)
  | some _ => invalidArgument (ascii "topics must be an array")

/-- A rule with `my_hostname_`; `bridge_factory.cpp:478`. -/
def onHost (myHostname : Bytes) (rule : TopicCfg) : TopicCfg := { rule with myHostname }

/-- `topic_cfgs_`; `bridge_factory.cpp:561`. -/
def topicCfgs (msgs : List MessageType) (params : Parameters) (hostMap : Inventory)
    (myHostname : Bytes) : Accepted (List TopicCfg) := do
  let rules ← topicRules msgs params hostMap
  pure (rules.map (onHost myHostname))

/-! ## What is accepted -/

/-- A test that was passed. -/
theorem ensure_eq_ok {passed : Bool} {what : Bytes} {u : Unit} :
    ensure passed what = .ok u ↔ passed = true := by
  cases passed with
  | true => exact ⟨fun _ ↦ rfl, fun _ ↦ rfl⟩
  | false => exact ⟨fun h ↦ (by cases h), fun h ↦ (by cases h)⟩

private theorem mem_selectHost {output output' : HostMap} {selection : XmlRpcValue}
    (h : selectHost output selection = .ok output') (host : Bytes) :
    host ∈ output' ↔ host ∈ output := by
  obtain ⟨selected, _, h⟩ := bind_eq_ok.mp h
  split at h
  · cases h
    exact Std.ExtTreeMap.mem_map
  · split at h
    · cases h
      exact Std.ExtTreeMap.mem_map
    · split at h
      · next hs =>
        cases h
        rw [Std.ExtTreeMap.mem_insert, Std.LawfulEqCmp.compare_eq_iff_eq]
        constructor
        · intro hm
          cases hm with
          | inl he =>
            rw [← he]
            exact hs
          | inr hm => exact hm
        · exact Or.inr
      · cases h

/-- Selecting hosts keeps the hosts of the map. -/
theorem mem_expandHostSelection {selection : XmlRpcValue} {output output' : HostMap}
    (h : expandHostSelection selection output = .ok output') (host : Bytes) :
    host ∈ output' ↔ host ∈ output := by
  unfold expandHostSelection at h
  split at h
  · next items =>
    induction items generalizing output with
    | nil =>
      cases h
      exact Iff.rfl
    | cons item items ih =>
      rw [List.foldlM_cons] at h
      obtain ⟨mid, hr, h⟩ := bind_eq_ok.mp h
      rw [ih h, mem_selectHost hr]
  · cases h

/-- What an accepted rule has: a global name, which is also that on the wire, a value for every
host, and the dynamic flag of its type. -/
structure RuleOf (msgs : List MessageType) (hostMap : Inventory) (rule : TopicCfg) : Prop where
  isGlobal : rule.name.head? = some slash
  wireName : rule.wireName = rule.name
  src : ∀ host, host ∈ rule.srcHostnameMap ↔ host ∈ hostMap
  dst : ∀ host, host ∈ rule.dstHostnameMap ↔ host ∈ hostMap
  dynamicDst : rule.dynamicDst = msgs.any fun m ↦ m.hasToDroneIds && m.name = rule.type

/-- The settings that depend on the type leave names, type and hosts alone. -/
theorem typedSettings_eq_ok {topicXml : Members} {topic topic' : TopicCfg}
    (h : typedSettings topicXml topic = .ok topic') :
    topic'.name = topic.name ∧ topic'.wireName = topic.wireName ∧ topic'.type = topic.type ∧
      topic'.srcHostnameMap = topic.srcHostnameMap ∧
      topic'.dstHostnameMap = topic.dstHostnameMap := by
  unfold typedSettings at h
  split at h
  · cases h
    exact ⟨rfl, rfl, rfl, rfl, rfl⟩
  · split at h
    · obtain ⟨_, _, h⟩ := bind_eq_ok.mp h
      cases h
      exact ⟨rfl, rfl, rfl, rfl, rfl⟩
    · cases h
      exact ⟨rfl, rfl, rfl, rfl, rfl⟩

/-- An accepted entry makes such a rule. -/
theorem topicRule_eq_ok {msgs : List MessageType} {hostMap : Inventory} {entry : XmlRpcValue}
    {rule : TopicCfg} (h : topicRule msgs hostMap entry = .ok rule) :
    RuleOf msgs hostMap rule := by
  unfold topicRule at h
  split at h
  · obtain ⟨topicName, _, h⟩ := bind_eq_ok.mp h
    obtain ⟨topicType, _, h⟩ := bind_eq_ok.mp h
    obtain ⟨_, hglobal, h⟩ := bind_eq_ok.mp h
    obtain ⟨qosClass, _, h⟩ := bind_eq_ok.mp h
    obtain ⟨src, hsrc, h⟩ := bind_eq_ok.mp h
    obtain ⟨dst, hdst, h⟩ := bind_eq_ok.mp h
    obtain ⟨topic, htyped, h⟩ := bind_eq_ok.mp h
    obtain ⟨hname, hwire, htype, hs, hd⟩ := typedSettings_eq_ok htyped
    cases h
    have hmem : ∀ {m : HostMap} {selection : XmlRpcValue},
        expandHostSelection selection (unselected hostMap) = .ok m →
        ∀ host, host ∈ m ↔ host ∈ hostMap := fun hm host ↦
      (mem_expandHostSelection hm host).trans Std.ExtTreeMap.mem_map
    refine ⟨?_, hwire.trans hname.symm, ?_, ?_, rfl⟩
    · dsimp only
      rw [hname]
      exact of_decide_eq_true (ensure_eq_ok.mp hglobal)
    · dsimp only
      rw [hs]
      exact hmem hsrc
    · dsimp only
      rw [hd]
      exact hmem hdst
  · cases h

/-- Accepted rules come from their entries. -/
theorem topicRules_eq_ok {msgs : List MessageType} {params : Parameters} {hostMap : Inventory}
    {rules : List TopicCfg} (h : topicRules msgs params hostMap = .ok rules) :
    ∀ rule ∈ rules, RuleOf msgs hostMap rule := by
  intro rule hr
  unfold topicRules at h
  split at h
  · cases h
    exact absurd hr List.not_mem_nil
  · obtain ⟨entry, _, he⟩ := exists_of_mem_mapM h hr
    exact topicRule_eq_ok he
  · cases h

end NetBridge.Bridge
