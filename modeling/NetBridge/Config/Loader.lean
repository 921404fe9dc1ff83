import NetBridge.Bridge.XmlRpc
import NetBridge.Base.Overwrite

/-!
# The configuration of the user interface

`LoadTopicRules`, `src/swarm_ros_bridge/src/config/config_loader.cpp:10–103`, over `TopicRule`,
`include/config/bridge_config.hpp:11–31`: the topic list as the screens show it. All values are
constant here, so that a missing or mistyped text or flag throws.
-/

namespace NetBridge.Config

open NetBridge.Base NetBridge.Bridge

/-- `TopicRule`; `bridge_config.hpp:11–31`. -/
structure TopicRule where
  topicName : Bytes := []
  msgType : Bytes := []
  srcHosts : List Bytes := []
  dstHosts : List Bytes := []
  qosClass : Bytes := ascii "state"
  maxFreqHz : Float := 10.0
  hasPrefix : Bool := true
  samePrefix : Bool := false
  cloudCompress : Bool := false
  cloudDownsample : Float := -1.0
  imageResizeRate : Float := 1.0
  imageJpegQuality : Int32 := 80
  imageAdaptiveQuality : Bool := false
  imageMinJpegQuality : Int32 := 45
  imageMaxJpegQuality : Int32 := 90
  imageTargetBandwidthKbps : Float := 1200.0
  imageQualityStep : Int32 := 5
  imageAdaptCooldownFrames : Int32 := 8
  cloudCodec : Bytes := ascii "raw"

/-- `GetString`; `config_loader.cpp:10–12`. -/
def getString (value : XmlRpcValue) : Accepted Bytes := value.asConstString

/-- `GetDouble`; `config_loader.cpp:14–22`. -/
def getDouble (value : XmlRpcValue) (fallback : Float) : Float :=
  match value with
  | .int value => Float.ofInt value.toInt
  | .double value => value
  | _ => fallback

/-- `static_cast<bool>` of a constant value. -/
def asConstBool (value : XmlRpcValue) : Accepted Bool :=
  match value with
  | .boolean value => .ok value
  | _ => .error .xmlRpc

/-- `GetBoolMember`; `config_loader.cpp:24–31`. -/
def getBoolMember (topicXml : Members) (key : String) (fallback : Bool) : Accepted Bool :=
  if !topicXml.has key then pure fallback
  else asConstBool (topicXml.get key)

/-- `GetIntMember`; `config_loader.cpp:33–43`. -/
def getIntMember (topicXml : Members) (key : String) (fallback : Int32) : Int32 :=
  if !topicXml.has key then fallback
  else
    match topicXml.get key with
    | .int value => value
    | _ => fallback

/-- `LoadHosts` into an empty list; `config_loader.cpp:45–53`. -/
def loadHosts (list : XmlRpcValue) : Accepted (List Bytes) :=
  match list with
  | .array items => items.mapM getString
  | _ => pure []

/-- `rule.qos_class`; `config_loader.cpp:68–70`. -/
def loadQosClass (topicXml : Members) : Accepted Bytes :=
  if topicXml.has "qos_class" then getString (topicXml.get "qos_class") else pure (ascii "state")

/-- `rule.cloud_codec`; `config_loader.cpp:96–100`. -/
def loadCloudCodec (topicXml : Members) (cloudCompress : Bool) : Accepted Bytes :=
  if topicXml.has "cloudCodec" then getString (topicXml.get "cloudCodec")
  else if cloudCompress then pure (ascii "pcl_octree")
  else pure (ascii "raw")

/-- One entry of the topic list; `config_loader.cpp:62–101`. -/
def loadTopicRule (topicXml : XmlRpcValue) : Accepted TopicRule := do
  match topicXml with
  | .struct topicXml =>
    let topicXml : Members := topicXml
    let topicName ← getString (topicXml.get "topic_name")
    let msgType ← getString (topicXml.get "msg_type")
    let srcHosts ← loadHosts (topicXml.get "srcIP")
    let dstHosts ← loadHosts (topicXml.get "dstIP")
    let qosClass ← loadQosClass topicXml
    let hasPrefix ← getBoolMember topicXml "prefix" true
    let samePrefix ← getBoolMember topicXml "same_prefix" false
    let cloudCompress ← getBoolMember topicXml "cloudCompress" false
    let imageAdaptiveQuality ← getBoolMember topicXml "imgAdaptiveQuality" false
    let cloudCodec ← loadCloudCodec topicXml cloudCompress
    pure {
      topicName, msgType, srcHosts, dstHosts, qosClass
      maxFreqHz := getDouble (topicXml.get "max_freq") 10.0
      hasPrefix, samePrefix, cloudCompress
      cloudDownsample := if topicXml.has "cloudDownsample" then
        getDouble (topicXml.get "cloudDownsample") (-1.0) else -1.0
      imageResizeRate := if topicXml.has "imgResizeRate" then
        getDouble (topicXml.get "imgResizeRate") 1.0 else 1.0
      imageJpegQuality := getIntMember topicXml "imgJpegQuality" 80
      imageAdaptiveQuality
      imageMinJpegQuality := getIntMember topicXml "imgMinJpegQuality" 45
      imageMaxJpegQuality := getIntMember topicXml "imgMaxJpegQuality" 90
      imageTargetBandwidthKbps := if topicXml.has "imgTargetBandwidthKbps" then
        getDouble (topicXml.get "imgTargetBandwidthKbps") 1200.0 else 1200.0
      imageQualityStep := getIntMember topicXml "imgQualityStep" 5
      imageAdaptCooldownFrames := getIntMember topicXml "imgAdaptCooldownFrames" 8
      cloudCodec }
  | _ => .error .xmlRpc

/-- `LoadTopicRules` over the rules that the configuration has; `config_loader.cpp:55–103`. -/
def loadTopicRules (topics : XmlRpcValue) (configured : List TopicRule) :
    Accepted (List TopicRule) :=
  match topics with
  | .array entries => entries.mapM loadTopicRule
  | _ => pure configured

/-! ## What is loaded -/

/-- The two conversions to a number are the same. -/
theorem getDouble_eq_toDouble (value : XmlRpcValue) (fallback : Float) :
    getDouble value fallback = value.toDouble fallback := by
  cases value <;> rfl

/-- A missing member reads as an invalid value. -/
theorem get_of_not_has {topicXml : Members} {key : String} (h : topicXml.has key = false) :
    topicXml.get key = .invalid := by
  have hnone : topicXml.find? (fun m ↦ m.1 = ascii key) = none := by
    rw [List.find?_eq_none]
    exact List.any_eq_false.mp h
  rw [Members.get, hnone]
  rfl

/-- What a loaded rule has: the texts, lists and flags that could be read, and the numbers. -/
structure Loads (topicXml : Members) (rule : TopicRule) : Prop where
  topicName : topicXml.get "topic_name" = .string rule.topicName
  msgType : topicXml.get "msg_type" = .string rule.msgType
  srcHosts : loadHosts (topicXml.get "srcIP") = .ok rule.srcHosts
  dstHosts : loadHosts (topicXml.get "dstIP") = .ok rule.dstHosts
  qosClass : loadQosClass topicXml = .ok rule.qosClass
  hasPrefix : getBoolMember topicXml "prefix" true = .ok rule.hasPrefix
  samePrefix : getBoolMember topicXml "same_prefix" false = .ok rule.samePrefix
  cloudCompress : getBoolMember topicXml "cloudCompress" false = .ok rule.cloudCompress
  imageAdaptiveQuality :
    getBoolMember topicXml "imgAdaptiveQuality" false = .ok rule.imageAdaptiveQuality
  cloudCodec : loadCloudCodec topicXml rule.cloudCompress = .ok rule.cloudCodec
  maxFreqHz : rule.maxFreqHz = (topicXml.get "max_freq").toDouble 10.0
  cloudDownsample : rule.cloudDownsample = (topicXml.get "cloudDownsample").toDouble (-1.0)
  imageResizeRate : rule.imageResizeRate = (topicXml.get "imgResizeRate").toDouble 1.0
  imageJpegQuality : rule.imageJpegQuality = getIntMember topicXml "imgJpegQuality" 80
  imageMinJpegQuality : rule.imageMinJpegQuality = getIntMember topicXml "imgMinJpegQuality" 45
  imageMaxJpegQuality : rule.imageMaxJpegQuality = getIntMember topicXml "imgMaxJpegQuality" 90
  imageTargetBandwidthKbps :
    rule.imageTargetBandwidthKbps = (topicXml.get "imgTargetBandwidthKbps").toDouble 1200.0
  imageQualityStep : rule.imageQualityStep = getIntMember topicXml "imgQualityStep" 5
  imageAdaptCooldownFrames :
    rule.imageAdaptCooldownFrames = getIntMember topicXml "imgAdaptCooldownFrames" 8

/-- A text is read from a text alone. -/
theorem getString_eq_ok {value : XmlRpcValue} {text : Bytes} :
    getString value = .ok text ↔ value = .string text := by
  cases value with
  | string value =>
    constructor
    · intro h
      cases h
      rfl
    · intro h
      cases h
      rfl
  | _ =>
    constructor
    · intro h
      cases h
    · intro h
      cases h

/-- The hosts of a list are its texts. -/
theorem loadHosts_array {items : List XmlRpcValue} {hosts : List Bytes} :
    loadHosts (.array items) = .ok hosts ↔ items = hosts.map XmlRpcValue.string := by
  rw [loadHosts, mapM_eq_ok]
  simp only [getString_eq_ok]
  rw [← List.forall₂_eq_eq_eq, List.forall₂_map_right_iff]

private theorem double_of_has (topicXml : Members) (key : String) (fallback : Float) :
    (if topicXml.has key then getDouble (topicXml.get key) fallback else fallback) =
      (topicXml.get key).toDouble fallback := by
  split
  · exact getDouble_eq_toDouble ..
  · next h =>
    rw [get_of_not_has (Bool.eq_false_iff.mpr h)]
    rfl

/-- A loaded rule has this. -/
theorem loads_of_eq_ok {topicXml : Members} {rule : TopicRule}
    (h : loadTopicRule (.struct topicXml) = .ok rule) : Loads topicXml rule := by
  obtain ⟨topicName, hname, h⟩ := bind_eq_ok.mp h
  obtain ⟨msgType, htype, h⟩ := bind_eq_ok.mp h
  obtain ⟨srcHosts, hsrc, h⟩ := bind_eq_ok.mp h
  obtain ⟨dstHosts, hdst, h⟩ := bind_eq_ok.mp h
  obtain ⟨qosClass, hqos, h⟩ := bind_eq_ok.mp h
  obtain ⟨hasPrefix, hprefixed, h⟩ := bind_eq_ok.mp h
  obtain ⟨samePrefix, hsame, h⟩ := bind_eq_ok.mp h
  obtain ⟨cloudCompress, hcompress, h⟩ := bind_eq_ok.mp h
  obtain ⟨imageAdaptiveQuality, hadaptive, h⟩ := bind_eq_ok.mp h
  obtain ⟨cloudCodec, hcodec, h⟩ := bind_eq_ok.mp h
  cases h
  exact ⟨getString_eq_ok.mp hname, getString_eq_ok.mp htype, hsrc, hdst, hqos, hprefixed, hsame,
    hcompress, hadaptive, hcodec, getDouble_eq_toDouble .., double_of_has ..,
    double_of_has .., rfl, rfl, rfl, double_of_has .., rfl, rfl⟩

/-- The flags of an entry. -/
def flagMembers : List String := ["prefix", "same_prefix", "cloudCompress", "imgAdaptiveQuality"]

/-- The texts of an entry that may be missing. -/
def textMembers : List String := ["qos_class", "cloudCodec"]

/-- The texts, lists and flags of an entry are of their types where they are present. -/
structure Typed (topicXml : Members) : Prop where
  topicName : ∃ text, topicXml.get "topic_name" = .string text
  msgType : ∃ text, topicXml.get "msg_type" = .string text
  srcHosts : ∃ hosts, loadHosts (topicXml.get "srcIP") = .ok hosts
  dstHosts : ∃ hosts, loadHosts (topicXml.get "dstIP") = .ok hosts
  flags : ∀ key ∈ flagMembers, topicXml.has key = true →
    ∃ value, topicXml.get key = .boolean value
  texts : ∀ key ∈ textMembers, topicXml.has key = true →
    ∃ text, topicXml.get key = .string text

/-- A flag can be read exactly if it is missing or Boolean. -/
theorem exists_getBoolMember {topicXml : Members} {key : String} {fallback : Bool} :
    (∃ value, getBoolMember topicXml key fallback = .ok value) ↔
      (topicXml.has key = true → ∃ value, topicXml.get key = .boolean value) := by
  unfold getBoolMember
  cases topicXml.has key with
  | false => exact ⟨fun _ h ↦ absurd h Bool.false_ne_true, fun _ ↦ ⟨fallback, rfl⟩⟩
  | true =>
    rw [Bool.not_true, if_neg Bool.false_ne_true]
    constructor
    · rintro ⟨value, h⟩ -
      unfold asConstBool at h
      split at h
      · next b hb => exact ⟨b, hb⟩
      · cases h
    · intro h
      obtain ⟨value, hvalue⟩ := h rfl
      rw [hvalue]
      exact ⟨value, rfl⟩

/-- An entry is loaded exactly when its members are typed. -/
theorem exists_loadTopicRule {topicXml : Members} :
    (∃ rule, loadTopicRule (.struct topicXml) = .ok rule) ↔ Typed topicXml := by
  constructor
  · rintro ⟨rule, h⟩
    have hloads := loads_of_eq_ok h
    refine ⟨⟨_, hloads.topicName⟩, ⟨_, hloads.msgType⟩, ⟨_, hloads.srcHosts⟩, ⟨_, hloads.dstHosts⟩,
      ?_, ?_⟩
    · intro key hkey
      simp only [flagMembers, List.mem_cons, List.not_mem_nil, or_false] at hkey
      rcases hkey with rfl | rfl | rfl | rfl
      · exact exists_getBoolMember.mp ⟨_, hloads.hasPrefix⟩
      · exact exists_getBoolMember.mp ⟨_, hloads.samePrefix⟩
      · exact exists_getBoolMember.mp ⟨_, hloads.cloudCompress⟩
      · exact exists_getBoolMember.mp ⟨_, hloads.imageAdaptiveQuality⟩
    · intro key hkey hhas
      simp only [textMembers, List.mem_cons, List.not_mem_nil, or_false] at hkey
      rcases hkey with rfl | rfl
      · have hqos := hloads.qosClass
        rw [loadQosClass, if_pos hhas] at hqos
        exact ⟨_, getString_eq_ok.mp hqos⟩
      · have hcodec := hloads.cloudCodec
        rw [loadCloudCodec, if_pos hhas] at hcodec
        exact ⟨_, getString_eq_ok.mp hcodec⟩
  · intro h
    obtain ⟨topicName, hname⟩ := h.topicName
    obtain ⟨msgType, htype⟩ := h.msgType
    obtain ⟨srcHosts, hsrc⟩ := h.srcHosts
    obtain ⟨dstHosts, hdst⟩ := h.dstHosts
    have hflag : ∀ key ∈ flagMembers, ∀ fallback,
        ∃ value, getBoolMember topicXml key fallback = .ok value :=
      fun key hkey _ ↦ exists_getBoolMember.mpr (h.flags key hkey)
    obtain ⟨hasPrefix, hprefixed⟩ := hflag "prefix" (by decide) true
    obtain ⟨samePrefix, hsame⟩ := hflag "same_prefix" (by decide) false
    obtain ⟨cloudCompress, hcompress⟩ := hflag "cloudCompress" (by decide) false
    obtain ⟨adaptive, hadaptive⟩ := hflag "imgAdaptiveQuality" (by decide) false
    obtain ⟨qosClass, hqos⟩ : ∃ qosClass, loadQosClass topicXml = .ok qosClass := by
      unfold loadQosClass
      split
      · next hhas =>
        obtain ⟨text, htext⟩ := h.texts "qos_class" (by decide) hhas
        exact ⟨text, getString_eq_ok.mpr htext⟩
      · exact ⟨_, rfl⟩
    obtain ⟨codec, hcodec⟩ : ∃ codec, loadCloudCodec topicXml cloudCompress = .ok codec := by
      unfold loadCloudCodec
      split
      · next hhas =>
        obtain ⟨text, htext⟩ := h.texts "cloudCodec" (by decide) hhas
        exact ⟨text, getString_eq_ok.mpr htext⟩
      · split
        · exact ⟨_, rfl⟩
        · exact ⟨_, rfl⟩
    simp only [loadTopicRule, getString_eq_ok.mpr hname, getString_eq_ok.mpr htype, hsrc, hdst,
      hqos, hprefixed, hsame, hcompress, hadaptive, hcodec, bind, Except.bind]
    exact ⟨_, rfl⟩

end NetBridge.Config
