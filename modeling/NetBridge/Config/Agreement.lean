import NetBridge.Bridge.ImageQuality
import NetBridge.Bridge.Sessions
import NetBridge.Config.Loader
import Mathlib.Data.List.Forall2

/-!
# The two readers of the topic list

`BridgeFactory::getHostTopicAndTransportConfig` decides what a bridge runs with, `LoadTopicRules`
what the screens show. The bridge replaces values of another type by its defaults and clamps
numbers; the loader throws at mistyped flags and texts and does not clamp.
-/

namespace NetBridge.Config

open NetBridge.Base NetBridge.Bridge NetBridge.Topic

/-! ## What the readers are compared by -/

/-- The settings of an image topic. -/
@[ext] structure ImageValues where
  resizeRate : Float
  jpegQuality : Int32
  adaptiveQuality : Bool
  minJpegQuality : Int32
  maxJpegQuality : Int32
  targetBandwidthKbps : Float
  qualityStep : Int32
  adaptCooldownFrames : Int32

/-- The settings of a point cloud topic. -/
@[ext] structure CloudValues where
  compress : Bool
  downsample : Float
  codec : Bytes

/-- The image settings that a bridge runs with. -/
def runningImage (topic : TopicCfg) : ImageValues :=
  ⟨topic.imgResizeRate, topic.imgJpegQuality, topic.imgAdaptiveQuality, topic.imgMinJpegQuality,
    topic.imgMaxJpegQuality, topic.imgTargetBandwidthKbps, topic.imgQualityStep,
    topic.imgAdaptCooldownFrames⟩

/-- The cloud settings that a bridge runs with. -/
def runningCloud (topic : TopicCfg) : CloudValues :=
  ⟨topic.cloudCompress, topic.cloudDownsample, topic.cloudCodec⟩

/-- The image settings that are loaded. -/
def TopicRule.image (rule : TopicRule) : ImageValues :=
  ⟨rule.imageResizeRate, rule.imageJpegQuality, rule.imageAdaptiveQuality,
    rule.imageMinJpegQuality, rule.imageMaxJpegQuality, rule.imageTargetBandwidthKbps,
    rule.imageQualityStep, rule.imageAdaptCooldownFrames⟩

/-- The cloud settings that are loaded. -/
def TopicRule.cloud (rule : TopicRule) : CloudValues :=
  ⟨rule.cloudCompress, rule.cloudDownsample, rule.cloudCodec⟩

/-- A loaded rule says what the bridge runs with. -/
structure Agrees (topic : TopicCfg) (rule : TopicRule) : Prop where
  maxFreq : rule.maxFreqHz = topic.maxFreq
  hasPrefix : rule.hasPrefix = topic.hasPrefix
  samePrefix : rule.samePrefix = topic.samePrefix
  cloud : topic.type = pointCloudType → rule.cloud = runningCloud topic
  image : topic.type = imageType → rule.image = runningImage topic

/-- The list is loaded, and each rule of it is related to the topic that a bridge has at its
place. -/
def LoadedAs (Rel : TopicCfg → TopicRule → Prop) (entries : List XmlRpcValue)
    (configured : List TopicRule) (topics : List TopicCfg) : Prop :=
  ∃ rules, loadTopicRules (.array entries) configured = .ok rules ∧ List.Forall₂ Rel topics rules

/-- The list is loaded, and each rule of it says what the bridge runs with. -/
def ReadersAgree : List XmlRpcValue → List TopicRule → List TopicCfg → Prop := LoadedAs Agrees

/-! ## The condition -/

/-- An integer within the bounds, or a fraction that is cut to the default, or no number. -/
def StaysWithin (low high fallback : Int32) : XmlRpcValue → Prop
  | .int value => low ≤ value ∧ value ≤ high
  | .double value => value.toInt32 = fallback
  | _ => True

/-- An integer from the bound on, or a fraction that is cut to the default, or no number. -/
def StaysAbove (low fallback : Int32) : XmlRpcValue → Prop
  | .int value => low ≤ value
  | .double value => value.toInt32 = fallback
  | _ => True

/-- The least quality of an entry: its integer, or 45. -/
def leastQuality : XmlRpcValue → Int32
  | .int value => value
  | _ => 45

/-- A greatest quality that fits to the least one: an integer from there to 100, a fraction that
the clamp takes to 90, or no number while the least quality is not above 90. -/
def StaysGreatest (least : Int32) : XmlRpcValue → Prop
  | .int value => least ≤ value ∧ value ≤ 100
  | .double value => (value.toInt32 = 90 ∧ least ≤ 90) ∨ (value.toInt32 ≤ 90 ∧ least = 90)
  | _ => least ≤ 90

/-- The numbers of an image entry are not clamped. -/
structure ImagePlain (topicXml : Members) : Prop where
  quality : StaysWithin 10 100 80 (topicXml.get "imgJpegQuality")
  least : StaysWithin 10 100 45 (topicXml.get "imgMinJpegQuality")
  greatest : StaysGreatest (leastQuality (topicXml.get "imgMinJpegQuality"))
    (topicXml.get "imgMaxJpegQuality")
  step : StaysAbove 1 5 (topicXml.get "imgQualityStep")
  cooldown : StaysAbove 1 8 (topicXml.get "imgAdaptCooldownFrames")

/-- The leaf size of a cloud entry is not clamped, or is already the one that switches the filter
off. -/
def CloudPlain (topicXml : Members) : Prop :=
  let value := (topicXml.get "cloudDownsample").toDouble (-1.0)
  ¬ (value < 1e-4 ∨ value > 1e4) ∨ value = -1.0

/-- An entry that both readers read alike: its type is given, its flags and texts are of their
types where they are present, and no number is clamped. -/
structure Plain (topicXml : Members) : Prop where
  msgType : ∃ text, topicXml.get "msg_type" = .string text
  flags : ∀ key ∈ flagMembers, topicXml.has key = true →
    ∃ value, topicXml.get key = .boolean value
  codec : topicXml.has "cloudCodec" = true → ∃ text, topicXml.get "cloudCodec" = .string text
  cloud : topicXml.get "msg_type" = .string pointCloudType → CloudPlain topicXml
  image : topicXml.get "msg_type" = .string imageType → ImagePlain topicXml

/-- `Plain` of an entry of the list. -/
def PlainEntry : XmlRpcValue → Prop
  | .struct topicXml => Plain topicXml
  | _ => False

/-! ## What the bridge reads -/

/-- What the rule of an accepted entry has, member by member. -/
structure RunsWith (topicXml : Members) (topic : TopicCfg) : Prop where
  topicName : topicXml.get "topic_name" = .string topic.name
  msgType : topicXml.get "msg_type" = .string topic.type ∨
    topicXml.get "msg_type" = .invalid ∧ topic.type = []
  qosClass : ∃ text, topicXml.get "qos_class" = .string text
  srcHosts : ∃ hosts, loadHosts (topicXml.get "srcIP") = .ok hosts
  dstHosts : ∃ hosts, loadHosts (topicXml.get "dstIP") = .ok hosts
  maxFreq : topic.maxFreq = (topicXml.get "max_freq").toDouble 10.0
  hasPrefix : topic.hasPrefix =
    if topicXml.has "prefix" then (topicXml.get "prefix").toBool true else true
  samePrefix : topic.samePrefix =
    if topicXml.has "same_prefix" then (topicXml.get "same_prefix").toBool false else false
  cloud : topic.type = pointCloudType → ∃ settings,
    cloudSettings topicXml {} = .ok settings ∧ runningCloud topic = runningCloud settings
  image : topic.type = imageType → runningImage topic = runningImage (imageSettings topicXml {})

private theorem asString_eq_ok {value : XmlRpcValue} {text : Bytes}
    (h : value.asString = .ok text) : value = .string text ∨ value = .invalid ∧ text = [] := by
  unfold XmlRpcValue.asString at h
  split at h
  · cases h
    exact Or.inl rfl
  · cases h
    exact Or.inr ⟨rfl, rfl⟩
  · cases h

/-- The loader reads the selectors that the bridge has expanded. -/
theorem exists_loadHosts {selection : XmlRpcValue} {output output' : HostMap}
    (h : expandHostSelection selection output = .ok output') :
    ∃ hosts, loadHosts selection = .ok hosts := by
  unfold expandHostSelection at h
  split at h
  · next items =>
    apply exists_mapM
    intro item hm
    obtain ⟨before, after, hround⟩ := exists_round_of_mem h hm
    obtain ⟨selected, hselected, -⟩ := bind_eq_ok.mp hround
    exact ⟨selected, hselected⟩
  · cases h

private theorem qosClass_text {topicXml : Members} {topicName : Bytes}
    {qosClass : Transport.QosClass} (h : topicQosClass topicXml topicName = .ok qosClass) :
    ∃ text, topicXml.get "qos_class" = .string text := by
  obtain ⟨_, -, h⟩ := bind_eq_ok.mp h
  obtain ⟨qosName, hname, h⟩ := bind_eq_ok.mp h
  rcases asString_eq_ok hname with htext | ⟨-, hnil⟩
  · exact ⟨qosName, htext⟩
  · rw [hnil] at h
    cases h

private theorem cloudSettings_default {topicXml : Members} {base topic : TopicCfg}
    (h : cloudSettings topicXml base = .ok topic)
    (hbase : runningCloud base = runningCloud {}) :
    ∃ settings, cloudSettings topicXml {} = .ok settings ∧
      runningCloud topic = runningCloud settings := by
  simp only [runningCloud, CloudValues.mk.injEq] at hbase
  obtain ⟨hcompress, hdownsample, -⟩ := hbase
  unfold cloudSettings at h ⊢
  rw [hcompress, hdownsample] at h
  obtain ⟨_, hvalid, h⟩ := bind_eq_ok.mp h
  cases h
  exact ⟨_, bind_eq_ok.mpr ⟨(), hvalid, rfl⟩, rfl⟩

/-- The rule of an accepted entry has this. -/
theorem runsWith_of_topicRule {msgs : List MessageType} {hostMap : Inventory}
    {topicXml : Members} {topic : TopicCfg}
    (h : topicRule msgs hostMap (.struct topicXml) = .ok topic) : RunsWith topicXml topic := by
  obtain ⟨topicName, hname, h⟩ := bind_eq_ok.mp h
  obtain ⟨topicType, htype, h⟩ := bind_eq_ok.mp h
  obtain ⟨_, hglobal, h⟩ := bind_eq_ok.mp h
  obtain ⟨qosClass, hqos, h⟩ := bind_eq_ok.mp h
  obtain ⟨src, hsrc, h⟩ := bind_eq_ok.mp h
  obtain ⟨dst, hdst, h⟩ := bind_eq_ok.mp h
  obtain ⟨typed, htyped, h⟩ := bind_eq_ok.mp h
  have hnameText : topicXml.get "topic_name" = .string topicName := by
    rcases asString_eq_ok hname with htext | ⟨-, hnil⟩
    · exact htext
    · rw [hnil] at hglobal
      cases hglobal
  by_cases himage : topicType = imageType
  · rw [typedSettings, if_pos himage] at htyped
    cases htyped
    cases h
    refine ⟨hnameText, asString_eq_ok htype, qosClass_text hqos, exists_loadHosts hsrc,
      exists_loadHosts hdst, rfl, rfl, rfl, ?_, fun _ ↦ rfl⟩
    intro hcloud
    have hboth : imageType = pointCloudType := himage.symm.trans hcloud
    exact absurd hboth (by decide)
  · rw [typedSettings, if_neg himage] at htyped
    by_cases hcloud : topicType = pointCloudType
    · rw [if_pos hcloud] at htyped
      have hsettings := cloudSettings_default htyped rfl
      obtain ⟨_, -, hvalue⟩ := bind_eq_ok.mp htyped
      cases hvalue
      cases h
      exact ⟨hnameText, asString_eq_ok htype, qosClass_text hqos, exists_loadHosts hsrc,
        exists_loadHosts hdst, rfl, rfl, rfl, fun _ ↦ hsettings, fun hi ↦ absurd hi himage⟩
    · rw [if_neg hcloud] at htyped
      cases htyped
      cases h
      exact ⟨hnameText, asString_eq_ok htype, qosClass_text hqos, exists_loadHosts hsrc,
        exists_loadHosts hdst, rfl, rfl, rfl, fun hc ↦ absurd hc hcloud,
        fun hi ↦ absurd hi himage⟩

/-! ## Value by value -/

/-- A flag that is loaded is the one that the bridge reads. -/
theorem flag_eq {topicXml : Members} {key : String} {fallback value : Bool}
    (h : getBoolMember topicXml key fallback = .ok value) :
    value = if topicXml.has key then (topicXml.get key).toBool fallback else fallback := by
  unfold getBoolMember at h
  split at h
  · next hno =>
    cases h
    rw [if_neg (by simpa using hno)]
  · next hhas =>
    unfold asConstBool at h
    split at h
    · next b hb =>
      cases h
      rw [if_pos (by simpa using hhas), hb]
      rfl
    · cases h

/-- A codec that is loaded is the one that the bridge reads. -/
theorem codec_eq {topicXml : Members} {compress : Bool} {codec : Bytes}
    (h : loadCloudCodec topicXml compress = .ok codec) :
    codec = if topicXml.has "cloudCodec" then (topicXml.get "cloudCodec").toString (ascii "raw")
      else if compress then ascii "pcl_octree" else ascii "raw" := by
  unfold loadCloudCodec at h
  split at h
  · next hhas =>
    rw [if_pos hhas]
    unfold getString XmlRpcValue.asConstString at h
    split at h
    · next text htext =>
      cases h
      rw [htext]
      rfl
    · cases h
  · next hno =>
    rw [if_neg hno]
    split at h
    · next hc =>
      cases h
      rw [if_pos hc]
    · next hc =>
      cases h
      rw [if_neg hc]

/-- A number that stands behind a test for its member. -/
theorem double_eq (topicXml : Members) (key : String) (fallback : Float) :
    (if topicXml.has key then (topicXml.get key).toDouble fallback else fallback) =
      (topicXml.get key).toDouble fallback := by
  split
  · rfl
  · next h =>
    rw [get_of_not_has (Bool.eq_false_iff.mpr h)]
    rfl

/-- A leaf size is loaded as it runs exactly when the bridge leaves it. -/
theorem downsample_agrees_iff (topicXml : Members) :
    (topicXml.get "cloudDownsample").toDouble (-1.0) =
      (if topicXml.has "cloudDownsample" then
        if (topicXml.get "cloudDownsample").toDouble (-1.0) < 1e-4 ∨
            (topicXml.get "cloudDownsample").toDouble (-1.0) > 1e4 then -1.0
        else (topicXml.get "cloudDownsample").toDouble (-1.0)
      else -1.0) ↔ CloudPlain topicXml := by
  unfold CloudPlain
  split
  · split
    · next hclamped =>
      exact ⟨Or.inr, fun h ↦ h.resolve_left fun hno ↦ hno hclamped⟩
    · next hkept => exact ⟨fun _ ↦ Or.inl hkept, fun _ ↦ rfl⟩
  · next hno =>
    rw [get_of_not_has (Bool.eq_false_iff.mpr hno)]
    exact ⟨Or.inr, fun _ ↦ rfl⟩

/-- The clouds are loaded as they run exactly when their leaf size is plain. -/
theorem cloud_agrees_iff {topicXml : Members} {rule : TopicRule} {settings : TopicCfg}
    (hloads : Loads topicXml rule) (hsettings : cloudSettings topicXml {} = .ok settings) :
    rule.cloud = runningCloud settings ↔ CloudPlain topicXml := by
  obtain ⟨_, -, h⟩ := bind_eq_ok.mp hsettings
  cases h
  have hcompress := flag_eq hloads.cloudCompress
  have hcodec := codec_eq hloads.cloudCodec
  rw [hcompress] at hcodec
  rw [← downsample_agrees_iff, ← hloads.cloudDownsample]
  constructor
  · intro h
    exact congrArg CloudValues.downsample h
  · intro h
    exact CloudValues.ext hcompress h hcodec

/-! ## Clamped numbers -/

/-- The integer of a member, or the default. -/
def loadedInt (value : XmlRpcValue) (fallback : Int32) : Int32 :=
  match value with
  | .int value => value
  | _ => fallback

private theorem getIntMember_eq (topicXml : Members) (key : String) (fallback : Int32) :
    getIntMember topicXml key fallback = loadedInt (topicXml.get key) fallback := by
  unfold getIntMember
  split
  · next hno =>
    rw [get_of_not_has (by simpa using hno)]
    rfl
  · rfl

private theorem int_eq (topicXml : Members) (key : String) (fallback : Int32) :
    (if topicXml.has key then (topicXml.get key).toInt fallback else fallback) =
      (topicXml.get key).toInt fallback := by
  split
  · rfl
  · next h =>
    rw [get_of_not_has (Bool.eq_false_iff.mpr h)]
    rfl

/-- A number with two bounds is loaded as it runs exactly when it stays within them. -/
theorem clamp_agrees_iff (low high fallback : Int32) (hlow : low < fallback)
    (hhigh : fallback < high) (value : XmlRpcValue) :
    loadedInt value fallback = max low (min high (value.toInt fallback)) ↔
      StaysWithin low high fallback value := by
  rw [Int32.lt_iff_toInt_lt] at hlow hhigh
  have hkept : fallback = max low (min high fallback) := by
    rw [← Int32.toInt_inj, toInt_max, toInt_min]
    omega
  cases value with
  | int value =>
    simp only [loadedInt, XmlRpcValue.toInt, StaysWithin, Int32.le_iff_toInt_le, ← Int32.toInt_inj,
      toInt_max, toInt_min]
    omega
  | double value =>
    simp only [loadedInt, XmlRpcValue.toInt, StaysWithin, ← Int32.toInt_inj, toInt_max, toInt_min]
    omega
  | _ => exact iff_of_true hkept trivial

/-- A number with a lower bound is loaded as it runs exactly when it stays above. -/
theorem bound_agrees_iff (low fallback : Int32) (hlow : low < fallback) (value : XmlRpcValue) :
    loadedInt value fallback = max low (value.toInt fallback) ↔ StaysAbove low fallback value := by
  rw [Int32.lt_iff_toInt_lt] at hlow
  have hkept : fallback = max low fallback := by
    rw [← Int32.toInt_inj, toInt_max]
    omega
  cases value with
  | int value =>
    simp only [loadedInt, XmlRpcValue.toInt, StaysAbove, Int32.le_iff_toInt_le, ← Int32.toInt_inj,
      toInt_max]
    omega
  | double value =>
    simp only [loadedInt, XmlRpcValue.toInt, StaysAbove, ← Int32.toInt_inj, toInt_max]
    omega
  | _ => exact iff_of_true hkept trivial

/-- The greatest quality is loaded as it runs, over a least one from 10 to 100, exactly when it
fits to it. -/
theorem greatest_agrees_iff {least : Int32} (hlow : 10 ≤ least) (hhigh : least ≤ 100)
    (value : XmlRpcValue) :
    loadedInt value 90 = max least (min 100 (value.toInt 90)) ↔ StaysGreatest least value := by
  have hten : (10 : Int32).toInt = 10 := rfl
  have hninety : (90 : Int32).toInt = 90 := rfl
  have hhundred : (100 : Int32).toInt = 100 := rfl
  rw [Int32.le_iff_toInt_le] at hlow hhigh
  cases value with
  | int value =>
    simp only [loadedInt, XmlRpcValue.toInt, StaysGreatest, Int32.le_iff_toInt_le,
      ← Int32.toInt_inj, toInt_max, toInt_min]
    omega
  | double value =>
    simp only [loadedInt, XmlRpcValue.toInt, StaysGreatest, Int32.le_iff_toInt_le,
      ← Int32.toInt_inj, toInt_max, toInt_min]
    omega
  | _ =>
    simp only [loadedInt, XmlRpcValue.toInt, StaysGreatest, Int32.le_iff_toInt_le,
      ← Int32.toInt_inj, toInt_max, toInt_min]
    omega

private theorem clamped_eq (clamp : Int32 → Int32) (topicXml : Members) (key : String)
    {fallback : Int32} (hkept : clamp fallback = fallback) :
    (if topicXml.has key then clamp ((topicXml.get key).toInt fallback) else fallback) =
      clamp ((topicXml.get key).toInt fallback) := by
  split
  · rfl
  · next h =>
    rw [get_of_not_has (Bool.eq_false_iff.mpr h)]
    exact hkept.symm

/-- What a bridge runs with for an image entry. -/
theorem runningImage_imageSettings (topicXml : Members) :
    runningImage (imageSettings topicXml {}) =
      { resizeRate := (topicXml.get "imgResizeRate").toDouble 1.0
        jpegQuality := max 10 (min 100 ((topicXml.get "imgJpegQuality").toInt 80))
        adaptiveQuality := if topicXml.has "imgAdaptiveQuality" then
          (topicXml.get "imgAdaptiveQuality").toBool false else false
        minJpegQuality := max 10 (min 100 ((topicXml.get "imgMinJpegQuality").toInt 45))
        maxJpegQuality := max (max 10 (min 100 ((topicXml.get "imgMinJpegQuality").toInt 45)))
          (min 100 ((topicXml.get "imgMaxJpegQuality").toInt 90))
        targetBandwidthKbps := (topicXml.get "imgTargetBandwidthKbps").toDouble 1200.0
        qualityStep := max 1 ((topicXml.get "imgQualityStep").toInt 5)
        adaptCooldownFrames := max 1 ((topicXml.get "imgAdaptCooldownFrames").toInt 8) } := by
  ext
  · exact double_eq ..
  · exact clamped_eq (fun value ↦ max 10 (min 100 value)) topicXml _ (by decide)
  · rfl
  · exact congrArg (fun value ↦ max 10 (min 100 value)) (int_eq topicXml _ 45)
  · have hmin := int_eq topicXml "imgMinJpegQuality" 45
    have hmax := int_eq topicXml "imgMaxJpegQuality" 90
    simp only [runningImage, imageSettings, hmin, hmax]
  · exact double_eq ..
  · exact clamped_eq (fun value ↦ max 1 value) topicXml _ (by decide)
  · exact clamped_eq (fun value ↦ max 1 value) topicXml _ (by decide)

/-- The images are loaded as they run exactly when their numbers are plain. -/
theorem image_agrees_iff {topicXml : Members} {rule : TopicRule} (hloads : Loads topicXml rule) :
    rule.image = runningImage (imageSettings topicXml {}) ↔ ImagePlain topicXml := by
  rw [runningImage_imageSettings]
  have hquality := clamp_agrees_iff 10 100 80 (by decide) (by decide)
    (topicXml.get "imgJpegQuality")
  have hleast := clamp_agrees_iff 10 100 45 (by decide) (by decide)
    (topicXml.get "imgMinJpegQuality")
  have hstep := bound_agrees_iff 1 5 (by decide) (topicXml.get "imgQualityStep")
  have hcooldown := bound_agrees_iff 1 8 (by decide)
    (topicXml.get "imgAdaptCooldownFrames")
  rw [← getIntMember_eq, ← hloads.imageJpegQuality] at hquality
  rw [← getIntMember_eq, ← hloads.imageMinJpegQuality] at hleast
  rw [← getIntMember_eq, ← hloads.imageQualityStep] at hstep
  rw [← getIntMember_eq, ← hloads.imageAdaptCooldownFrames] at hcooldown
  have hleastLoaded : leastQuality (topicXml.get "imgMinJpegQuality") =
      rule.imageMinJpegQuality := by
    rw [hloads.imageMinJpegQuality, getIntMember_eq]
    cases topicXml.get "imgMinJpegQuality" <;> rfl
  -- the greatest quality is compared over a least one that is the same for both
  have hgreatest (hmin : rule.imageMinJpegQuality =
      max 10 (min 100 ((topicXml.get "imgMinJpegQuality").toInt 45))) :
      rule.imageMaxJpegQuality =
        max (max 10 (min 100 ((topicXml.get "imgMinJpegQuality").toInt 45)))
          (min 100 ((topicXml.get "imgMaxJpegQuality").toInt 90)) ↔
      StaysGreatest (leastQuality (topicXml.get "imgMinJpegQuality"))
        (topicXml.get "imgMaxJpegQuality") := by
    have hbounds := toInt_clamp ((topicXml.get "imgMinJpegQuality").toInt 45)
    rw [← hmin] at hbounds ⊢
    rw [hleastLoaded, hloads.imageMaxJpegQuality, getIntMember_eq]
    exact greatest_agrees_iff (Int32.le_iff_toInt_le.mpr hbounds.1)
      (Int32.le_iff_toInt_le.mpr hbounds.2) _
  constructor
  · intro h
    have hmin := congrArg ImageValues.minJpegQuality h
    exact ⟨hquality.mp (congrArg ImageValues.jpegQuality h), hleast.mp hmin,
      (hgreatest hmin).mp (congrArg ImageValues.maxJpegQuality h),
      hstep.mp (congrArg ImageValues.qualityStep h),
      hcooldown.mp (congrArg ImageValues.adaptCooldownFrames h)⟩
  · intro h
    have hmin := hleast.mpr h.least
    exact ImageValues.ext hloads.imageResizeRate (hquality.mpr h.quality)
      (flag_eq hloads.imageAdaptiveQuality) hmin ((hgreatest hmin).mpr h.greatest)
      hloads.imageTargetBandwidthKbps (hstep.mpr h.step) (hcooldown.mpr h.cooldown)

/-! ## Entry by entry -/

/-- The type of an accepted entry that is loaded. -/
theorem RunsWith.msgType_of_loads {topicXml : Members} {topic : TopicCfg} {rule : TopicRule}
    (h : RunsWith topicXml topic) (hloads : Loads topicXml rule) :
    topicXml.get "msg_type" = .string topic.type := by
  rcases h.msgType with htype | ⟨hinvalid, -⟩
  · exact htype
  · rw [hloads.msgType] at hinvalid
    cases hinvalid

/-- An accepted entry is loaded as it runs exactly when it is plain. -/
theorem agrees_iff_plain {msgs : List MessageType} {hostMap : Inventory} {entry : XmlRpcValue}
    {topic : TopicCfg} (h : topicRule msgs hostMap entry = .ok topic) :
    (∃ rule, loadTopicRule entry = .ok rule ∧ Agrees topic rule) ↔ PlainEntry entry := by
  unfold topicRule at h
  split at h
  · next topicXml =>
    have hruns : RunsWith topicXml topic := runsWith_of_topicRule h
    constructor
    · rintro ⟨rule, hrule, hagrees⟩
      have hloads := loads_of_eq_ok hrule
      have htyped := exists_loadTopicRule.mp ⟨rule, hrule⟩
      have htype := hruns.msgType_of_loads hloads
      refine ⟨htyped.msgType, htyped.flags, htyped.texts _ (by decide), ?_, ?_⟩
      · intro hcloud
        rw [htype] at hcloud
        have hcloud : topic.type = pointCloudType := XmlRpcValue.string.inj hcloud
        obtain ⟨settings, hsettings, hrunning⟩ := hruns.cloud hcloud
        apply (cloud_agrees_iff hloads hsettings).mp
        rw [hagrees.cloud hcloud, hrunning]
      · intro himage
        rw [htype] at himage
        have himage : topic.type = imageType := XmlRpcValue.string.inj himage
        apply (image_agrees_iff hloads).mp
        rw [hagrees.image himage, hruns.image himage]
    · intro hplain
      obtain ⟨rule, hrule⟩ := exists_loadTopicRule.mpr
        ⟨⟨_, hruns.topicName⟩, hplain.msgType, hruns.srcHosts, hruns.dstHosts, hplain.flags, by
          intro key hkey hhas
          simp only [textMembers, List.mem_cons, List.not_mem_nil, or_false] at hkey
          rcases hkey with rfl | rfl
          · exact hruns.qosClass
          · exact hplain.codec hhas⟩
      have hloads := loads_of_eq_ok hrule
      have htype := hruns.msgType_of_loads hloads
      refine ⟨rule, hrule, ?_, ?_, ?_, ?_, ?_⟩
      · rw [hloads.maxFreqHz, hruns.maxFreq]
      · rw [flag_eq hloads.hasPrefix, hruns.hasPrefix]
      · rw [flag_eq hloads.samePrefix, hruns.samePrefix]
      · intro hcloud
        obtain ⟨settings, hsettings, hrunning⟩ := hruns.cloud hcloud
        rw [hrunning]
        exact (cloud_agrees_iff hloads hsettings).mpr (hplain.cloud (by rw [htype, hcloud]))
      · intro himage
        rw [hruns.image himage]
        exact (image_agrees_iff hloads).mpr (hplain.image (by rw [htype, himage]))
  · cases h

/-- A rule is compared as it stands on any host. -/
theorem agrees_onHost {myHostname : Bytes} {topic : TopicCfg} {rule : TopicRule} :
    Agrees (onHost myHostname topic) rule ↔ Agrees topic rule :=
  ⟨fun h ↦ ⟨h.maxFreq, h.hasPrefix, h.samePrefix, h.cloud, h.image⟩,
    fun h ↦ ⟨h.maxFreq, h.hasPrefix, h.samePrefix, h.cloud, h.image⟩⟩

/-- A list is loaded in relation to the topics exactly when each entry of it is. -/
theorem loadedAs_iff {Rel : TopicCfg → TopicRule → Prop} {entries : List XmlRpcValue}
    {configured : List TopicRule} {topics : List TopicCfg} :
    LoadedAs Rel entries configured topics ↔ List.Forall₂ (fun entry topic ↦
      ∃ rule, loadTopicRule entry = .ok rule ∧ Rel topic rule) entries topics := by
  unfold LoadedAs loadTopicRules
  simp only [mapM_eq_ok]
  exact exists_forall₂_iff

/-- The topics of a configuration, entry by entry. -/
theorem topicCfgs_eq_ok {msgs : List MessageType} {params : Parameters} {hostMap : Inventory}
    {entries : List XmlRpcValue} (hentries : params.topics = some (.array entries))
    {myHostname : Bytes} {topics : List TopicCfg}
    (h : topicCfgs msgs params hostMap myHostname = .ok topics) :
    List.Forall₂ (fun entry topic ↦ ∃ rule, topicRule msgs hostMap entry = .ok rule ∧
      topic = onHost myHostname rule) entries topics := by
  obtain ⟨rules, hrules, h⟩ := bind_eq_ok.mp h
  cases h
  rw [topicRules, hentries] at hrules
  rw [List.forall₂_map_right_iff]
  exact (mapM_eq_ok.mp hrules).imp fun _ rule hrule ↦ ⟨rule, hrule, rfl⟩

/-- Accepted entries are loaded as they run exactly when all of them are plain. -/
theorem readersAgree_iff_plain {msgs : List MessageType} {hostMap : Inventory} {myHostname : Bytes}
    {entries : List XmlRpcValue} {topics : List TopicCfg}
    (h : List.Forall₂ (fun entry topic ↦ ∃ rule, topicRule msgs hostMap entry = .ok rule ∧
      topic = onHost myHostname rule) entries topics) (configured : List TopicRule) :
    ReadersAgree entries configured topics ↔ ∀ entry ∈ entries, PlainEntry entry := by
  rw [ReadersAgree, loadedAs_iff]
  induction h with
  | nil => exact iff_of_true .nil (List.forall_mem_nil _)
  | cons hentry _ ih =>
    obtain ⟨rule, hrule, rfl⟩ := hentry
    rw [List.forall₂_cons, List.forall_mem_cons, ih, ← agrees_iff_plain hrule]
    simp only [agrees_onHost]

/-- For every topic list that a bridge accepts, the loader reads every entry and has the values
that the bridge runs with, exactly when all entries are plain. -/
theorem readers_agree_iff (msgs : List MessageType) (params : Parameters)
    (zenoh : Option XmlRpcValue) (myHostname : Bytes) (config : TransportConfig)
    (entries : List XmlRpcValue) (configured : List TopicRule)
    (hconfig : getHostTopicAndTransportConfig msgs params zenoh myHostname = .ok config)
    (hentries : params.topics = some (.array entries)) :
    ReadersAgree entries configured config.topicCfgs ↔ ∀ entry ∈ entries, PlainEntry entry := by
  obtain ⟨hostMap, -, hconfig⟩ := bind_eq_ok.mp hconfig
  obtain ⟨_, -, hconfig⟩ := bind_eq_ok.mp hconfig
  obtain ⟨sessions, -, hconfig⟩ := bind_eq_ok.mp hconfig
  obtain ⟨cfgs, hcfgs, hconfig⟩ := bind_eq_ok.mp hconfig
  cases hconfig
  exact readersAgree_iff_plain (topicCfgs_eq_ok hentries hcfgs) configured

/-- The parameters of a single host with one topic. -/
def singleTopic (entry : XmlRpcValue) : Parameters :=
  { singleHost with topics := some (.array [entry]) }

/-- A quality of 80 is loaded as it runs. -/
theorem readers_agree_eighty : ∃ config,
    getHostTopicAndTransportConfig [] (singleTopic (imageEntry 80)) none (ascii "ground") =
      .ok config ∧ ReadersAgree [imageEntry 80] [] config.topicCfgs := by
  refine ⟨_, rfl, ?_⟩
  apply (readers_agree_iff [] (singleTopic (imageEntry 80)) none (ascii "ground") _
    [imageEntry 80] [] rfl rfl).mpr
  rw [List.forall_mem_singleton]
  refine ⟨⟨imageType, rfl⟩, ?_, ?_, ?_, ?_⟩
  · intro key hkey hhas
    simp only [flagMembers, List.mem_cons, List.not_mem_nil, or_false] at hkey
    rcases hkey with rfl | rfl | rfl | rfl
    · cases hhas
    · cases hhas
    · cases hhas
    · exact ⟨true, rfl⟩
  · intro hhas
    cases hhas
  · intro hcloud
    exact absurd (XmlRpcValue.string.inj hcloud) (by decide)
  · intro _
    have hlow : (10 : Int32) ≤ 80 := by decide
    have hhigh : (80 : Int32) ≤ 100 := by decide
    have hleast : (45 : Int32) ≤ 90 := by decide
    exact ⟨⟨hlow, hhigh⟩, trivial, hleast, trivial, trivial⟩

/-- A quality of 150 is loaded as it stands, while the bridge compresses with 100. -/
theorem quality_loaded_unclamped : ∃ config rule,
    getHostTopicAndTransportConfig [] (singleTopic (imageEntry 150)) none (ascii "ground") =
      .ok config ∧
    loadTopicRules (.array [imageEntry 150]) [] = .ok [rule] ∧
    config.topicCfgs.map (·.imgJpegQuality) = [100] ∧ rule.imageJpegQuality = 150 ∧
    ¬ReadersAgree [imageEntry 150] [] config.topicCfgs := by
  refine ⟨_, _, rfl, rfl, rfl, rfl, ?_⟩
  rintro ⟨rules, hrules, hagrees⟩
  cases hrules
  cases hagrees with
  | cons hhead _ =>
    have hquality := congrArg ImageValues.jpegQuality (hhead.image rfl)
    exact absurd hquality (by decide)

end NetBridge.Config
