import NetBridge.Bridge.Topics
import NetBridge.Topic.Window

/-!
# The JPEG quality of image senders

The quality that `currentImageJpegQuality` hands to the JPEG encoder,
`src/swarm_ros_bridge/src/topic_factory.cpp:524–527,592–625`, under the settings that
`getHostTopicAndTransportConfig` accepts, `src/bridge_factory.cpp:497–532`. The initial quality is
clamped on its own, and the band on its own.
-/

namespace NetBridge.Bridge

open NetBridge.Base NetBridge.Diagnostics NetBridge.Transport NetBridge.Topic

/-- `currentImageJpegQuality`; `topic_factory.cpp:524–527`. -/
def currentImageJpegQuality (state : TopicRuntimeState) : Int32 :=
  state.currentJpegQuality.toInt32

/-- The quality settings of an image rule. -/
structure QualitySettings (topicCfg : TopicCfg) : Prop where
  min_ge : 10 ≤ topicCfg.imgMinJpegQuality.toInt
  min_le : topicCfg.imgMinJpegQuality.toInt ≤ topicCfg.imgMaxJpegQuality.toInt
  max_le : topicCfg.imgMaxJpegQuality.toInt ≤ 100
  quality_ge : 10 ≤ topicCfg.imgJpegQuality.toInt
  quality_le : topicCfg.imgJpegQuality.toInt ≤ 100
  step_ge : 1 ≤ topicCfg.imgQualityStep.toInt

/-- The quality lies in the configured band. -/
def InBand (topicCfg : TopicCfg) (state : TopicRuntimeState) : Prop :=
  topicCfg.imgMinJpegQuality ≤ currentImageJpegQuality state ∧
    currentImageJpegQuality state ≤ topicCfg.imgMaxJpegQuality

instance (topicCfg : TopicCfg) (state : TopicRuntimeState) : Decidable (InBand topicCfg state) :=
  inferInstanceAs (Decidable (_ ∧ _))

/-- The `int` computations of the adaptation have their exact values. -/
structure AdaptsExactly (topicCfg : TopicCfg) (quality : Int32) : Prop where
  lower : quality > topicCfg.imgMinJpegQuality →
    (quality - topicCfg.imgQualityStep).toInt = quality.toInt - topicCfg.imgQualityStep.toInt
  raise : quality < topicCfg.imgMaxJpegQuality →
    (quality + topicCfg.imgQualityStep).toInt = quality.toInt + topicCfg.imgQualityStep.toInt

/-- A step leaves the quality, lowers it to no less than the lower bound, or raises it to no more
than the upper bound. -/
def QualityMove (topicCfg : TopicCfg) (quality quality' : Int) : Prop :=
  quality' = quality ∨
    (topicCfg.imgMinJpegQuality.toInt ≤ quality' ∧ quality' < quality) ∨
    (quality < quality' ∧ quality' ≤ topicCfg.imgMaxJpegQuality.toInt)

/-! ## The settings -/

/-- The greater of two words. -/
theorem toInt_max (a b : Int32) : (max a b).toInt = max a.toInt b.toInt := by
  show (if a ≤ b then b else a).toInt = _
  split
  · next h =>
    rw [Int32.le_iff_toInt_le] at h
    omega
  · next h =>
    rw [Int32.le_iff_toInt_le] at h
    omega

/-- The smaller of two words. -/
theorem toInt_min (a b : Int32) : (min a b).toInt = min a.toInt b.toInt := by
  show (if a ≤ b then a else b).toInt = _
  split
  · next h =>
    rw [Int32.le_iff_toInt_le] at h
    omega
  · next h =>
    rw [Int32.le_iff_toInt_le] at h
    omega

/-- A clamp to `10–100`. -/
theorem toInt_clamp (value : Int32) :
    10 ≤ (max 10 (min 100 value)).toInt ∧ (max 10 (min 100 value)).toInt ≤ 100 := by
  rw [toInt_max, toInt_min]
  have hten : (10 : Int32).toInt = 10 := rfl
  have hhundred : (100 : Int32).toInt = 100 := rfl
  omega

/-- `imageSettings` clamps the qualities and the step, over the defaults of a rule. -/
theorem qualitySettings_imageSettings (topicXml : Members) {topic : TopicCfg}
    (hquality : topic.imgJpegQuality = 80) (hstep : topic.imgQualityStep = 5) :
    QualitySettings (imageSettings topicXml topic) := by
  have hten : (10 : Int32).toInt = 10 := rfl
  have hhundred : (100 : Int32).toInt = 100 := rfl
  have hone : (1 : Int32).toInt = 1 := rfl
  constructor
  · exact (toInt_clamp _).1
  · simp only [imageSettings, toInt_max]
    omega
  · have hmin := (toInt_clamp (imageSettings topicXml topic).imgMinJpegQuality).2
    simp only [imageSettings, toInt_max, toInt_min] at hmin ⊢
    omega
  · simp only [imageSettings]
    split
    · exact (toInt_clamp _).1
    · rw [hquality]
      decide
  · simp only [imageSettings]
    split
    · exact (toInt_clamp _).2
    · rw [hquality]
      decide
  · simp only [imageSettings]
    split
    · rw [toInt_max]
      omega
    · rw [hstep]
      decide

/-- An accepted image rule has such settings. -/
theorem qualitySettings_of_topicRule {msgs : List MessageType} {hostMap : Inventory}
    {entry : XmlRpcValue} {rule : TopicCfg} (h : topicRule msgs hostMap entry = .ok rule)
    (himage : rule.type = imageType) : QualitySettings rule := by
  unfold topicRule at h
  split at h
  · next topicXml =>
    obtain ⟨topicName, _, h⟩ := bind_eq_ok.mp h
    obtain ⟨topicType, _, h⟩ := bind_eq_ok.mp h
    obtain ⟨_, _, h⟩ := bind_eq_ok.mp h
    obtain ⟨qosClass, _, h⟩ := bind_eq_ok.mp h
    obtain ⟨src, _, h⟩ := bind_eq_ok.mp h
    obtain ⟨dst, _, h⟩ := bind_eq_ok.mp h
    obtain ⟨topic, htyped, h⟩ := bind_eq_ok.mp h
    have htype := (typedSettings_eq_ok htyped).2.2.1
    cases h
    rw [typedSettings, if_pos (htype.symm.trans himage)] at htyped
    cases htyped
    have hsettings : QualitySettings (imageSettings topicXml {
        name := topicName, wireName := topicName, type := topicType, qosClass }) :=
      qualitySettings_imageSettings topicXml rfl rfl
    exact ⟨hsettings.min_ge, hsettings.min_le, hsettings.max_le, hsettings.quality_ge,
      hsettings.quality_le, hsettings.step_ge⟩
  · cases h

/-! ## The adaptation -/

/-- What `maybeAdaptImageQualityLocked` sets. -/
theorem adaptedQuality_cases {topicCfg : TopicCfg} {now : RosTime} {state : TopicRuntimeState}
    {quality : Int32} (h : adaptedQuality topicCfg now state = some quality) :
    (currentImageJpegQuality state > topicCfg.imgMinJpegQuality ∧
      quality = max topicCfg.imgMinJpegQuality
        (currentImageJpegQuality state - topicCfg.imgQualityStep)) ∨
    (currentImageJpegQuality state < topicCfg.imgMaxJpegQuality ∧
      quality = min topicCfg.imgMaxJpegQuality
        (currentImageJpegQuality state + topicCfg.imgQualityStep)) := by
  unfold adaptedQuality at h
  split at h
  · cases h
  · dsimp only at h
    split at h
    · next hlower =>
      cases h
      exact Or.inl ⟨hlower.2, rfl⟩
    · split at h
      · next hraise =>
        cases h
        exact Or.inr ⟨hraise.2, rfl⟩
      · cases h

/-- Within `int`, a quality of `10–100` is adapted exactly. -/
theorem adaptsExactly {topicCfg : TopicCfg} (hsettings : QualitySettings topicCfg)
    (hstep : topicCfg.imgMaxJpegQuality.toInt - 1 + topicCfg.imgQualityStep.toInt < 2147483648)
    {quality : Int32} (hge : 10 ≤ quality.toInt) : AdaptsExactly topicCfg quality := by
  have hpos := hsettings.step_ge
  have hmax := hsettings.max_le
  have hle := topicCfg.imgQualityStep.toInt_lt
  have hlt := quality.toInt_lt
  constructor
  · intro _
    rw [Int32.toInt_sub, Int.bmod_eq_of_le]
    · omega
    · omega
  · intro hraise
    rw [Int32.lt_iff_toInt_lt] at hraise
    rw [Int32.toInt_add, Int.bmod_eq_of_le]
    · omega
    · omega

/-- The adaptation moves the quality so. -/
theorem qualityMove_adapt {topicCfg : TopicCfg} {state : TopicRuntimeState} {quality : Int32}
    (now : RosTime) (hquality : currentImageJpegQuality state = quality)
    (hexact : AdaptsExactly topicCfg quality) (hpos : 1 ≤ topicCfg.imgQualityStep.toInt) :
    QualityMove topicCfg quality.toInt
      (currentImageJpegQuality (maybeAdaptImageQualityLocked topicCfg now state)).toInt := by
  rw [← hquality] at hexact ⊢
  rcases maybeAdaptImageQualityLocked_cases topicCfg now state with h | ⟨adapted, hadapted, h⟩
  · rw [h]
    exact Or.inl rfl
  · rw [h]
    show QualityMove topicCfg _ adapted.toInt
    rcases adaptedQuality_cases hadapted with ⟨hmin, rfl⟩ | ⟨hmax, rfl⟩
    · have hlower := hexact.lower hmin
      rw [gt_iff_lt, Int32.lt_iff_toInt_lt] at hmin
      rw [toInt_max, hlower]
      exact Or.inr (Or.inl (by omega))
    · have hraise := hexact.raise hmax
      rw [Int32.lt_iff_toInt_lt] at hmax
      rw [toInt_min, hraise]
      exact Or.inr (Or.inr (by omega))

/-- Latencies leave the quality. -/
theorem quality_computeLatencyStats (latencyMs : Float) (state : TopicRuntimeState) :
    (computeLatencyStats latencyMs state).currentJpegQuality = state.currentJpegQuality := by
  rcases computeLatencyStats_eq state latencyMs with ⟨_, _, _, h⟩
  rw [h]

/-- A call moves the quality so. -/
theorem qualityMove_step {topicCfg : TopicCfg} {state : TopicRuntimeState}
    (hexact : AdaptsExactly topicCfg (currentImageJpegQuality state))
    (hpos : 1 ≤ topicCfg.imgQualityStep.toInt) (event : RosTime × MetricsEvent) :
    QualityMove topicCfg (currentImageJpegQuality state).toInt
      (currentImageJpegQuality (MetricsEvent.step topicCfg state event)).toInt := by
  rcases event with ⟨now, event⟩
  cases event with
  | recordSend bytes => exact qualityMove_adapt now rfl hexact hpos
  | recordReceive bytes latencyMs =>
    have hsame : (recordReceive bytes latencyMs now state).currentJpegQuality =
        state.currentJpegQuality := quality_computeLatencyStats latencyMs _
    show QualityMove topicCfg _
      (recordReceive bytes latencyMs now state).currentJpegQuality.toInt32.toInt
    rw [hsame]
    exact Or.inl rfl
  | getMetricsSnapshot => exact Or.inl rfl

/-! ## Runs -/

/-- The configured quality is the initial one. -/
theorem quality_initial (topicCfg : TopicCfg) :
    currentImageJpegQuality (MetricsEvent.run topicCfg []) = topicCfg.imgJpegQuality :=
  Int32.toInt32_toUInt32 topicCfg.imgJpegQuality

section

variable {topicCfg : TopicCfg} (hsettings : QualitySettings topicCfg)
  (hint : topicCfg.imgMaxJpegQuality.toInt - 1 + topicCfg.imgQualityStep.toInt < 2147483648)

include hsettings hint

/-- The quality stays between the initial one and the band. -/
theorem quality_between (events : List (RosTime × MetricsEvent)) :
    min topicCfg.imgJpegQuality.toInt topicCfg.imgMinJpegQuality.toInt ≤
        (currentImageJpegQuality (MetricsEvent.run topicCfg events)).toInt ∧
      (currentImageJpegQuality (MetricsEvent.run topicCfg events)).toInt ≤
        max topicCfg.imgJpegQuality.toInt topicCfg.imgMaxJpegQuality.toInt := by
  induction events using List.reverseRecOn with
  | nil =>
    rw [quality_initial]
    omega
  | append_singleton events event ih =>
    have hmin := hsettings.min_ge
    have hquality := hsettings.quality_ge
    have hge : 10 ≤ (currentImageJpegQuality (MetricsEvent.run topicCfg events)).toInt := by omega
    have hmove := qualityMove_step (adaptsExactly hsettings hint hge) hsettings.step_ge event
    have hle := hsettings.min_le
    rw [MetricsEvent.run_concat]
    unfold QualityMove at hmove
    omega

/-- The adaptation is exact in every state. -/
theorem adaptsExactly_run (events : List (RosTime × MetricsEvent)) :
    AdaptsExactly topicCfg (currentImageJpegQuality (MetricsEvent.run topicCfg events)) := by
  have hbetween := quality_between hsettings hint events
  have hmin := hsettings.min_ge
  have hquality := hsettings.quality_ge
  exact adaptsExactly hsettings hint (by omega)

/-- Once in the band, the quality stays there. -/
theorem inBand_append {events : List (RosTime × MetricsEvent)}
    (h : InBand topicCfg (MetricsEvent.run topicCfg events))
    (rest : List (RosTime × MetricsEvent)) :
    InBand topicCfg (MetricsEvent.run topicCfg (events ++ rest)) := by
  induction rest using List.reverseRecOn with
  | nil =>
    rw [List.append_nil]
    exact h
  | append_singleton rest event ih =>
    have hmove := qualityMove_step (adaptsExactly_run hsettings hint (events ++ rest))
      hsettings.step_ge event
    rw [← List.append_assoc, MetricsEvent.run_concat]
    simp only [InBand, Int32.le_iff_toInt_le] at ih ⊢
    unfold QualityMove at hmove
    omega

end

/-- A sender has the quality settings of its rule. -/
theorem qualitySettings_of_sendCfg {platform : Platform} {params : Parameters} {me : Identity}
    {rule topicCfg : TopicCfg}
    (h : sendCfg platform params me (onHost me.hostname rule) = .ok topicCfg)
    (hsettings : QualitySettings rule) : QualitySettings topicCfg := by
  obtain ⟨rawName, -, hcfg⟩ := bind_eq_ok.mp h
  cases hcfg
  exact ⟨hsettings.min_ge, hsettings.min_le, hsettings.max_le, hsettings.quality_ge,
    hsettings.quality_le, hsettings.step_ge⟩

/-- The quality of a sender of images under an accepted rule, whose step stays within `int`: it
starts as configured, stays between the configured one and the band, and does not leave the band
once it is there. -/
theorem adaptive_quality {msgs : List MessageType} {hostMap : Inventory} {entry : XmlRpcValue}
    {rule : TopicCfg} (hrule : topicRule msgs hostMap entry = .ok rule)
    (himage : rule.type = imageType) {platform : Platform} {params : Parameters} {me : Identity}
    {topicCfg : TopicCfg}
    (hsend : sendCfg platform params me (onHost me.hostname rule) = .ok topicCfg)
    (hint : topicCfg.imgMaxJpegQuality.toInt - 1 + topicCfg.imgQualityStep.toInt < 2147483648) :
    (10 ≤ topicCfg.imgMinJpegQuality ∧
      topicCfg.imgMinJpegQuality ≤ topicCfg.imgMaxJpegQuality ∧
      topicCfg.imgMaxJpegQuality ≤ 100) ∧
    currentImageJpegQuality (MetricsEvent.run topicCfg []) = topicCfg.imgJpegQuality ∧
    (∀ events, 10 ≤ currentImageJpegQuality (MetricsEvent.run topicCfg events) ∧
      currentImageJpegQuality (MetricsEvent.run topicCfg events) ≤ 100 ∧
      min topicCfg.imgJpegQuality topicCfg.imgMinJpegQuality ≤
        currentImageJpegQuality (MetricsEvent.run topicCfg events) ∧
      currentImageJpegQuality (MetricsEvent.run topicCfg events) ≤
        max topicCfg.imgJpegQuality topicCfg.imgMaxJpegQuality ∧
      AdaptsExactly topicCfg (currentImageJpegQuality (MetricsEvent.run topicCfg events))) ∧
    (∀ events rest, InBand topicCfg (MetricsEvent.run topicCfg events) →
      InBand topicCfg (MetricsEvent.run topicCfg (events ++ rest))) := by
  have hten : (10 : Int32).toInt = 10 := rfl
  have hhundred : (100 : Int32).toInt = 100 := rfl
  have hsettings := qualitySettings_of_sendCfg hsend (qualitySettings_of_topicRule hrule himage)
  have hmin := hsettings.min_ge
  have hmax := hsettings.max_le
  have hquality := hsettings.quality_ge
  have hquality' := hsettings.quality_le
  refine ⟨?_, quality_initial topicCfg, ?_, ?_⟩
  · simp only [Int32.le_iff_toInt_le, hten, hhundred]
    exact ⟨hmin, hsettings.min_le, hmax⟩
  · intro events
    have hbetween := quality_between hsettings hint events
    simp only [Int32.le_iff_toInt_le, toInt_min, toInt_max, hten, hhundred]
    exact ⟨by omega, by omega, hbetween.1, hbetween.2, adaptsExactly_run hsettings hint events⟩
  · intro events rest hband
    exact inBand_append hsettings hint hband rest

/-- An image rule with a quality. -/
def imageEntry (quality : Int32) : XmlRpcValue :=
  .struct [(ascii "topic_name", .string (ascii "/camera")), (ascii "msg_type", .string imageType),
    (ascii "qos_class", .string (ascii "bulk")), (ascii "srcIP", .array []),
    (ascii "dstIP", .array []), (ascii "imgAdaptiveQuality", .boolean true),
    (ascii "imgJpegQuality", .int quality)]

instance : Inhabited TopicCfg := ⟨{}⟩

private def imagePlatform : Platform := ⟨some, fun _ _ _ ↦ true, fun _ _ ↦ true, fun _ _ ↦ true⟩

/-- The configuration of a sender under such a rule. -/
private def imageSenderCfg (quality : Int32) : TopicCfg :=
  accepted (sendCfg imagePlatform {} ⟨ascii "drone1", 1⟩
    (onHost (ascii "drone1") (accepted (topicRule [] ∅ (imageEntry quality)))))

/-- A rule whose configured quality lies in the default band keeps it there. -/
theorem adaptive_quality_default :
    currentImageJpegQuality (MetricsEvent.run (imageSenderCfg 80) []) =
        (imageSenderCfg 80).imgJpegQuality ∧
      ∀ events, InBand (imageSenderCfg 80) (MetricsEvent.run (imageSenderCfg 80) events) := by
  have hrule : (topicRule [] ∅ (imageEntry 80)).isOk = true := by decide
  have hsend : sendCfg imagePlatform {} ⟨ascii "drone1", 1⟩
      (onHost (ascii "drone1") (accepted (topicRule [] ∅ (imageEntry 80)))) =
        .ok (imageSenderCfg 80) := eq_ok_accepted (by decide)
  have h := adaptive_quality (eq_ok_accepted hrule) (by decide) hsend (by decide)
  exact ⟨h.2.1, fun events ↦ h.2.2.2 [] events (by decide)⟩

/-- A rule whose configured quality lies above the band starts outside of it. -/
theorem not_inBand_initially :
    (topicRule [] ∅ (imageEntry 95)).isOk = true ∧
      (accepted (topicRule [] ∅ (imageEntry 95))).imgAdaptiveQuality = true ∧
      ¬InBand (accepted (topicRule [] ∅ (imageEntry 95)))
        (MetricsEvent.run (accepted (topicRule [] ∅ (imageEntry 95))) []) := by
  decide

end NetBridge.Bridge
