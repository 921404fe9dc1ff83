import NetBridge.Base.Cooldown
import NetBridge.Topic.Window

/-!
# The pace of the adaptation

How often `maybeAdaptImageQualityLocked` changes the JPEG quality of a sender,
`src/swarm_ros_bridge/src/topic_factory.cpp:592–625`: it waits for `adapt_cooldown_frames` messages
since the last change, by counters that wrap.
-/

namespace NetBridge.Topic

open NetBridge.Base NetBridge.Diagnostics

namespace MetricsEvent

/-- The message that a call counts as sent, if any. -/
def sends : RosTime × MetricsEvent → Nat
  | (_, recordSend _) => 1
  | _ => 0

/-- Whether a call changes the quality. -/
def adapts (topicCfg : TopicCfg) (state : TopicRuntimeState) (event : RosTime × MetricsEvent) :
    Bool :=
  (step topicCfg state event).currentJpegQuality ≠ state.currentJpegQuality

end MetricsEvent

/-- An adaptation finds it enabled and the cooldown over. -/
theorem adapted_of_ne (topicCfg : TopicCfg) (now : RosTime) (state : TopicRuntimeState) :
    maybeAdaptImageQualityLocked topicCfg now state = state ∨
      state.adaptiveQualityEnabled = true ∧
        ¬state.totalSent < state.lastAdaptTotalSent + state.adaptCooldownFrames.toUInt64 ∧
        ∃ quality, maybeAdaptImageQualityLocked topicCfg now state =
          { state with currentJpegQuality := quality, lastAdaptTotalSent := state.totalSent } := by
  unfold maybeAdaptImageQualityLocked
  split
  · exact Or.inl rfl
  · next hguard =>
    simp only [not_or, Bool.not_eq_true', Bool.not_eq_false] at hguard
    split
    · exact Or.inr ⟨hguard.2.1, hguard.2.2.2.2, _, rfl⟩
    · exact Or.inl rfl

/-- The settings of the adaptation, which nothing changes. -/
structure AdaptSettings (topicCfg : TopicCfg) (state : TopicRuntimeState) : Prop where
  enabled : state.adaptiveQualityEnabled = topicCfg.imgAdaptiveQuality
  cooldown : state.adaptCooldownFrames = topicCfg.imgAdaptCooldownFrames.toUInt32

section

variable {topicCfg : TopicCfg} {state : TopicRuntimeState}

/-- Each call leaves the settings. -/
theorem adaptSettings_step (hs : AdaptSettings topicCfg state) (event : RosTime × MetricsEvent) :
    AdaptSettings topicCfg (MetricsEvent.step topicCfg state event) := by
  rcases event with ⟨now, event⟩
  cases event with
  | recordSend bytes =>
    show AdaptSettings topicCfg (recordSend topicCfg bytes now state)
    unfold recordSend
    rcases adapted_of_ne topicCfg now _ with h | ⟨_, _, quality, h⟩
    · rw [h]
      exact ⟨hs.enabled, hs.cooldown⟩
    · rw [h]
      exact ⟨hs.enabled, hs.cooldown⟩
  | recordReceive bytes latencyMs =>
    show AdaptSettings topicCfg (recordReceive bytes latencyMs now state)
    unfold recordReceive
    rcases computeLatencyStats_eq _ latencyMs with ⟨_, _, _, h⟩
    rw [h]
    exact ⟨hs.enabled, hs.cooldown⟩
  | getMetricsSnapshot => exact ⟨hs.enabled, hs.cooldown⟩

private theorem counters_of_sends_zero (topicCfg : TopicCfg) (state : TopicRuntimeState)
    {event : RosTime × MetricsEvent} (h : MetricsEvent.sends event = 0) :
    (MetricsEvent.step topicCfg state event).totalSent = state.totalSent ∧
      (MetricsEvent.step topicCfg state event).lastAdaptTotalSent = state.lastAdaptTotalSent ∧
      (MetricsEvent.step topicCfg state event).currentJpegQuality = state.currentJpegQuality := by
  rcases event with ⟨now, event⟩
  cases event with
  | recordSend bytes => cases h
  | recordReceive bytes latencyMs =>
    show (recordReceive bytes latencyMs now state).totalSent = _ ∧
      (recordReceive bytes latencyMs now state).lastAdaptTotalSent = _ ∧
      (recordReceive bytes latencyMs now state).currentJpegQuality = _
    unfold recordReceive
    rcases computeLatencyStats_eq _ latencyMs with ⟨_, _, _, h⟩
    rw [h]
    exact ⟨rfl, rfl, rfl⟩
  | getMetricsSnapshot => exact ⟨rfl, rfl, rfl⟩

private theorem counters_recordSend (hs : AdaptSettings topicCfg state) (bytes : UInt64)
    (now : RosTime) : (recordSend topicCfg bytes now state).totalSent = state.totalSent + 1 ∧
      ((recordSend topicCfg bytes now state).lastAdaptTotalSent = state.lastAdaptTotalSent ∧
          (recordSend topicCfg bytes now state).currentJpegQuality = state.currentJpegQuality ∨
        (recordSend topicCfg bytes now state).lastAdaptTotalSent = state.totalSent + 1 ∧
          ¬state.totalSent + 1 < state.lastAdaptTotalSent +
            topicCfg.imgAdaptCooldownFrames.toUInt32.toUInt64) := by
  unfold recordSend
  rcases adapted_of_ne topicCfg now _ with h | ⟨_, hwaited, quality, h⟩
  · rw [h]
    exact ⟨rfl, Or.inl ⟨rfl, rfl⟩⟩
  · rw [h]
    refine ⟨rfl, Or.inr ⟨rfl, ?_⟩⟩
    rw [← hs.cooldown]
    exact hwaited

private theorem cooldown_recordSend (hs : AdaptSettings topicCfg state)
    (hlast : state.lastAdaptTotalSent.toNat ≤ state.totalSent.toNat) (bytes : UInt64)
    (now : RosTime) (hrange : state.totalSent.toNat + 1 +
      topicCfg.imgAdaptCooldownFrames.toUInt32.toNat < 18446744073709551616) :
    Cooldown (MetricsEvent.step topicCfg) (MetricsEvent.adapts topicCfg)
      (fun state ↦ state.totalSent.toNat) (fun state ↦ state.lastAdaptTotalSent.toNat)
      MetricsEvent.sends topicCfg.imgAdaptCooldownFrames.toUInt32.toNat state
      (now, .recordSend bytes) := by
  have hone : (state.totalSent + 1).toNat = state.totalSent.toNat + 1 := by
    have hsum : state.totalSent.toNat + 1 < 18446744073709551616 := by omega
    rw [UInt64.toNat_add, UInt64.toNat_one, Nat.mod_eq_of_lt hsum]
  have hcooldown : (state.lastAdaptTotalSent +
      topicCfg.imgAdaptCooldownFrames.toUInt32.toUInt64).toNat =
        state.lastAdaptTotalSent.toNat + topicCfg.imgAdaptCooldownFrames.toUInt32.toNat := by
    have hsum : state.lastAdaptTotalSent.toNat +
        topicCfg.imgAdaptCooldownFrames.toUInt32.toNat < 18446744073709551616 := by omega
    rw [UInt64.toNat_add, UInt32.toNat_toUInt64, Nat.mod_eq_of_lt hsum]
  rcases counters_recordSend hs bytes now with ⟨htotal, ⟨hkept, hquality⟩ | ⟨hadapted, hwaited⟩⟩
  · refine ⟨(congrArg UInt64.toNat htotal).trans hone, fun hfires ↦ ?_, fun _ ↦ ?_⟩
    · exact absurd hquality (of_decide_eq_true hfires)
    · show state.lastAdaptTotalSent.toNat ≤
          (recordSend topicCfg bytes now state).lastAdaptTotalSent.toNat ∧
        (recordSend topicCfg bytes now state).lastAdaptTotalSent.toNat ≤
          (recordSend topicCfg bytes now state).totalSent.toNat
      rw [htotal, hkept, hone]
      omega
  · have hpassed : state.lastAdaptTotalSent.toNat +
        topicCfg.imgAdaptCooldownFrames.toUInt32.toNat ≤ state.totalSent.toNat + 1 := by
      rw [UInt64.lt_iff_toNat_lt, hcooldown, hone] at hwaited
      omega
    refine ⟨(congrArg UInt64.toNat htotal).trans hone, fun _ ↦ ?_, fun _ ↦ ?_⟩
    · show state.lastAdaptTotalSent.toNat + _ ≤
          (recordSend topicCfg bytes now state).totalSent.toNat ∧
        (recordSend topicCfg bytes now state).lastAdaptTotalSent.toNat =
          (recordSend topicCfg bytes now state).totalSent.toNat
      rw [htotal, hadapted, hone]
      exact ⟨hpassed, rfl⟩
    · show state.lastAdaptTotalSent.toNat ≤
          (recordSend topicCfg bytes now state).lastAdaptTotalSent.toNat ∧
        (recordSend topicCfg bytes now state).lastAdaptTotalSent.toNat ≤
          (recordSend topicCfg bytes now state).totalSent.toNat
      rw [htotal, hadapted, hone]
      omega

/-- Below the range of the counters a call keeps the cooldown. -/
theorem cooldown_step (hs : AdaptSettings topicCfg state)
    (hlast : state.lastAdaptTotalSent.toNat ≤ state.totalSent.toNat)
    (event : RosTime × MetricsEvent)
    (hrange : state.totalSent.toNat + MetricsEvent.sends event +
      topicCfg.imgAdaptCooldownFrames.toUInt32.toNat < 18446744073709551616) :
    Cooldown (MetricsEvent.step topicCfg) (MetricsEvent.adapts topicCfg)
      (fun state ↦ state.totalSent.toNat) (fun state ↦ state.lastAdaptTotalSent.toNat)
      MetricsEvent.sends topicCfg.imgAdaptCooldownFrames.toUInt32.toNat state event := by
  have hidle : MetricsEvent.sends event = 0 → Cooldown (MetricsEvent.step topicCfg)
      (MetricsEvent.adapts topicCfg) (fun state ↦ state.totalSent.toNat)
      (fun state ↦ state.lastAdaptTotalSent.toNat) MetricsEvent.sends
      topicCfg.imgAdaptCooldownFrames.toUInt32.toNat state event := by
    intro hsends
    rcases counters_of_sends_zero topicCfg state hsends with ⟨htotal, hadapt, hquality⟩
    refine ⟨by rw [htotal, hsends, Nat.add_zero], fun hfires ↦ ?_, fun _ ↦ ?_⟩
    · exact absurd hquality (of_decide_eq_true hfires)
    · rw [hadapt, htotal]
      exact ⟨Nat.le_refl _, hlast⟩
  rcases event with ⟨now, event⟩
  cases event with
  | recordSend bytes => exact cooldown_recordSend hs hlast bytes now hrange
  | recordReceive bytes latencyMs => exact hidle rfl
  | getMetricsSnapshot => exact hidle rfl

/-- What holds of the counters after any calls that stay in their range. -/
structure Paced (topicCfg : TopicCfg) (sent : Nat) (state : TopicRuntimeState) : Prop where
  settings : AdaptSettings topicCfg state
  total : state.totalSent.toNat = sent
  last : state.lastAdaptTotalSent.toNat ≤ state.totalSent.toNat

/-- Each call in the range of the counters keeps this. -/
theorem paced_step {sent : Nat} (hs : Paced topicCfg sent state) (event : RosTime × MetricsEvent)
    (hrange : sent + MetricsEvent.sends event +
      topicCfg.imgAdaptCooldownFrames.toUInt32.toNat < 18446744073709551616) :
    Paced topicCfg (sent + MetricsEvent.sends event) (MetricsEvent.step topicCfg state event) := by
  have htotal := hs.total
  rw [← htotal] at hrange ⊢
  have hcooldown := cooldown_step hs.settings hs.last event hrange
  refine ⟨adaptSettings_step hs.settings event, hcooldown.ticked, ?_⟩
  cases hfires : MetricsEvent.adapts topicCfg state event with
  | true => exact Nat.le_of_eq (hcooldown.waited hfires).2
  | false => exact (hcooldown.kept hfires).2

/-- All calls in the range of the counters keep this. -/
theorem paced_foldl {sent : Nat} (hs : Paced topicCfg sent state)
    (events : List (RosTime × MetricsEvent))
    (hrange : sent + (events.map MetricsEvent.sends).sum +
      topicCfg.imgAdaptCooldownFrames.toUInt32.toNat < 18446744073709551616) :
    Paced topicCfg (sent + (events.map MetricsEvent.sends).sum)
      (events.foldl (MetricsEvent.step topicCfg) state) := by
  induction events generalizing sent state with
  | nil => exact hs
  | cons event events ih =>
    rw [List.map_cons, List.sum_cons] at hrange ⊢
    rw [List.foldl_cons, ← Nat.add_assoc]
    apply ih
    · exact paced_step hs event (by omega)
    · omega

/-- With the adaptation disabled no call changes the quality. -/
theorem adapts_of_disabled (hs : AdaptSettings topicCfg state)
    (hdisabled : topicCfg.imgAdaptiveQuality = false) (event : RosTime × MetricsEvent) :
    MetricsEvent.adapts topicCfg state event = false := by
  rw [MetricsEvent.adapts, decide_eq_false_iff_not, not_not]
  rcases event with ⟨now, event⟩
  cases event with
  | recordSend bytes =>
    show (recordSend topicCfg bytes now state).currentJpegQuality = state.currentJpegQuality
    unfold recordSend
    rcases adapted_of_ne topicCfg now _ with h | ⟨henabled, _⟩
    · rw [h]
      rfl
    · have henabled : state.adaptiveQualityEnabled = true := henabled
      rw [hs.enabled, hdisabled] at henabled
      cases henabled
  | recordReceive bytes latencyMs =>
    have hsends : MetricsEvent.sends (now, .recordReceive bytes latencyMs) = 0 := rfl
    exact (counters_of_sends_zero topicCfg state hsends).2.2
  | getMetricsSnapshot => rfl

/-- With the adaptation disabled no calls do. -/
theorem firings_of_disabled (hs : AdaptSettings topicCfg state)
    (hdisabled : topicCfg.imgAdaptiveQuality = false) (events : List (RosTime × MetricsEvent)) :
    firings (MetricsEvent.step topicCfg) (MetricsEvent.adapts topicCfg) state events = 0 := by
  induction events generalizing state with
  | nil => rfl
  | cons event events ih =>
    rw [firings, adapts_of_disabled hs hdisabled event, if_neg Bool.false_ne_true, Nat.zero_add]
    exact ih (adaptSettings_step hs event)

end

/-- A new factory is paced. -/
theorem paced_initialMetrics (topicCfg : TopicCfg) : Paced topicCfg 0 (initialMetrics topicCfg) :=
  ⟨⟨rfl, rfl⟩, rfl, Nat.le_refl _⟩

private theorem cooldown_run {topicCfg : TopicCfg} {events : List (RosTime × MetricsEvent)}
    (hrange : (events.map MetricsEvent.sends).sum +
      topicCfg.imgAdaptCooldownFrames.toUInt32.toNat < 18446744073709551616)
    {pre post : List (RosTime × MetricsEvent)} {event : RosTime × MetricsEvent}
    (heq : events = pre ++ event :: post) :
    Cooldown (MetricsEvent.step topicCfg) (MetricsEvent.adapts topicCfg)
      (fun state ↦ state.totalSent.toNat) (fun state ↦ state.lastAdaptTotalSent.toNat)
      MetricsEvent.sends topicCfg.imgAdaptCooldownFrames.toUInt32.toNat
      (MetricsEvent.run topicCfg pre) event := by
  rw [heq, List.map_append, List.map_cons, List.sum_append, List.sum_cons] at hrange
  have hpaced := paced_foldl (paced_initialMetrics topicCfg) pre (by omega)
  rw [Nat.zero_add] at hpaced
  apply cooldown_step hpaced.settings hpaced.last
  rw [hpaced.total]
  omega

/-- In any calls within the range of the counters the cooldown passes between two changes of the
quality: the messages of any part of a run pay for all its changes but one, those of the whole run
for all of them, and there are none with the adaptation disabled. -/
theorem quality_changes_paced (topicCfg : TopicCfg) (before part : List (RosTime × MetricsEvent))
    (hrange : ((before ++ part).map MetricsEvent.sends).sum +
      topicCfg.imgAdaptCooldownFrames.toUInt32.toNat < 18446744073709551616) :
    firings (MetricsEvent.step topicCfg) (MetricsEvent.adapts topicCfg)
        (MetricsEvent.run topicCfg before) part *
      topicCfg.imgAdaptCooldownFrames.toUInt32.toNat ≤
        (part.map MetricsEvent.sends).sum + topicCfg.imgAdaptCooldownFrames.toUInt32.toNat ∧
    firings (MetricsEvent.step topicCfg) (MetricsEvent.adapts topicCfg)
        (initialMetrics topicCfg) (before ++ part) *
      topicCfg.imgAdaptCooldownFrames.toUInt32.toNat ≤
        ((before ++ part).map MetricsEvent.sends).sum ∧
    (topicCfg.imgAdaptiveQuality = false →
      firings (MetricsEvent.step topicCfg) (MetricsEvent.adapts topicCfg)
        (initialMetrics topicCfg) (before ++ part) = 0) := by
  have hinit := paced_initialMetrics topicCfg
  refine ⟨?_, ?_, fun hdisabled ↦ firings_of_disabled hinit.settings hdisabled _⟩
  · apply firings_mul_le
    intro pre event post heq
    rw [MetricsEvent.run, ← List.foldl_append]
    apply cooldown_run hrange
    rw [heq, List.append_assoc]
  · have hpaid := firings_mul_add_le (s := initialMetrics topicCfg) hinit.last
      fun pre event post heq ↦ cooldown_run hrange heq
    rwa [hinit.total, Nat.zero_add] at hpaid

/-- Images with the adaptive quality and its defaults. -/
def adaptiveImages : TopicCfg := { type := imageType, imgAdaptiveQuality := true }

/-- So many messages of 20000 bytes at one time. -/
def burst (count : Nat) : List (RosTime × MetricsEvent) :=
  List.replicate count (⟨1, 0⟩, .recordSend 20000)

private theorem sends_burst (count : Nat) : ((burst count).map MetricsEvent.sends).sum = count := by
  rw [burst, List.map_replicate, List.sum_replicate]
  exact Nat.mul_one count

/-- Sixteen messages of an image topic with the default cooldown change its quality twice, both
times among the last nine, which is as often as so many messages pay for. -/
theorem quality_changes_paced_sixteen :
    firings (MetricsEvent.step adaptiveImages) (MetricsEvent.adapts adaptiveImages)
        (MetricsEvent.run adaptiveImages (burst 7)) (burst 9) = 2 ∧
      firings (MetricsEvent.step adaptiveImages) (MetricsEvent.adapts adaptiveImages)
        (initialMetrics adaptiveImages) (burst 7 ++ burst 9) = 2 := by
  have hcooldown : adaptiveImages.imgAdaptCooldownFrames.toUInt32.toNat = 8 := rfl
  have hsum : ((burst 7 ++ burst 9).map MetricsEvent.sends).sum = 16 := by
    rw [List.map_append, List.sum_append, sends_burst, sends_burst]
  rcases quality_changes_paced adaptiveImages (burst 7) (burst 9) (by omega) with
    ⟨hpart, hwhole, -⟩
  rw [hcooldown, sends_burst] at hpart
  rw [hcooldown, hsum] at hwhole
  have htwice : 2 ≤ firings (MetricsEvent.step adaptiveImages) (MetricsEvent.adapts adaptiveImages)
      (MetricsEvent.run adaptiveImages (burst 7)) (burst 9) := by
    decide +kernel
  have hall : 2 ≤ firings (MetricsEvent.step adaptiveImages) (MetricsEvent.adapts adaptiveImages)
      (initialMetrics adaptiveImages) (burst 7 ++ burst 9) := by
    decide +kernel
  omega

end NetBridge.Topic
