import Mathlib.Data.Finset.Card
import NetBridge.Topic.ImageMetrics
import NetBridge.Topic.Sender
import NetBridge.Transport.WireFormat

/-!
# Inferred losses against the sender

The sequence numbers that a fixed-route sender assigns
(`src/swarm_ros_bridge/src/topic_factory.cpp:136–232,308–322`) against the frame statistics of a
receiver that gets some of its envelopes in their order
(`src/diagnostics/topic_metrics.cpp:40–68`).
-/

namespace NetBridge.Topic

open NetBridge.Base NetBridge.Diagnostics NetBridge.Transport

namespace Sender

variable {msgs : List MessageType} {s : Sender}

/-! ## One callback -/

/-- What a callback does: the rate limiter drops the message and takes no number, or one event
takes the next one. -/
theorem subCallback_fixed (hfixed : hasToDroneIds msgs s.factory.topicCfg.type = false)
    (c : Callback) : (s.subCallback msgs c).factory = s.factory ∧
      (s.Tallied → (s.subCallback msgs c).Tallied) ∧
      (((s.subCallback msgs c).sequence = s.sequence ∧
          (s.subCallback msgs c).events = s.events ++ [.limited]) ∨
        ((s.subCallback msgs c).sequence = s.sequence + 1 ∧
          ∃ event : SendEvent, event.number = some (s.sequence + 1) ∧
            (s.subCallback msgs c).events = s.events ++ [event])) := by
  unfold subCallback
  rcases s.sendFreqControl_cases c.now with ⟨subLastTime, hcontrol⟩ | hcontrol
  · have htallied : s.Tallied → Tallied { s with subLastTime, sequence := s.sequence + 1 } :=
      fun h ↦ ⟨h.sent, h.dropped⟩
    rw [hcontrol]
    dsimp only
    split
    · refine ⟨rfl, ?_, Or.inr ⟨rfl, .encodeFailed (s.sequence + 1), rfl, rfl⟩⟩
      intro h
      exact tallied_drop (htallied h) (.encodeFailed (s.sequence + 1)) rfl
    · next payload hencoded =>
      rw [hfixed, if_neg Bool.false_ne_true]
      have hnumber : ∀ topicCfg,
          (c.envelope msgs topicCfg (s.sequence + 1) payload).sequence = s.sequence + 1 := by
        intro topicCfg
        unfold Callback.envelope
        split <;> rfl
      split
      · next publisher hsender =>
        refine ⟨?_, fun h ↦ tallied_publish (htallied h) _ _ _ _, Or.inr ?_⟩
        · unfold publish
          split <;> rfl
        · unfold publish
          split
          · exact ⟨rfl, _, by rw [SendEvent.number, hnumber], rfl⟩
          · exact ⟨rfl, _, by rw [SendEvent.number, hnumber], rfl⟩
      · refine ⟨rfl, ?_, Or.inr ⟨rfl, .publishFailed (s.sequence + 1) [], rfl, rfl⟩⟩
        intro h
        exact tallied_drop (htallied h) (.publishFailed (s.sequence + 1) []) rfl
  · rw [hcontrol]
    exact ⟨rfl, fun h ↦ tallied_drop h .limited rfl, Or.inl ⟨rfl, rfl⟩⟩

/-! ## A run of callbacks -/

/-- After so many callbacks each of them has left one event, and the events but those of the rate
limiter have taken the numbers from 1 on. -/
structure Numbered (callbacks : Nat) (s : Sender) : Prop where
  tallied : s.Tallied
  events : s.events.length = callbacks
  numbers : s.numbers = (List.range' 1 s.numbers.length).map UInt64.ofNat
  sequence : s.sequence = UInt64.ofNat s.numbers.length

/-- A new sender has taken no number. -/
theorem numbered_start (factory : TopicFactory) : Numbered 0 (start factory) :=
  ⟨tallied_start factory, rfl, rfl, rfl⟩

/-- A callback takes the next number or none. -/
theorem numbered_subCallback {n : Nat} (hs : Numbered n s)
    (hfixed : hasToDroneIds msgs s.factory.topicCfg.type = false) (c : Callback) :
    Numbered (n + 1) (s.subCallback msgs c) := by
  rcases subCallback_fixed hfixed c with
    ⟨_, htallied, ⟨hsequence, hevents⟩ | ⟨hsequence, event, hnumber, hevents⟩⟩
  · have hnumbers : (s.subCallback msgs c).numbers = s.numbers := by
      simp [numbers, hevents]
    refine ⟨htallied hs.tallied, ?_, ?_, ?_⟩
    · rw [hevents, List.length_append, hs.events]
      rfl
    · rw [hnumbers]
      exact hs.numbers
    · rw [hnumbers, hsequence]
      exact hs.sequence
  · have hnext : s.sequence + 1 = UInt64.ofNat (1 + s.numbers.length) := by
      rw [hs.sequence, Nat.add_comm, UInt64.ofNat_add]
      rfl
    have hnumbers : (s.subCallback msgs c).numbers = s.numbers ++ [s.sequence + 1] := by
      rw [numbers, hevents, List.filterMap_append, List.filterMap_cons_some hnumber]
      rfl
    refine ⟨htallied hs.tallied, ?_, ?_, ?_⟩
    · rw [hevents, List.length_append, hs.events]
      rfl
    · rw [hnumbers, List.length_append, List.length_singleton, List.range'_1_concat,
        List.map_append, ← hs.numbers, hnext]
      rfl
    · rw [hnumbers, hsequence, hnext, List.length_append, List.length_singleton, Nat.add_comm]

/-- A run of callbacks takes the numbers from 1 on. -/
theorem numbered_run {factory : TopicFactory}
    (hfixed : hasToDroneIds msgs factory.topicCfg.type = false) (callbacks : List Callback) :
    Numbered callbacks.length (run msgs (start factory) callbacks) := by
  have hrun : ∀ (callbacks : List Callback) (n : Nat) (s : Sender), Numbered n s →
      s.factory = factory → Numbered (n + callbacks.length) (run msgs s callbacks) := by
    intro callbacks
    induction callbacks with
    | nil => exact fun n s hs _ ↦ hs
    | cons c callbacks ih =>
      intro n s hs hfactory
      have hc : hasToDroneIds msgs s.factory.topicCfg.type = false := by rw [hfactory, hfixed]
      have hrest := ih (n + 1) (s.subCallback msgs c) (numbered_subCallback hs hc c)
        ((subCallback_fixed hc c).1.trans hfactory)
      rwa [List.length_cons, Nat.add_comm callbacks.length 1, ← Nat.add_assoc]
  simpa using hrun callbacks 0 (start factory) (numbered_start factory) rfl

/-- The sequence numbers of the published envelopes are among those that were taken. -/
theorem publications_sublist (s : Sender) :
    (s.publications.map fun publication ↦ publication.2.sequence).Sublist s.numbers := by
  unfold publications numbers
  induction s.events with
  | nil => exact .slnil
  | cons event events ih =>
    cases event with
    | published key envelope => simpa using ih.cons_cons envelope.sequence
    | limited => simpa [List.filterMap_cons] using ih
    | encodeFailed sequence => simpa [List.filterMap_cons] using ih.cons sequence
    | unconfigured sequence target => simpa [List.filterMap_cons] using ih.cons sequence
    | publishFailed sequence key => simpa [List.filterMap_cons] using ih.cons sequence

variable {callbacks : Nat}

/-- Below `2 ^ 64` callbacks the numbers are 1, 2, 3 and so on. -/
theorem Numbered.toNat_numbers (hs : Numbered callbacks s) (hlt : callbacks < 2 ^ 64) :
    s.numbers.map UInt64.toNat = List.range' 1 s.numbers.length := by
  have hle : s.numbers.length ≤ callbacks := hs.events ▸ List.length_filterMap_le _ _
  rw [hs.numbers, List.map_map, List.length_map, List.length_range']
  have hcast : ∀ n ∈ List.range' 1 s.numbers.length, (UInt64.ofNat n).toNat = n := by
    intro n hn
    rw [List.mem_range'_1] at hn
    exact UInt64.toNat_ofNat_of_lt' (Nat.lt_of_le_of_lt (by omega) hlt)
  exact (List.map_congr_left hcast).trans (List.map_id _)

/-- Below `2 ^ 64` callbacks the numbers ascend. -/
theorem Numbered.ascending (hs : Numbered callbacks s) (hlt : callbacks < 2 ^ 64) :
    s.numbers.Pairwise (· < ·) := by
  have hpairwise : (s.numbers.map UInt64.toNat).Pairwise (· < ·) := by
    rw [hs.toNat_numbers hlt]
    exact List.pairwise_lt_range'
  rw [List.pairwise_map] at hpairwise
  exact hpairwise.imp UInt64.lt_iff_toNat_lt.mpr

end Sender

/-! ## The receiver -/

namespace Reception

variable {msgs : List MessageType} {topicCfg : TopicCfg} {r : Reception}

/-- The sequence numbers of the envelopes that passed the checks. -/
def admitted (msgs : List MessageType) (topicCfg : TopicCfg) (r : Reception) : List UInt64 :=
  (r.calls.filter (admits msgs topicCfg)).map TransportEnvelope.sequence

private theorem frames_push (envelope : TransportEnvelope) :
    (r.push topicCfg envelope).metrics.toFrameCounts = r.metrics.toFrameCounts := by
  unfold push
  split
  · rfl
  · split <;> rfl

/-- The frame statistics are those of the admitted sequence numbers. -/
def Observed (msgs : List MessageType) (topicCfg : TopicCfg) (r : Reception) : Prop :=
  r.metrics.toFrameCounts = (r.admitted msgs topicCfg).foldl
    (fun state sequence ↦ observeCompleteFrameSequence sequence state) {}

/-- Only an admitted envelope moves the frame statistics. -/
theorem observed_step (himage : topicCfg.type = imageType) (r : Reception) (a : ReceptionAction)
    (r' : Reception) (hr : r.Observed msgs topicCfg) (h : r.step msgs topicCfg a = some r') :
    r'.Observed msgs topicCfg := by
  unfold Observed at hr ⊢
  cases a with
  | enqueue envelope =>
    cases h
    simp only [admitted, List.filter_append, List.map_append, List.foldl_append] at hr ⊢
    rw [← hr]
    unfold enqueueEnvelope
    split
    · next hpasses =>
      rw [frames_push, observe, if_pos himage]
      simp [hpasses]
    · next hpasses => simp [hpasses]
  | pop =>
    rcases step_pop h with ⟨_, _, _, _, rfl⟩
    exact hr
  | publish latencyNow now =>
    rcases step_publish h with ⟨_, _, rfl⟩
    rw [frames_recordReceive]
    exact hr
  | fail =>
    rcases step_fail h with ⟨_, _, rfl⟩
    exact hr
  | stop =>
    cases h
    exact hr

/-- The frame statistics of every image receiver are those of the admitted sequence numbers. -/
theorem observed_of_reachable (himage : topicCfg.type = imageType)
    (h : (reception msgs topicCfg).Reachable r) : r.Observed msgs topicCfg := by
  apply h.invariant
  · rintro _ rfl
    rfl
  · exact observed_step himage

end Reception

/-- Ascending numbers from 1 on that reach a fresh receiver: the frames expected span from the first
to the last one. -/
theorem observe_delivered {first : UInt64} {rest : List UInt64} (hpos : 0 < first.toNat)
    (hasc : (first :: rest).Pairwise (· < ·)) {frames : FrameCounts}
    (hframes : frames = (first :: rest).foldl
      (fun state sequence ↦ observeCompleteFrameSequence sequence state) {}) :
    frames.Balanced ∧ frames.transportCompleteFrames.toNat = rest.length + 1 ∧
      frames.expectedFrames.toNat = (rest.getLastD first).toNat - first.toNat + 1 := by
  have hlast := (rest.getLastD first).toNat_lt
  have hstart : observeCompleteFrameSequence first {} = {
      frameSequenceInitialized := true
      lastFrameSequence := first
      expectedFrames := 1
      transportCompleteFrames := 1 } := rfl
  rw [List.foldl_cons, hstart] at hframes
  rcases observe_ascending first {
      frameSequenceInitialized := true
      lastFrameSequence := first
      expectedFrames := 1
      transportCompleteFrames := 1 } rfl rfl hasc
    (by simp only [UInt64.toNat_one]; omega) with ⟨hbalanced, hcomplete, hexpected⟩
  rw [← hframes] at hbalanced hcomplete hexpected
  simp only [UInt64.toNat_one] at hcomplete hexpected
  exact ⟨hbalanced, by omega, by omega⟩

/-! ## Sender and receiver -/

/-- What a sender reports after so many callbacks: one event for each of them, the numbers from 1 on
for all but the rate-limited ones, and counters that account for all. -/
structure SenderReport (callbacks : Nat) (s : Sender) : Prop where
  events : s.events.length = callbacks
  numbers : s.numbers.map UInt64.toNat = List.range' 1 s.numbers.length
  ascending : (s.publications.map fun publication ↦
    publication.2.sequence.toNat).Pairwise (· < ·)
  accounted : callbacks = s.metrics.totalSent.toNat + s.metrics.droppedMessages.toNat

/-- What a receiver infers from the numbers that were delivered, of those that were taken: the
frames from the first to the last one are expected, and lost are those in between that were taken
and not delivered. -/
structure LossInferred (taken : List UInt64) (first : UInt64) (rest : List UInt64)
    (frames : FrameCounts) : Prop where
  expected : frames.expectedFrames.toNat = (rest.getLastD first).toNat - first.toNat + 1
  complete : frames.transportCompleteFrames.toNat = (first :: rest).length
  lost : frames.inferredLostFrames.toNat = (taken.filter fun number ↦
    first ≤ number ∧ number ≤ rest.getLastD first ∧ number ∉ first :: rest).length

/-- Below `2 ^ 64` callbacks the counters of a sender are exact. -/
theorem Sender.Numbered.report {callbacks : Nat} {s : Sender} (hs : s.Numbered callbacks)
    (hlt : callbacks < 2 ^ 64) : SenderReport callbacks s := by
  have hcounts : s.events.length =
      s.events.countP (fun event ↦ !event.isDrop) + s.events.countP SendEvent.isDrop := by
    rw [List.length_eq_countP_add_countP SendEvent.isDrop, Nat.add_comm]
    simp
  rw [hs.events] at hcounts
  refine ⟨hs.events, hs.toNat_numbers hlt, ?_, ?_⟩
  · have hascending := (hs.ascending hlt).sublist s.publications_sublist
    rw [List.pairwise_map] at hascending ⊢
    exact hascending.imp UInt64.lt_iff_toNat_lt.mp
  · rw [hs.tallied.sent, hs.tallied.dropped, UInt64.toNat_ofNat_of_lt', UInt64.toNat_ofNat_of_lt']
    · exact hcounts
    · exact Nat.lt_of_le_of_lt (by omega) hlt
    · exact Nat.lt_of_le_of_lt (by omega) hlt

private theorem length_missing {taken : List UInt64} {count : Nat}
    (hnumbers : taken.map UInt64.toNat = List.range' 1 count) {first : UInt64}
    {rest : List UInt64} (hsub : (first :: rest).Sublist taken)
    (hlast : rest.getLastD first ∈ taken)
    (hle : ∀ number ∈ first :: rest, first ≤ number ∧ number ≤ rest.getLastD first) :
    (taken.filter fun number ↦
        first ≤ number ∧ number ≤ rest.getLastD first ∧ number ∉ first :: rest).length =
      (rest.getLastD first).toNat - first.toNat + 1 - (first :: rest).length := by
  have hnodup : taken.Nodup := by
    apply List.Nodup.of_map UInt64.toNat
    rw [hnumbers]
    exact List.nodup_range'
  have hmem : ∀ n, n ∈ taken.map UInt64.toNat ↔ 1 ≤ n ∧ n < 1 + count := by
    intro n
    rw [hnumbers, List.mem_range'_1]
  have hfinset : ((taken.filter fun number ↦ first ≤ number ∧ number ≤ rest.getLastD first ∧
      number ∉ first :: rest).map UInt64.toNat).toFinset =
        Finset.Icc first.toNat (rest.getLastD first).toNat \
          ((first :: rest).map UInt64.toNat).toFinset := by
    ext n
    simp only [List.mem_toFinset, List.mem_map, List.mem_filter, decide_eq_true_eq,
      Finset.mem_sdiff, Finset.mem_Icc]
    constructor
    · rintro ⟨number, ⟨hm, hfirst, hlast, hnot⟩, rfl⟩
      refine ⟨⟨UInt64.le_iff_toNat_le.mp hfirst, UInt64.le_iff_toNat_le.mp hlast⟩, ?_⟩
      rintro ⟨number', hm', heq⟩
      rw [UInt64.toNat_inj] at heq
      exact hnot (heq ▸ hm')
    · rintro ⟨⟨hfirst, hlast'⟩, hnot⟩
      have hn : n ∈ taken.map UInt64.toNat := by
        have hlow := ((hmem _).mp (List.mem_map_of_mem (hsub.subset List.mem_cons_self))).1
        have hhigh := ((hmem _).mp (List.mem_map_of_mem hlast)).2
        exact (hmem n).mpr ⟨by omega, by omega⟩
      rcases List.mem_map.mp hn with ⟨number, hm, rfl⟩
      refine ⟨number, ⟨hm, UInt64.le_iff_toNat_le.mpr hfirst, UInt64.le_iff_toNat_le.mpr hlast',
        ?_⟩, rfl⟩
      intro hdelivered
      exact hnot ⟨number, hdelivered, rfl⟩
  have hinjective : Function.Injective UInt64.toNat := fun _ _ ↦ UInt64.toNat_inj.mp
  rw [← List.length_map (f := UInt64.toNat),
    ← List.toFinset_card_of_nodup ((hnodup.filter _).map hinjective), hfinset,
    Finset.card_sdiff_of_subset, Nat.card_Icc,
    List.toFinset_card_of_nodup ((hnodup.sublist hsub).map hinjective), List.length_map]
  · have hfirst := UInt64.le_iff_toNat_le.mp (hle first List.mem_cons_self).2
    omega
  · intro n hn
    rcases List.mem_map.mp (List.mem_toFinset.mp hn) with ⟨number, hm, rfl⟩
    exact Finset.mem_Icc.mpr ⟨UInt64.le_iff_toNat_le.mp (hle number hm).1,
      UInt64.le_iff_toNat_le.mp (hle number hm).2⟩

/-- A fixed-route sender of fewer than `2 ^ 64` callbacks, and any image receiver that gets some of
its envelopes in their order: the numbers that were taken and not delivered are the losses. -/
theorem losses_inferred (msgs : List MessageType) (factory : TopicFactory)
    (hfixed : hasToDroneIds msgs factory.topicCfg.type = false) (callbacks : List Callback)
    (hlt : callbacks.length < 2 ^ 64) :
    SenderReport callbacks.length (Sender.run msgs (.start factory) callbacks) ∧
      ∀ (topicCfg : TopicCfg) (r : Reception) (first : UInt64) (rest : List UInt64),
        topicCfg.type = imageType → (reception msgs topicCfg).Reachable r →
        (r.calls.filter (admits msgs topicCfg)).Sublist
          ((Sender.run msgs (.start factory) callbacks).publications.map Prod.snd) →
        r.admitted msgs topicCfg = first :: rest →
        LossInferred (Sender.run msgs (.start factory) callbacks).numbers first rest
          r.metrics.toFrameCounts := by
  have hs := Sender.numbered_run hfixed callbacks
  refine ⟨hs.report hlt, ?_⟩
  intro topicCfg r first rest himage hr hdelivered hadmitted
  have hsub : (first :: rest).Sublist (Sender.run msgs (.start factory) callbacks).numbers := by
    have hmap := hdelivered.map TransportEnvelope.sequence
    rw [List.map_map, ← Reception.admitted, hadmitted] at hmap
    exact hmap.trans (Sender.publications_sublist _)
  have hasc := (hs.ascending hlt).sublist hsub
  have hnumbers := hs.toNat_numbers hlt
  have hpos : 0 < first.toNat := by
    have hm := List.mem_map_of_mem (f := UInt64.toNat) (hsub.subset List.mem_cons_self)
    rw [hnumbers, List.mem_range'_1] at hm
    exact hm.1
  have hobserved := Reception.observed_of_reachable himage hr
  rw [Reception.Observed, hadmitted] at hobserved
  rcases observe_delivered hpos hasc hobserved with ⟨hbalanced, hcomplete, hexpected⟩
  refine ⟨hexpected, hcomplete, ?_⟩
  rw [length_missing hnumbers hsub (hsub.subset List.getLastD_mem_cons)]
  · unfold FrameCounts.Balanced at hbalanced
    rw [List.length_cons]
    omega
  · intro number hm
    refine ⟨?_, le_getLastD hasc number hm⟩
    rcases List.mem_cons.mp hm with rfl | hm
    · exact UInt64.le_refl _
    · exact UInt64.le_of_lt (List.rel_of_pairwise_cons hasc hm)

/-- A sender of images. -/
def imageSender : TopicFactory where
  topicCfg := { imageReceiver with myHostname := ascii "drone1" }
  sendOrRecv := .send
  transport := .image
  sender := some ⟨.image, topicFanoutKey (ascii "drone1") (ascii "/camera"), .state⟩

/-- A message that is encoded and put, with the clock at zero. -/
def sentMessage : Callback := { message := { encoded := some [] } }

/-- A message whose encoder throws, with the clock at zero. -/
def brokenMessage : Callback := { message := { encoded := none } }

private theorem subCallback_sent (sequence : UInt64) (metrics : TopicRuntimeState)
    (events : List SendEvent) :
    Sender.subCallback [] ⟨imageSender, {}, sequence, metrics, events⟩ sentMessage =
      ⟨imageSender, {}, sequence + 1, recordSend imageSender.topicCfg 0 {} metrics, events ++
        [.published (topicFanoutKey (ascii "drone1") (ascii "/camera"))
          (imageEnvelope (sequence + 1))]⟩ := by
  have hfits : (imageEnvelope (sequence + 1)).Fits := by
    refine ⟨rfl, ?_, ?_, ?_, ?_, ?_⟩ <;> exact Nat.le_of_ble_eq_true rfl
  have hencode := (encodeEnvelope_ok_iff _ [] (some [])).mpr hfits
  unfold Sender.subCallback
  rw [sentMessage, Sender.sendFreqControl_zero rfl]
  dsimp only
  have hfixed : ¬hasToDroneIds [] imageSender.topicCfg.type = true := by decide
  rw [if_neg hfixed]
  change Sender.publish _ _ (imageEnvelope (sequence + 1)) true {} = _
  rw [Sender.publish, hencode]
  rfl

private theorem subCallback_broken (sequence : UInt64) (metrics : TopicRuntimeState)
    (events : List SendEvent) :
    Sender.subCallback [] ⟨imageSender, {}, sequence, metrics, events⟩ brokenMessage =
      ⟨imageSender, {}, sequence + 1, recordDrop metrics,
        events ++ [.encodeFailed (sequence + 1)]⟩ := by
  unfold Sender.subCallback
  rw [brokenMessage, Sender.sendFreqControl_zero rfl]
  rfl

private theorem run_broken (n : Nat) (sequence : UInt64) (metrics : TopicRuntimeState)
    (events : List SendEvent) : ∃ metrics' events',
      Sender.run [] ⟨imageSender, {}, sequence, metrics, events⟩ (List.replicate n brokenMessage) =
        ⟨imageSender, {}, sequence + UInt64.ofNat n, metrics', events'⟩ ∧
      events'.filterMap SendEvent.publication = events.filterMap SendEvent.publication := by
  induction n generalizing sequence metrics events with
  | zero => exact ⟨metrics, events, by simp [Sender.run], rfl⟩
  | succ n ih =>
    rcases ih (sequence + 1) (recordDrop metrics) (events ++ [.encodeFailed (sequence + 1)]) with
      ⟨metrics', events', hrun, hpublications⟩
    refine ⟨metrics', events', ?_, ?_⟩
    · rw [List.replicate_succ, Sender.run, List.foldl_cons, subCallback_broken, ← Sender.run, hrun,
        UInt64.ofNat_add, UInt64.add_assoc, UInt64.add_comm (UInt64.ofNat n)]
      rfl
    · simpa [List.filterMap_cons] using hpublications

/-- The first and the last message are published, the second one is not encoded: a receiver of the
former infers one lost frame. -/
theorem losses_inferred_gap :
    ∃ r : Reception, LossInferred
        (Sender.run [] (.start imageSender) [sentMessage, brokenMessage, sentMessage]).numbers
        1 [3] r.metrics.toFrameCounts ∧ r.metrics.inferredLostFrames = 1 := by
  have hpublications : (Sender.run [] (.start imageSender)
      [sentMessage, brokenMessage, sentMessage]).publications.map Prod.snd =
        [imageEnvelope 1, imageEnvelope 3] := by
    simp only [Sender.run, Sender.start, List.foldl_cons, List.foldl_nil, subCallback_sent,
      subCallback_broken]
    rfl
  refine ⟨_, (losses_inferred [] imageSender rfl [sentMessage, brokenMessage, sentMessage]
    (by decide)).2 imageReceiver _ 1 [3] rfl ⟨.start imageReceiver,
      [.enqueue (imageEnvelope 1), .enqueue (imageEnvelope 3)], rfl, rfl⟩ ?_ rfl, rfl⟩
  rw [hpublications]
  exact List.Sublist.refl _

/-- Once `2 ^ 64` callbacks have taken a number, the numbers start again from zero. -/
theorem sequence_numbers_wrap :
    ∃ callbacks : List Callback, callbacks.length = 2 ^ 64 ∧
      (Sender.run [] (.start imageSender) callbacks).publications.map
        (fun publication ↦ publication.2.sequence) = [1, 0] := by
  have hwrap : ∀ n, ((Sender.run [] (.start imageSender) (sentMessage ::
      (List.replicate n brokenMessage ++ [sentMessage]))).publications.map
        fun publication ↦ publication.2.sequence) = [1, 1 + UInt64.ofNat n + 1] := by
    intro n
    rcases run_broken n 1 (recordSend imageSender.topicCfg 0 {} (initialMetrics
      imageSender.topicCfg)) [.published (topicFanoutKey (ascii "drone1") (ascii "/camera"))
        (imageEnvelope 1)] with ⟨metrics, events, hrun, hpublications⟩
    have hfirst : Sender.subCallback [] (.start imageSender) sentMessage = _ :=
      subCallback_sent 0 (initialMetrics imageSender.topicCfg) []
    rw [Sender.run] at hrun
    rw [Sender.run, List.foldl_cons, hfirst, List.foldl_append]
    simp only [UInt64.zero_add, List.nil_append]
    rw [hrun, List.foldl_cons, subCallback_sent, List.foldl_nil, Sender.publications,
      List.filterMap_append, hpublications]
    rfl
  refine ⟨sentMessage :: (List.replicate (2 ^ 64 - 2) brokenMessage ++ [sentMessage]), ?_, ?_⟩
  · rw [List.length_cons, List.length_append, List.length_replicate]
    rfl
  · rw [hwrap]
    decide

end NetBridge.Topic
