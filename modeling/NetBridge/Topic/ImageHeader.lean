import NetBridge.Topic.Sender
import NetBridge.Transport.WireFormat

/-!
# Headers of images

An image travels as its JPEG data, so its header is rebuilt from the envelope: `deserializePub`
for images, `src/swarm_ros_bridge/src/topic_factory.cpp:349–369`. The stamp crosses the wire as a
number of nanoseconds.
-/

namespace NetBridge.Base.RosTime

/-- `fromNSec`. `none` stands for its exception where the seconds exceed 32 bits. -/
def fromNSec (t : UInt64) : Option RosTime :=
  if 4294967295 < t / 1000000000 then none
  else some ⟨(t / 1000000000).toUInt32, (t % 1000000000).toUInt32⟩

/-- The nanoseconds of a time are counted without wrapping. -/
theorem toNat_toNSec (time : RosTime) :
    time.toNSec.toNat = time.sec.toNat * 1000000000 + time.nsec.toNat := by
  have hs := time.sec.toNat_lt
  have hn := time.nsec.toNat_lt
  have hc : (1000000000 : UInt64).toNat = 1000000000 := rfl
  rw [toNSec, UInt64.toNat_add, UInt64.toNat_mul, UInt32.toNat_toUInt64, UInt32.toNat_toUInt64,
    hc]
  omega

/-- A normalised time comes back from its nanoseconds. -/
theorem fromNSec_toNSec {time : RosTime} (h : time.nsec.toNat < 1000000000) :
    fromNSec time.toNSec = some time := by
  have hs := time.sec.toNat_lt
  have ht := toNat_toNSec time
  have hdiv : (time.toNSec / 1000000000).toNat = time.sec.toNat := by
    rw [UInt64.toNat_div, ht]
    show _ / 1000000000 = _
    omega
  have hmod : (time.toNSec % 1000000000).toNat = time.nsec.toNat := by
    rw [UInt64.toNat_mod, ht]
    show _ % 1000000000 = _
    omega
  rw [fromNSec, if_neg]
  · congr 1
    have hsec : (time.toNSec / 1000000000).toUInt32 = time.sec := by
      rw [← UInt32.toNat_inj, UInt64.toNat_toUInt32, hdiv]
      omega
    have hnsec : (time.toNSec % 1000000000).toUInt32 = time.nsec := by
      rw [← UInt32.toNat_inj, UInt64.toNat_toUInt32, hmod]
      omega
    rw [hsec, hnsec]
  · rw [UInt64.lt_iff_toNat_lt, hdiv]
    show ¬4294967295 < _
    omega

/-- Only the zero time counts no nanoseconds. -/
theorem toNSec_pos {time : RosTime} (h : time ≠ {}) : 0 < time.toNSec.toNat := by
  rw [toNat_toNSec]
  apply Nat.pos_of_ne_zero
  intro hz
  apply h
  have hsec : time.sec = 0 := by
    rw [← UInt32.toNat_inj]
    show time.sec.toNat = 0
    omega
  have hnsec : time.nsec = 0 := by
    rw [← UInt32.toNat_inj]
    show time.nsec.toNat = 0
    omega
  cases time
  simp_all

end NetBridge.Base.RosTime

namespace NetBridge.Topic

open NetBridge.Base NetBridge.Diagnostics NetBridge.Transport

/-- `deserializePub` for images with its exceptions; `topic_factory.cpp:353–369`. `imdecode`
decodes a JPEG image, or yields an empty frame. -/
def deserializeImage {Frame : Type} (imdecode : Bytes → Option Frame)
    (envelope : TransportEnvelope) : Except Bytes (MessageHeader × Frame) :=
  if envelope.payloadKind ≠ .jpeg then
    .error (ascii "image topic received a non-JPEG payload")
  else
    match imdecode envelope.payload with
    | none => .error (ascii "JPEG decode failed")
    | some frame =>
      let stamp :=
        if envelope.sourceTimeNs > 0 then RosTime.fromNSec envelope.sourceTimeNs.toUInt64
        else some {}
      match stamp with
      | none => .error (ascii "Time is out of dual 32-bit range")
      | some stamp => .ok ({ stamp, seq := envelope.sourceHeaderSequence,
                             frameId := envelope.frameId }, frame)

/-- The stamp of an envelope is a number of nanoseconds that a signed word holds. -/
theorem toInt_rosTimeToNs (stamp : RosTime) :
    (rosTimeToNs stamp).toInt = stamp.sec.toNat * 1000000000 + stamp.nsec.toNat := by
  have hs := stamp.sec.toNat_lt
  have hn := stamp.nsec.toNat_lt
  have ht := RosTime.toNat_toNSec stamp
  unfold rosTimeToNs
  split
  · next hz =>
    simp only [RosTime.isZero, Bool.and_eq_true, decide_eq_true_eq] at hz
    rw [hz.1, hz.2]
    rfl
  · rw [← Int64.toInt_toBitVec, UInt64.toBitVec_toInt64, BitVec.toInt_eq_toNat_of_lt]
    · show (stamp.toNSec.toNat : Int) = _
      omega
    · show 2 * stamp.toNSec.toNat < 18446744073709551616
      omega

/-- The stamp of an envelope is zero only for the zero time. -/
theorem rosTimeToNs_pos_iff (stamp : RosTime) : 0 < rosTimeToNs stamp ↔ stamp ≠ {} := by
  have ht := toInt_rosTimeToNs stamp
  rw [Int64.lt_iff_toInt_lt, ht]
  constructor
  · rintro h rfl
    exact absurd h (by decide)
  · intro h
    have hpos := RosTime.toNSec_pos h
    rw [RosTime.toNat_toNSec] at hpos
    show (0 : Int) < _
    omega

/-- The stamp that `deserializePub` rebuilds is the one that `subCallback` has read. -/
theorem stamp_survives {stamp : RosTime} (h : stamp.nsec.toNat < 1000000000) :
    (if rosTimeToNs stamp > 0 then RosTime.fromNSec (rosTimeToNs stamp).toUInt64
      else some {}) = some stamp := by
  by_cases hz : stamp = {}
  · rw [hz]
    rfl
  · have hne : stamp.isZero = false := by
      apply Bool.eq_false_iff.mpr
      intro ht
      simp only [RosTime.isZero, Bool.and_eq_true, decide_eq_true_eq] at ht
      apply hz
      cases stamp
      simp_all
    rw [if_pos ((rosTimeToNs_pos_iff stamp).mpr hz), rosTimeToNs, hne, if_neg Bool.false_ne_true,
      UInt64.toUInt64_toInt64]
    exact RosTime.fromNSec_toNSec h

/-- The header of an image comes back from the wire as it was: the envelope of its callback is
encoded whenever its other parts fit the format, and it is decoded to one from which the same
header is rebuilt. No stamp overflows, and only the zero stamp counts as missing. -/
theorem image_header_survives (msgs : List MessageType) (topicCfg : TopicCfg)
    (himage : topicCfg.type = imageType) (sequence : UInt64) (c : Callback)
    (header : MessageHeader) (hheader : c.message.header = some header)
    (hnsec : header.stamp.nsec.toNat < 1000000000) (hframe : header.frameId.length ≤ 65535)
    (payload : Bytes) :
    (∀ (output : Bytes) (error : Option Bytes),
      (encodeEnvelope (c.envelope msgs topicCfg sequence payload) (some output) error).1 = true ↔
        topicCfg.myHostname.length ≤ 65535 ∧
        (rosTypeMd5 msgs topicCfg.type).length ≤ 65535 ∧
        payload.length ≤ kMaxEnvelopePayloadBytes) ∧
    (∀ (output wire prior : _) (error error' error'' : Option Bytes),
      encodeEnvelope (c.envelope msgs topicCfg sequence payload) (some output) error =
        (true, some wire, error') →
      ∃ envelope, decodeEnvelope (some wire) (some prior) error'' =
          (true, some envelope, error'') ∧
        ∀ (Frame : Type) (imdecode : Bytes → Option Frame) (frame : Frame),
          imdecode payload = some frame →
          deserializeImage imdecode envelope = .ok (header, frame)) ∧
    (rosTimeToNs header.stamp).toInt =
      header.stamp.sec.toNat * 1000000000 + header.stamp.nsec.toNat ∧
    (header.stamp ≠ {} → 0 < rosTimeToNs header.stamp) := by
  have henvelope : c.envelope msgs topicCfg sequence payload = buildEnvelope msgs topicCfg
      sequence (rosTimeToNs header.stamp) header.seq header.frameId payload := by
    rw [Callback.envelope, hheader]
  have htype : topicCfg.type.length ≤ 65535 := by
    rw [himage]
    decide
  rw [henvelope]
  refine ⟨?_, ?_, toInt_rosTimeToNs _, (rosTimeToNs_pos_iff _).mpr⟩
  · intro output error
    rw [encodeEnvelope_ok_iff]
    constructor
    · intro h
      exact ⟨h.sourceHost, h.rosMd5, h.payload⟩
    · intro h
      exact ⟨rfl, h.1, htype, h.2.1, hframe, h.2.2⟩
  · intro output wire prior error error' error'' hencode
    have hfits := (encodeEnvelope_ok_iff _ output error).mp (by rw [hencode])
    rw [encodeEnvelope_of_fits _ hfits] at hencode
    have hwire : frame 0 (buildEnvelope msgs topicCfg sequence (rosTimeToNs header.stamp)
        header.seq header.frameId payload) = wire := by
      simpa using congrArg (·.2.1) hencode
    rw [← hwire]
    refine ⟨_, decodeEnvelope_frame _ hfits 0 prior error'', ?_⟩
    intro Frame imdecode frame hdecode
    have hkind : builtPayloadKind topicCfg = .jpeg := if_pos himage
    simp only [deserializeImage, buildEnvelope, hkind, ne_eq, not_true_eq_false, if_false,
      hdecode, stamp_survives hnsec]

/-- A sender of images. -/
def cameraCfg : TopicCfg := { name := ascii "/camera", type := imageType }

/-- An image with the latest stamp there is. -/
def latestImage : Callback where
  message :=
    { header := some { stamp := ⟨4294967295, 999999999⟩, seq := 7 }, encoded := some [255] }

/-- The latest stamp that ROS can hold. -/
theorem image_header_survives_latest :
    (encodeEnvelope (latestImage.envelope [] cameraCfg 1 [255]) (some []) none).1 = true ∧
    (rosTimeToNs ⟨4294967295, 999999999⟩).toInt = 4294967295999999999 ∧
    0 < rosTimeToNs ⟨4294967295, 999999999⟩ := by
  have h := image_header_survives [] cameraCfg rfl 1 latestImage
    { stamp := ⟨4294967295, 999999999⟩, seq := 7 } rfl (by decide) (by decide) [255]
  exact ⟨(h.1 [] none).mpr ⟨by decide, by decide, by decide⟩, h.2.2.1, h.2.2.2 (by decide)⟩

end NetBridge.Topic
