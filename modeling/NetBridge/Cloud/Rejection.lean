import NetBridge.Base.Assigning
import NetBridge.Cloud.Codec
import NetBridge.Transport.WireFormat

/-!
# Rejected clouds and frames

The codecs with their assignments to the output where the source has them:
`DracoPointCloudCodec::Encode` and `Decode`,
`src/swarm_ros_bridge/src/transport/draco_pointcloud_codec.cpp:412–601`, and the envelope codec,
`src/transport/bridge_transport.cpp:90–194`. Every exit that returns false leaves the output as
it was, but for an encoded frame, which is cleared.
-/

namespace NetBridge.Cloud

open NetBridge.Base NetBridge.Transport

/-- `DracoPointCloudCodec::Encode` up to its two assignments of `*output`;
`draco_pointcloud_codec.cpp:412–499`. -/
def encodeInto (draco : Draco) (message : PointCloud2) : Assigning EncodedPointCloud Unit := do
  Assigning.requireOutput
  let pointCount ← orReject (validateMessageStorage message)
  if pointCount = 0 then
    Assigning.assign { encodedMetadata message {} with sidecarBytes := message.data }
  else
    let layout ← orReject (parseLayout message.fields message.pointStep)
    let sidecarBytes ← extractSidecar message layout
    let builder ← forRange pointCount.toNat (encodePoint message layout)
      (PointCloudBuilder.start pointCount.toUInt32 layout)
    let payload ← orReject (draco.encode builder.finalize)
    Assigning.assign { encodedMetadata message layout with sidecarBytes, payload }

/-- `DracoPointCloudCodec::Decode` up to its two assignments of `*message`;
`draco_pointcloud_codec.cpp:501–601`. -/
def decodeInto (draco : Draco) (input : EncodedPointCloud) : Assigning PointCloud2 Unit := do
  Assigning.requireOutput
  require (input.formatVersion = kLayoutFormatVersion)
  let data ← assignZero (input.originalRowStep.toUInt64 * input.originalHeight.toUInt64)
  let decoded := decodedMetadata input data
  let pointCount ← orReject (validateMessageStorage decoded)
  if pointCount = 0 then
    require (input.payload = [] && input.sidecarBytes.length = decoded.data.length)
    Assigning.assign { decoded with data := input.sidecarBytes }
  else
    Assigning.assign (← decodePoints draco input decoded pointCount)

private theorem encodeInto_eq (draco : Draco) (message : PointCloud2) :
    encodeInto draco message = Assigning.requireOutput >>= fun _ ↦
      Assigning.ofChecked (encodeCloud draco message) >>= Assigning.assign := by
  unfold encodeInto encodeCloud
  congr 1
  funext _
  rw [Assigning.ofChecked_bind, bind_assoc]
  congr 1
  funext pointCount
  split
  · rw [Checked.pure_eq, Assigning.ofChecked_ok]
  · simp only [Assigning.ofChecked_bind, bind_assoc, Checked.pure_eq, Assigning.ofChecked_ok]
    rfl

private theorem decodeInto_eq (draco : Draco) (input : EncodedPointCloud) :
    decodeInto draco input = Assigning.requireOutput >>= fun _ ↦
      Assigning.ofChecked (decodeCloud draco input) >>= Assigning.assign := by
  unfold decodeInto decodeCloud
  congr 1
  funext _
  simp only [Assigning.ofChecked_bind, bind_assoc]
  congr 1
  funext _
  congr 1
  funext data
  congr 1
  funext pointCount
  split
  · simp only [Assigning.ofChecked_bind, bind_assoc, Checked.pure_eq, Assigning.ofChecked_ok]
    rfl
  · rfl

/-- The assignments are those of the encoder's outcome. -/
theorem call_encodeInto (draco : Draco) (message : PointCloud2)
    (output : Option EncodedPointCloud) :
    (encodeInto draco message).call output = encode draco message output := by
  rw [encodeInto_eq, Assigning.call_assign]
  cases output <;> rfl

/-- The assignments are those of the decoder's outcome. -/
theorem call_decodeInto (draco : Draco) (input : EncodedPointCloud) (message : Option PointCloud2) :
    (decodeInto draco input).call message = decode draco input message := by
  rw [decodeInto_eq, Assigning.call_assign]
  cases message <;> rfl

/-- No exit of the encoder that ends early comes behind an assignment. -/
theorem traceless_encodeInto (draco : Draco) (message : PointCloud2) :
    (encodeInto draco message).Traceless := by
  apply Assigning.silent_requireOutput.bind_traceless
  intro _
  apply (Assigning.silent_ofChecked _).bind_traceless
  intro pointCount
  split
  · exact Assigning.traceless_assign _
  · apply (Assigning.silent_ofChecked _).bind_traceless
    intro layout
    apply (Assigning.silent_ofChecked _).bind_traceless
    intro sidecarBytes
    apply (Assigning.silent_ofChecked _).bind_traceless
    intro builder
    apply (Assigning.silent_ofChecked _).bind_traceless
    intro payload
    exact Assigning.traceless_assign _

/-- No exit of the decoder that ends early comes behind an assignment. -/
theorem traceless_decodeInto (draco : Draco) (input : EncodedPointCloud) :
    (decodeInto draco input).Traceless := by
  apply Assigning.silent_requireOutput.bind_traceless
  intro _
  apply (Assigning.silent_ofChecked _).bind_traceless
  intro _
  apply (Assigning.silent_ofChecked _).bind_traceless
  intro data
  apply (Assigning.silent_ofChecked _).bind_traceless
  intro pointCount
  split
  · apply (Assigning.silent_ofChecked _).bind_traceless
    intro _
    exact Assigning.traceless_assign _
  · apply (Assigning.silent_ofChecked _).bind_traceless
    intro decoded
    exact Assigning.traceless_assign _

private theorem exists_text {text : String} (h : ascii text ≠ []) {error : Option Bytes}
    (hnonnull : error.isSome = true) :
    ∃ reported ≠ [], setError text error = some reported := by
  rcases Option.isSome_iff_exists.mp hnonnull with ⟨old, rfl⟩
  exact ⟨ascii text, h, rfl⟩

/-- What is rejected leaves no trace: the decoders and the encoder of clouds leave their output as
it was, a refused frame leaves its output as it was or empty, and the codec of frames says why. -/
theorem rejected_leaves_no_trace :
    (∀ (data : Option Bytes) (envelope : Option TransportEnvelope) (error : Option Bytes),
      (decodeEnvelope data envelope error).1 = false →
        (decodeEnvelope data envelope error).2.1 = envelope ∧
        (error.isSome = true →
          ∃ text ≠ [], (decodeEnvelope data envelope error).2.2 = some text)) ∧
    (∀ (draco : Draco) (message : PointCloud2) (output output' : Option EncodedPointCloud),
      (encodeInto draco message).call output = .ok (false, output') → output' = output) ∧
    (∀ (draco : Draco) (input : EncodedPointCloud) (message message' : Option PointCloud2),
      (decodeInto draco input).call message = .ok (false, message') → message' = message) ∧
    (∀ (envelope : TransportEnvelope) (output error : Option Bytes),
      (encodeEnvelope envelope output error).1 = false →
        ((encodeEnvelope envelope output error).2.1 = output ∨
          (encodeEnvelope envelope output error).2.1 = some []) ∧
        (error.isSome = true →
          ∃ text ≠ [], (encodeEnvelope envelope output error).2.2 = some text)) := by
  refine ⟨?_, ?_, ?_, ?_⟩
  · intro data envelope error hfalse
    cases data with
    | none => exact ⟨rfl, exists_text (by decide)⟩
    | some data =>
      cases envelope with
      | none => exact ⟨rfl, exists_text (by decide)⟩
      | some envelope =>
        rcases decodeEnvelope_rejected data envelope error hfalse with ⟨text, ht, hresult⟩
        rw [hresult]
        exact ⟨rfl, exists_text (decodeErrors_ne_nil text ht)⟩
  · intro draco message output output' h
    exact (traceless_encodeInto draco message).call_false h
  · intro draco input message message' h
    exact (traceless_decodeInto draco input).call_false h
  · intro envelope output error hfalse
    have hfits : ¬envelope.Fits ∨ output = none := by
      cases output with
      | none => exact Or.inr rfl
      | some output =>
        apply Or.inl
        intro hfits
        rw [encodeEnvelope_of_fits envelope hfits] at hfalse
        cases hfalse
    rcases hfits with hfits | rfl
    · refine ⟨output_of_not_fits envelope hfits output error, ?_⟩
      rcases encodeEnvelope_rejected envelope hfits output error with ⟨text, ht, -, hresult⟩
      rw [hresult]
      exact exists_text (encodeErrors_ne_nil text ht)
    · exact ⟨Or.inl rfl, exists_text (by decide)⟩

/-- A frame of one byte, a cloud of one column without rows, a cloud of another format version and
an envelope of another protocol version. -/
theorem rejected_leaves_no_trace_each :
    (decodeEnvelope (some [78]) (some imageEnvelope) (some [])).2.1 = some imageEnvelope ∧
    (∃ output, (encodeInto ⟨fun _ ↦ none, fun _ ↦ none⟩ { width := 1 }).call (some {}) =
      .ok (false, output) ∧ output = some {}) ∧
    (∃ message, (decodeInto ⟨fun _ ↦ none, fun _ ↦ none⟩ {}).call (some {}) =
      .ok (false, message) ∧ message = some {}) ∧
    ∃ text ≠ [],
      (encodeEnvelope { protocolVersion := 2 } (some []) (some [])).2.2 = some text := by
  refine ⟨(rejected_leaves_no_trace.1 _ _ _ (by decide)).1, ⟨some {}, rfl, ?_⟩,
    ⟨some {}, rfl, ?_⟩, (rejected_leaves_no_trace.2.2.2 _ _ _ (by decide)).2 rfl⟩
  · exact rejected_leaves_no_trace.2.1 ⟨fun _ ↦ none, fun _ ↦ none⟩ { width := 1 } _ _ rfl
  · exact rejected_leaves_no_trace.2.2.1 ⟨fun _ ↦ none, fun _ ↦ none⟩ {} _ _ rfl

end NetBridge.Cloud
