import NetBridge.Cloud.Codec
import NetBridge.Cloud.Sidecar

/-!
# Safety of the decoder

Which inputs let `DracoPointCloudCodec::Decode` return. The layout comes from the sender's
field list and the attributes from its payload; the decoder compares neither the size of the
attributes with its buffers, nor the presence of a colour attribute with the absence of colour
in the layout.
-/

namespace NetBridge.Cloud

open NetBridge.Base

/-- The index that the memory of a GENERIC attribute holds; bytes behind a short value are
zero. -/
def PointAttribute.index (a : PointAttribute) (i : Nat) : UInt32 := hostWord (a.value i) 0

/-- The three words of a position value, in the byte order of the message. -/
def positionWords (positionValue : Bytes) (bigendian : Bool) : Bytes :=
  uint32Bytes (hostWord positionValue 0) bigendian ++
    uint32Bytes (hostWord positionValue 4) bigendian ++
    uint32Bytes (hostWord positionValue 8) bigendian

/-- A position takes twelve bytes. -/
@[simp] theorem length_positionWords (positionValue : Bytes) (bigendian : Bool) :
    (positionWords positionValue bigendian).length = 12 := by
  simp [positionWords]

@[simp] private theorem length_wordAt (offset : Nat) : (wordAt offset).length = 4 := rfl

/-- Writing a position stores its words at the coordinates. -/
theorem writePosition_eq {layout : PointLayout} {pointStep : Nat} {p : Placement pointStep}
    (hl : layout.Realises p) {data : Bytes} {point : Nat}
    (hin : ∀ b ∈ p.bytes, point + b < data.length) (positionValue : Bytes) (bigendian : Bool) :
    writePosition positionValue bigendian layout data point =
      .ok (scatter data (shifted point p.xyz) (positionWords positionValue bigendian)) := by
  obtain ⟨hx, hy, hz⟩ := p.lt_of_bytes hin
  rw [writePosition, fieldAddress_eq hl.x, Checked.ok_bind, writeFloat32,
    writeUint32_eq hx, Checked.ok_bind, fieldAddress_eq hl.y, Checked.ok_bind,
    writeFloat32, writeUint32_eq (by rw [length_scatter]; exact hy), Checked.ok_bind,
    fieldAddress_eq hl.z, Checked.ok_bind, writeFloat32,
    writeUint32_eq (by rw [length_scatter, length_scatter]; exact hz), Placement.xyz,
    shifted_append, shifted_append, shifted_wordAt, shifted_wordAt, shifted_wordAt,
    positionWords, scatter_append_append _ _ _ (by simp), scatter_append_append _ _ _ (by simp)]

section

variable {decoded : PointCloud2} (h : decoded.Valid) {layout : PointLayout}
  {p : Placement decoded.pointStep.toNat} (hl : layout.Realises p)

/-- The sizes of the buffers of the decoding loop. -/
structure DecodeState.Sized (s : DecodeState) (g : Grid) : Prop where
  restored : s.restored.length = g.count
  positionValue : s.positionValue.length = 12
  colorValue : s.colorValue.length = 4
  data : s.data.length = g.size

/-- The value of a position attribute fits its buffer, and a colour attribute fits its buffer and
has a colour of the layout to go to. -/
structure DecodeAttributes.Storable (attributes : DecodeAttributes) (color : ColorPlace) :
    Prop where
  position : attributes.position.byteStride ≤ 12
  color : ∀ a ∈ attributes.color, color ≠ .none ∧ a.byteStride ≤ 4

/-- `position_value` after a round. -/
def DecodeAttributes.positionValue (attributes : DecodeAttributes) (index : Nat)
    (s : DecodeState) : Bytes :=
  attributes.position.value index ++
    s.positionValue.drop (attributes.position.value index).length

/-- `color_value` after a round with a colour attribute. -/
def colorValueAfter (color : PointAttribute) (index : Nat) (s : DecodeState) : Bytes :=
  color.value index ++ s.colorValue.drop (color.value index).length

/-- The state after a round that stores the point `index`, which names the point at `point`. -/
def storedState (p : Placement decoded.pointStep.toNat) (attributes : DecodeAttributes)
    (index point : Nat) (s : DecodeState) : DecodeState :=
  let positionValue := attributes.positionValue index s
  let bigendian := toBool decoded.isBigendian
  let data := scatter s.data (shifted point p.xyz) (positionWords positionValue bigendian)
  match attributes.color with
  | none => { s with positionValue, data }
  | some color =>
    let colorValue := colorValueAfter color index s
    { s with
      positionValue
      colorValue
      data := scatter data (shifted point p.color.bytes)
        (p.color.encode (colorOfMemory colorValue) bigendian) }

include hl in
/-- A round whose values fit stores them; any other round faults, but not for an address. -/
theorem storePoint_cases (attributes : DecodeAttributes) (index : Nat) {originalIndex : UInt32}
    (hi : originalIndex.toNat < (decoded.grid h).count) {s : DecodeState}
    (hs : s.Sized (decoded.grid h)) :
    (attributes.Storable p.color ∧
      storePoint decoded layout attributes index originalIndex s =
        .ok (storedState p attributes index ((decoded.grid h).point originalIndex.toNat) s)) ∨
    (¬attributes.Storable p.color ∧
      ∃ fault ≠ .outOfRange, storePoint decoded layout attributes index originalIndex s =
        .error (.fault fault)) := by
  by_cases hpos : attributes.position.byteStride ≤ 12
  · obtain ⟨offset, hoff, hpoint⟩ := pointDataOffset_eq h hi
    have hin : ∀ b ∈ p.bytes,
        (decoded.grid h).point originalIndex.toNat + b < s.data.length := by
      intro b hb
      rw [hs.data]
      exact Grid.point_lt hi (p.inside b hb)
    have hfit : (attributes.position.value index).length ≤ s.positionValue.length := by
      rw [attributes.position.length_value, hs.positionValue]
      exact hpos
    rw [storePoint, Checked.copyInto_of_le hfit, Checked.ok_bind, hoff, Checked.ok_bind, hpoint,
      writePosition_eq hl hin, Checked.ok_bind]
    cases hc : attributes.color with
    | none =>
      apply Or.inl
      refine ⟨⟨hpos, by simp [hc]⟩, ?_⟩
      simp only [storedState, hc]
      rfl
    | some color =>
      dsimp only
      by_cases hcfit : color.byteStride ≤ 4
      · have hcle : (color.value index).length ≤ s.colorValue.length := by
          rw [color.length_value, hs.colorValue]
          exact hcfit
        rw [Checked.copyInto_of_le hcle, Checked.ok_bind]
        by_cases hne : p.color = .none
        · apply Or.inr
          refine ⟨fun hst ↦ (hst.color color (by simp [hc])).1 hne, .nullPointer, by decide, ?_⟩
          have hat := hl.color
          rw [hne] at hat
          rw [writeColor_none hat]
          rfl
        · apply Or.inl
          refine ⟨⟨hpos, ?_⟩, ?_⟩
          · intro a ha
            rw [hc] at ha
            cases ha
            exact ⟨hne, hcfit⟩
          · rw [writeColor_eq hl.color hne, Checked.ok_bind]
            · simp only [storedState, hc]
              rfl
            · intro b hb
              rw [length_scatter]
              exact hin b (List.mem_append_right _ hb)
      · apply Or.inr
        refine ⟨fun hst ↦ hcfit (hst.color color (by simp [hc])).2, .bufferOverrun, by decide, ?_⟩
        rw [Checked.copyInto_of_lt (by rw [color.length_value, hs.colorValue]; omega)]
        rfl
  · apply Or.inr
    refine ⟨fun hst ↦ hpos hst.position, .bufferOverrun, by decide, ?_⟩
    rw [storePoint, Checked.copyInto_of_lt
      (by rw [attributes.position.length_value, hs.positionValue]; omega)]
    rfl

/-- Storing a point keeps the sizes of the buffers. -/
theorem sized_storedState {attributes : DecodeAttributes} (hst : attributes.Storable p.color)
    (index point : Nat) {s : DecodeState} (hs : s.Sized (decoded.grid h)) :
    (storedState p attributes index point s).Sized (decoded.grid h) := by
  have hpos : (attributes.positionValue index s).length = 12 := by
    have hfit := hst.position
    rw [DecodeAttributes.positionValue, List.length_append, List.length_drop,
      attributes.position.length_value, hs.positionValue]
    omega
  unfold storedState
  cases hc : attributes.color with
  | none => exact ⟨hs.restored, hpos, hs.colorValue, by rw [length_scatter]; exact hs.data⟩
  | some color =>
    refine ⟨hs.restored, hpos, ?_, by rw [length_scatter, length_scatter]; exact hs.data⟩
    have hfit := (hst.color color (by simp [hc])).2
    show (colorValueAfter color index s).length = 4
    rw [colorValueAfter, List.length_append, List.length_drop, color.length_value,
      hs.colorValue]
    omega

private theorem hostWord_copy {value : Bytes} (hle : value.length ≤ 4) :
    hostWord (value ++ [0, 0, 0, 0].drop value.length) 0 = hostWord value 0 := by
  match value, hle with
  | [], _ => rfl
  | [_], _ => rfl
  | [_, _], _ => rfl
  | [_, _, _], _ => rfl
  | [_, _, _, _], _ => rfl
  | _ :: _ :: _ :: _ :: _ :: rest, hle =>
    simp only [List.length_cons] at hle
    omega

/-- A round copies an index that fits, and stores the point if the index names one that has not
been restored. -/
theorem restorePoint_eq {pointCount : UInt64} (hcount : pointCount.toNat = (decoded.grid h).count)
    (attributes : DecodeAttributes) {index : Nat} {s : DecodeState}
    (hs : s.Sized (decoded.grid h)) (hg : attributes.pointIndex.byteStride ≤ 4) :
    restorePoint decoded pointCount layout attributes index s =
      let originalIndex := attributes.pointIndex.index index
      if originalIndex.toNat < (decoded.grid h).count ∧
          s.restored[originalIndex.toNat]? = some false then
        storePoint decoded layout attributes index originalIndex
          { s with restored := s.restored.set originalIndex.toNat true }
      else .error .rejected := by
  have hfit : (attributes.pointIndex.value index).length ≤ [0, 0, 0, (0 : UInt8)].length := by
    rw [attributes.pointIndex.length_value]
    exact hg
  rw [restorePoint, Checked.copyInto_of_le hfit, Checked.ok_bind, hostWord_copy hfit]
  show (require (decide ((attributes.pointIndex.index index).toUInt64 < pointCount)) >>= _) = _
  dsimp only
  by_cases hlt : (attributes.pointIndex.index index).toNat < (decoded.grid h).count
  · have hlt' : (attributes.pointIndex.index index).toUInt64 < pointCount := by
      rw [UInt64.lt_iff_toNat_lt, UInt32.toNat_toUInt64, hcount]
      exact hlt
    have hr : (attributes.pointIndex.index index).toNat < s.restored.length := by
      rw [hs.restored]
      exact hlt
    rw [decide_eq_true hlt', Checked.require_true, Checked.ok_bind]
    show (readAt s.restored (attributes.pointIndex.index index).toNat >>= _) = _
    rw [Checked.readAt_of_lt hr, Checked.ok_bind, List.getElem?_eq_getElem hr]
    cases hseen : s.restored[(attributes.pointIndex.index index).toNat] with
    | false =>
      rw [if_pos ⟨hlt, rfl⟩]
      show (writeAt s.restored (attributes.pointIndex.index index).toNat true >>= _) = _
      rw [Checked.writeAt_of_lt hr]
      rfl
    | true =>
      rw [if_neg fun he ↦ by cases he.2]
      rfl
  · have hlt' : ¬(attributes.pointIndex.index index).toUInt64 < pointCount := by
      rw [UInt64.lt_iff_toNat_lt, UInt32.toNat_toUInt64, hcount]
      exact hlt
    rw [decide_eq_false hlt', if_neg fun he ↦ hlt he.1]
    rfl

/-- An index that does not fit its buffer overruns it. -/
theorem restorePoint_overrun {pointCount : UInt64} (attributes : DecodeAttributes)
    {index : Nat} {s : DecodeState} (hg : 4 < attributes.pointIndex.byteStride) :
    restorePoint decoded pointCount layout attributes index s =
      .error (.fault .bufferOverrun) := by
  rw [restorePoint, Checked.copyInto_of_lt
    (by rw [attributes.pointIndex.length_value]; exact hg)]
  rfl

/-- Marking a point as restored keeps the sizes of the buffers. -/
theorem sized_set {s : DecodeState} (hs : s.Sized (decoded.grid h)) (i : Nat) :
    DecodeState.Sized { s with restored := s.restored.set i true } (decoded.grid h) :=
  ⟨by rw [List.length_set]; exact hs.restored, hs.positionValue, hs.colorValue, hs.data⟩

/-- The buffers that the decoding loop starts with. -/
theorem sized_start {pointCount : UInt64}
    (hcount : pointCount.toNat = (decoded.grid h).count) :
    DecodeState.Sized ⟨List.replicate pointCount.toNat false, List.replicate 12 0,
      List.replicate 4 0, decoded.data⟩ (decoded.grid h) :=
  ⟨by rw [List.length_replicate, hcount], rfl, rfl, h.size⟩

include hl in
private theorem restorePoint_step {pointCount : UInt64}
    (hcount : pointCount.toNat = (decoded.grid h).count) {attributes : DecodeAttributes}
    (hg : attributes.pointIndex.byteStride ≤ 4) (hst : attributes.Storable p.color)
    (index : Nat) {s : DecodeState} (hs : s.Sized (decoded.grid h)) :
    Checked.Safe (restorePoint decoded pointCount layout attributes index s) ∧
      ∀ s', restorePoint decoded pointCount layout attributes index s = .ok s' →
        s'.Sized (decoded.grid h) := by
  rw [restorePoint_eq h hcount attributes hs hg]
  dsimp only
  split
  · next hi =>
    have hs' := sized_set h hs (attributes.pointIndex.index index).toNat
    rcases storePoint_cases h hl attributes index hi.1 hs' with ⟨_, heq⟩ | ⟨hn, _⟩
    · rw [heq]
      refine ⟨Checked.safe_ok _, ?_⟩
      intro s' he
      cases he
      exact sized_storedState h hst _ _ hs'
    · exact absurd hst hn
  · exact ⟨Checked.safe_rejected, fun s' he ↦ by cases he⟩

include hl in
/-- The decoding loop is safe exactly when the index value fits its buffer and, if the first
point names a point of the cloud, the other values fit theirs: the first round decides. -/
theorem restorePoints_safe_iff {pointCount : UInt64}
    (hcount : pointCount.toNat = (decoded.grid h).count) {numPoints : UInt32}
    (hnum : numPoints.toNat = pointCount.toNat) (hpos : 0 < pointCount.toNat)
    (attributes : DecodeAttributes) :
    Checked.Safe (restorePoints decoded pointCount layout numPoints attributes) ↔
      attributes.pointIndex.byteStride ≤ 4 ∧
        ((attributes.pointIndex.index 0).toNat < pointCount.toNat →
          attributes.Storable p.color) := by
  have hs := sized_start h hcount
  have hn : 0 < numPoints.toNat := by omega
  -- A first round that faults makes the loop fault.
  have first : ∀ fault, restorePoint decoded pointCount layout attributes 0
      ⟨List.replicate pointCount.toNat false, List.replicate 12 0, List.replicate 4 0,
        decoded.data⟩ = .error (.fault fault) →
      ¬Checked.Safe (restorePoints decoded pointCount layout numPoints attributes) := by
    intro fault hf hsafe
    rw [restorePoints, Checked.forRange_error hn hf, Checked.error_bind] at hsafe
    exact hsafe fault rfl
  by_cases hg : attributes.pointIndex.byteStride ≤ 4
  · have heq := @restorePoint_eq decoded h layout pointCount hcount attributes 0 _ hs hg
    dsimp only at heq
    by_cases hi : (attributes.pointIndex.index 0).toNat < pointCount.toNat
    · have hfresh : (List.replicate pointCount.toNat false)[
          (attributes.pointIndex.index 0).toNat]? = some false := by
        rw [List.getElem?_replicate, if_pos hi]
      rw [hcount] at hi
      rw [if_pos ⟨hi, hfresh⟩] at heq
      rcases storePoint_cases h hl attributes 0 hi
        (sized_set h hs (attributes.pointIndex.index 0).toNat) with
        ⟨hst, _⟩ | ⟨hst, fault, -, hf⟩
      · constructor
        · exact fun _ ↦ ⟨hg, fun _ ↦ hst⟩
        · intro _
          rw [restorePoints, Checked.safe_bind]
          have hloop := Checked.forRange_safe (n := numPoints.toNat)
            (I := fun _ s ↦ DecodeState.Sized s (decoded.grid h))
            (fun i _ _ hs ↦ restorePoint_step h hl hcount hg hst i hs) hs
          refine ⟨hloop.1, ?_⟩
          intro s _
          rw [Checked.safe_bind]
          exact ⟨Checked.safe_require _, fun _ _ ↦ Checked.safe_ok _⟩
      · rw [hf] at heq
        constructor
        · exact fun hsafe ↦ absurd hsafe (first fault heq)
        · intro hc
          rw [hcount] at hc
          exact absurd (hc.2 hi) hst
    · rw [if_neg fun he ↦ hi (by rw [hcount]; exact he.1)] at heq
      constructor
      · exact fun _ ↦ ⟨hg, fun hlt ↦ absurd hlt hi⟩
      · intro _
        rw [restorePoints, Checked.forRange_error hn heq]
        exact Checked.safe_rejected
  · constructor
    · exact fun hsafe ↦ absurd hsafe (first _ (restorePoint_overrun attributes (by omega)))
    · exact fun hc ↦ absurd hc.1 hg

end

/-! ## The decoder -/

/-- The message that the decoder starts from, with zeroed data. -/
def blankMessage (input : EncodedPointCloud) : PointCloud2 :=
  decodedMetadata input (List.replicate
    (input.originalRowStep.toUInt64 * input.originalHeight.toUInt64).toNat 0)

/-- The decoder reaches its loop: the metadata describe at least one point and an accepted
layout, the sidecar has the size they ask for, and Draco decodes the payload to a cloud of that
many points with the attributes that the layout needs. -/
structure Reaches (draco : Draco) (input : EncodedPointCloud) (pointCount : UInt64)
    (layout : PointLayout) (cloud : DracoCloud) (attributes : DecodeAttributes) : Prop where
  storage : validateMessageStorage (blankMessage input) = some pointCount
  points : pointCount ≠ 0
  parsed : parseLayout input.originalFields input.originalPointStep = some layout
  pointType : input.pointType = kPointTypeXyz ∨ input.pointType = kPointTypeXyzRgb
  colored : input.pointType = kPointTypeXyzRgb ↔ layout.colorEncoding ≠ .none
  sidecar : input.sidecarBytes.length = (sidecarSize (blankMessage input) layout).toNat
  payload : input.payload ≠ []
  decodes : draco.decode input.payload = some cloud
  named : namedAttributes cloud pointCount layout = .ok attributes

/-- The value of the index attribute fits `original_index`, and if the first point of the cloud
names a point of the message, its position fits `position_value` and its colour, if there is
one, fits `color_value` and has a colour of the layout to go to. -/
structure ValuesFit (layout : PointLayout) (pointCount : UInt64)
    (attributes : DecodeAttributes) : Prop where
  index : attributes.pointIndex.byteStride ≤ 4
  position : (attributes.pointIndex.index 0).toNat < pointCount.toNat →
    attributes.position.byteStride ≤ 12
  color : (attributes.pointIndex.index 0).toNat < pointCount.toNat →
    ∀ a ∈ attributes.color, layout.colorEncoding ≠ .none ∧ a.byteStride ≤ 4

/-- The inputs on which the decoder returns. -/
def DecodeSafe (draco : Draco) (input : EncodedPointCloud) : Prop :=
  input.formatVersion = kLayoutFormatVersion →
    (input.originalRowStep.toUInt64 * input.originalHeight.toUInt64).toNat ≤ maxVectorSize ∧
    ∀ pointCount layout cloud attributes,
      Reaches draco input pointCount layout cloud attributes →
      ValuesFit layout pointCount attributes

/-- The colour place of a realised layout is absent exactly when the layout has no colour. -/
theorem colorEncoding_eq_none {layout : PointLayout} {place : ColorPlace}
    (h : layout.ColorAt place) : layout.colorEncoding = .none ↔ place = .none := by
  cases place with
  | none => exact ⟨fun _ ↦ rfl, fun _ ↦ h.1⟩
  | packed offset =>
    rw [h.1]
    exact ⟨fun he ↦ (by cases he), fun he ↦ (by cases he)⟩
  | separate red green blue alpha =>
    rw [h.1]
    exact ⟨fun he ↦ (by cases he), fun he ↦ (by cases he)⟩

private theorem safe_namedAttributes (cloud : DracoCloud) (pointCount : UInt64)
    (layout : PointLayout) : Checked.Safe (namedAttributes cloud pointCount layout) := by
  simp only [namedAttributes, Checked.safe_bind]
  refine ⟨Checked.safe_require _, fun _ _ ↦ ⟨Checked.safe_orReject _, fun _ _ ↦
    ⟨Checked.safe_orReject _, fun _ _ ↦ ⟨Checked.safe_require _, fun _ _ ↦ ?_⟩⟩⟩⟩
  exact Checked.safe_ok _

/-- The number of points of a cloud whose attributes are used. -/
theorem numPoints_of_namedAttributes {cloud : DracoCloud} {pointCount : UInt64}
    {layout : PointLayout} {attributes : DecodeAttributes}
    (h : namedAttributes cloud pointCount layout = .ok attributes) :
    cloud.numPoints.toNat = pointCount.toNat := by
  obtain ⟨_, hn, -⟩ := bind_eq_ok.mp h
  have he : cloud.numPoints.toUInt64 = pointCount := by
    simpa using Checked.require_eq_ok.mp hn
  rw [← he, UInt32.toNat_toUInt64]

private theorem storable_iff {layout : PointLayout} {place : ColorPlace}
    (h : layout.ColorAt place) (attributes : DecodeAttributes) {pointCount : UInt64} :
    ValuesFit layout pointCount attributes ↔ attributes.pointIndex.byteStride ≤ 4 ∧
      ((attributes.pointIndex.index 0).toNat < pointCount.toNat →
        attributes.Storable place) := by
  have hne : layout.colorEncoding ≠ .none ↔ place ≠ .none := not_congr (colorEncoding_eq_none h)
  constructor
  · intro hv
    refine ⟨hv.index, fun hi ↦ ⟨hv.position hi, ?_⟩⟩
    intro a ha
    exact ⟨hne.mp (hv.color hi a ha).1, (hv.color hi a ha).2⟩
  · intro hv
    refine ⟨hv.1, fun hi ↦ (hv.2 hi).position, ?_⟩
    intro hi a ha
    exact ⟨hne.mpr ((hv.2 hi).color a ha).1, ((hv.2 hi).color a ha).2⟩

private theorem colored_iff {a b : Prop} [Decidable a] [Decidable b] :
    ((decide a == decide b) = true) ↔ (a ↔ b) := by
  by_cases ha : a
  · by_cases hb : b
    · simp [ha, hb]
    · simp [ha, hb]
  · by_cases hb : b
    · simp [ha, hb]
    · simp [ha, hb]

/-- Behind the storage test the decoder is safe exactly when it does not reach its loop with
values that do not fit. -/
theorem decodePoints_safe_iff (draco : Draco) (input : EncodedPointCloud) {pointCount : UInt64}
    (hstorage : validateMessageStorage (blankMessage input) = some pointCount)
    (hpoints : pointCount ≠ 0) :
    Checked.Safe (decodePoints draco input (blankMessage input) pointCount) ↔
      ∀ layout cloud attributes, Reaches draco input pointCount layout cloud attributes →
        ValuesFit layout pointCount attributes := by
  obtain ⟨hvalid, hcount⟩ := validateMessageStorage_eq_some.mp hstorage
  have hpos : 0 < pointCount.toNat := by
    apply Nat.pos_of_ne_zero
    intro hz
    exact hpoints (UInt64.toNat_inj.mp hz)
  -- The loop runs on the message with its sidecar restored, which has the same metadata.
  have loop : ∀ layout cloud attributes (p : Placement (blankMessage input).pointStep.toNat),
      layout.Realises p → namedAttributes cloud pointCount layout = .ok attributes →
      ∀ data, data.length = (blankMessage input).data.length →
      (Checked.Safe (restorePoints { blankMessage input with data } pointCount layout
        cloud.numPoints attributes) ↔ ValuesFit layout pointCount attributes) := by
    intro layout cloud attributes p hl hnamed data hdata
    have hvalid' : PointCloud2.Valid { blankMessage input with data } :=
      ⟨hvalid.empty, hvalid.row, hdata.trans hvalid.size, hvalid.count, hvalid.step⟩
    rw [storable_iff hl.color attributes]
    exact restorePoints_safe_iff hvalid' hl hcount (numPoints_of_namedAttributes hnamed) hpos
      attributes
  constructor
  · intro hsafe layout cloud attributes hr
    obtain ⟨p, hl⟩ := parseLayout_realises hr.parsed
    have hsidecar := hr.sidecar
    rw [toNat_sidecarSize hvalid hl] at hsidecar
    have hcolored := (colored_iff (a := input.pointType = kPointTypeXyzRgb)
      (b := layout.colorEncoding ≠ .none)).mpr hr.colored
    have hparsed : parseLayout (blankMessage input).fields (blankMessage input).pointStep =
        some layout := hr.parsed
    have htype : (input.pointType = kPointTypeXyz || input.pointType = kPointTypeXyzRgb : Bool) =
        true := by simpa using hr.pointType
    rw [decodePoints, hparsed, Checked.orReject_some, Checked.ok_bind, htype,
      Checked.require_true, Checked.ok_bind, hcolored, Checked.require_true, Checked.ok_bind,
      restoreSidecar_eq hvalid hl, if_pos hsidecar, Checked.ok_bind, decide_eq_true hr.payload,
      Checked.require_true, Checked.ok_bind, hr.decodes, Checked.orReject_some, Checked.ok_bind,
      hr.named, Checked.ok_bind] at hsafe
    exact (loop layout cloud attributes p hl hr.named _ (length_scatter _ _ _)).mp hsafe
  · intro hfit
    simp only [decodePoints, Checked.safe_bind]
    refine ⟨Checked.safe_orReject _, ?_⟩
    intro layout hparsed
    obtain ⟨p, hl⟩ := parseLayout_realises (Checked.orReject_eq_ok.mp hparsed)
    refine ⟨Checked.safe_require _, ?_⟩
    intro _ htype
    refine ⟨Checked.safe_require _, ?_⟩
    intro _ hcolored
    have hrestored := restoreSidecar_eq hvalid hl input.sidecarBytes
    by_cases hsidecar : input.sidecarBytes.length =
        (((blankMessage input).grid hvalid).outside p.bytes).length
    · rw [if_pos hsidecar] at hrestored
      refine ⟨by rw [hrestored]; exact Checked.safe_ok _, ?_⟩
      intro decoded hdecoded
      rw [hrestored] at hdecoded
      cases hdecoded
      refine ⟨Checked.safe_require _, ?_⟩
      intro _ hpayload
      refine ⟨Checked.safe_orReject _, ?_⟩
      intro cloud hcloud
      refine ⟨safe_namedAttributes cloud pointCount layout, ?_⟩
      intro attributes hnamed
      apply (loop layout cloud attributes p hl hnamed _ (length_scatter _ _ _)).mpr
      apply hfit layout cloud attributes
      exact {
        storage := hstorage
        points := hpoints
        parsed := Checked.orReject_eq_ok.mp hparsed
        pointType := by simpa using Checked.require_eq_ok.mp htype
        colored := colored_iff.mp (Checked.require_eq_ok.mp hcolored)
        sidecar := by rw [toNat_sidecarSize hvalid hl]; exact hsidecar
        payload := by simpa using Checked.require_eq_ok.mp hpayload
        decodes := Checked.orReject_eq_ok.mp hcloud
        named := hnamed }
    · rw [if_neg hsidecar] at hrestored
      refine ⟨by rw [hrestored]; exact Checked.safe_rejected, ?_⟩
      intro decoded hdecoded
      rw [hrestored] at hdecoded
      cases hdecoded

private theorem finish_returns_iff {α : Type} (result : Checked α) (output : Option α) :
    (∃ flag value, finish result output = .ok (flag, value)) ↔ Checked.Safe result := by
  cases result with
  | ok a => exact ⟨fun _ ↦ Checked.safe_ok a, fun _ ↦ ⟨true, some a, rfl⟩⟩
  | error stop =>
    cases stop with
    | rejected => exact ⟨fun _ ↦ Checked.safe_rejected, fun _ ↦ ⟨false, output, rfl⟩⟩
    | fault fault =>
      constructor
      · intro h
        obtain ⟨_, _, he⟩ := h
        cases he
      · intro h
        exact absurd h (Checked.not_safe_fault fault)

/-- The decoder returns true or false, without using an absent field, indexing out of range or
overrunning a buffer, exactly when its output is null or its input is safe. -/
theorem decode_returns_iff (draco : Draco) (input : EncodedPointCloud)
    (message : Option PointCloud2) :
    (∃ flag output, decode draco input message = .ok (flag, output)) ↔
      (message = none ∨ DecodeSafe draco input) := by
  cases message with
  | none => exact ⟨fun _ ↦ Or.inl rfl, fun _ ↦ ⟨false, none, rfl⟩⟩
  | some message =>
    have hmessage : (some message = none ∨ DecodeSafe draco input) ↔ DecodeSafe draco input :=
      ⟨fun h ↦ h.elim (fun he ↦ (by cases he)) id, Or.inr⟩
    rw [hmessage, decode, finish_returns_iff, decodeCloud]
    by_cases hversion : input.formatVersion = kLayoutFormatVersion
    · rw [decide_eq_true hversion, Checked.require_true, Checked.ok_bind]
      by_cases hsize : (input.originalRowStep.toUInt64 * input.originalHeight.toUInt64).toNat ≤
          maxVectorSize
      · rw [assignZero, if_neg (by omega), Checked.ok_bind]
        show Checked.Safe (orReject (validateMessageStorage (blankMessage input)) >>= _) ↔ _
        cases hstorage : validateMessageStorage (blankMessage input) with
        | none =>
          constructor
          · intro _ _
            refine ⟨hsize, ?_⟩
            intro pointCount layout cloud attributes hr
            rw [hr.storage] at hstorage
            cases hstorage
          · intro _
            exact Checked.safe_rejected
        | some pointCount =>
          rw [Checked.orReject_some, Checked.ok_bind]
          by_cases hpoints : pointCount = 0
          · rw [if_pos hpoints]
            constructor
            · intro _ _
              refine ⟨hsize, ?_⟩
              intro pointCount' layout cloud attributes hr
              rw [hr.storage] at hstorage
              cases hstorage
              exact absurd hpoints hr.points
            · intro _
              rw [Checked.safe_bind]
              exact ⟨Checked.safe_require _, fun _ _ ↦ Checked.safe_ok _⟩
          · rw [if_neg hpoints]
            show Checked.Safe (decodePoints draco input (blankMessage input) pointCount) ↔ _
            rw [decodePoints_safe_iff draco input hstorage hpoints]
            constructor
            · intro hfit _
              refine ⟨hsize, ?_⟩
              intro pointCount' layout cloud attributes hr
              have he := hr.storage
              rw [hstorage] at he
              cases he
              exact hfit layout cloud attributes hr
            · intro hsafe layout cloud attributes hr
              exact (hsafe hversion).2 pointCount layout cloud attributes hr
      · rw [assignZero, if_pos (by omega)]
        constructor
        · intro hsafe
          exact absurd hsafe (Checked.not_safe_fault _)
        · intro hsafe
          exact absurd (hsafe hversion).1 hsize
    · rw [decide_eq_false hversion]
      exact ⟨fun _ he ↦ absurd he hversion, fun _ ↦ Checked.safe_rejected⟩

/-- The three coordinates as floats, one behind the other. -/
def xyzFields : List PointField :=
  [⟨ascii "x", 0, float32, 1⟩, ⟨ascii "y", 4, float32, 1⟩, ⟨ascii "z", 8, float32, 1⟩]

/-- A message of one point without colour. -/
def plainPoint : EncodedPointCloud where
  formatVersion := kLayoutFormatVersion
  pointType := kPointTypeXyz
  originalWidth := 1
  originalHeight := 1
  originalFields := xyzFields
  originalPointStep := 12
  originalRowStep := 12
  payload := [1]

/-- A decoder whose cloud has one point with a position, an index and a colour. -/
def coloredDecoder : Draco where
  encode _ := none
  decode _ := some {
    numPoints := 1
    attributes :=
      [(.position, ⟨12, fun _ ↦ List.replicate 12 0, fun _ ↦ rfl⟩),
        (.generic, ⟨4, fun _ ↦ List.replicate 4 0, fun _ ↦ rfl⟩),
        (.color, ⟨4, fun _ ↦ List.replicate 4 0, fun _ ↦ rfl⟩)] }

/-- On a payload with colours behind metadata without colour, the decoder uses the absent red
field. -/
theorem decode_uses_absent_color :
    decode coloredDecoder plainPoint (some {}) = .error .nullPointer ∧
      ¬∃ flag output, decode coloredDecoder plainPoint (some {}) = .ok (flag, output) := by
  have h : decode coloredDecoder plainPoint (some {}) = .error .nullPointer := by rfl
  refine ⟨h, ?_⟩
  intro hr
  obtain ⟨flag, output, he⟩ := hr
  rw [h] at he
  cases he

end NetBridge.Cloud
