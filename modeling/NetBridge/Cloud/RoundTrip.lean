import Mathlib.Data.List.TakeDrop
import NetBridge.Cloud.Restore

/-!
# The round trip of a point cloud

What `DracoPointCloudCodec::Decode` makes of the output of `Encode` after it has travelled in a
`PtCloudCompress` message. Of Draco it is assumed that a payload decodes to the points it was
made from, in some order, with exact indices and colours and with quantised positions.
-/

namespace NetBridge.Cloud

open NetBridge.Base

/-! ## What is assumed of Draco -/

/-- A decoded cloud holds the points of a builder: its point `i` is point `order i` of the
builder, with the position quantised. -/
structure Reordered (quantise : Position → Position) (builder : PointCloudBuilder)
    (cloud : DracoCloud) {n : Nat} (order : Equiv.Perm (Fin n)) : Prop where
  built : builder.numPoints.toNat = n
  numPoints : cloud.numPoints.toNat = n
  position : ∃ a, cloud.getNamedAttribute .position = some a ∧ a.byteStride = 12 ∧
    ∀ i, a.value i.1 = (quantise (builder.position (order i).1)).bytes
  pointIndex : ∃ a, cloud.getNamedAttribute .generic = some a ∧ a.byteStride = 4 ∧
    ∀ i, a.value i.1 = hostBytes (builder.pointIndex (order i).1)
  color : Option.Rel (fun a values ↦ a.byteStride = 4 ∧
    ∀ i, a.value i.1 = Color.bytes (values (order i).1))
    (cloud.getNamedAttribute .color) builder.color

/-- Draco decodes what it encoded, up to the order of the points and the quantisation of their
positions, and refuses an empty buffer: `PointCloudDecoder::DecodeHeader` asks for the five
letters of its name (`src/third_party/draco/src/draco/compression/point_cloud/`
`point_cloud_decoder.cc:27–36`). -/
structure Draco.Faithful (draco : Draco) (quantise : DracoCloud → Position → Position) :
    Prop where
  empty : draco.decode [] = none
  roundTrip : ∀ builder payload,
    draco.encode (PointCloudBuilder.finalize builder) = some payload →
      ∃ cloud, draco.decode payload = some cloud ∧ ∃ n, ∃ order : Equiv.Perm (Fin n),
        Reordered (quantise builder.finalize) builder cloud order

/-! ## What is kept -/

/-- The number of points. -/
def PointCloud2.pointCount (message : PointCloud2) : Nat :=
  message.width.toNat * message.height.toNat

/-- The position of point `index`. -/
def pointPosition (message : PointCloud2) (index : Nat) : Checked Position := do
  let layout ← orReject (parseLayout message.fields message.pointStep)
  let offset ← pointDataOffset message (UInt32.ofNat index)
  readPosition message.data offset.toNat (toBool message.isBigendian) layout

/-- The byte at `address` belongs to the x, y or z of a point. -/
def PointCloud2.CoordinateByte (message : PointCloud2) (address : Nat) : Prop :=
  ∃ layout, parseLayout message.fields message.pointStep = some layout ∧
    ∃ j, j < message.pointCount ∧
      ∃ e, (layout.x = some e ∨ layout.y = some e ∨ layout.z = some e) ∧
        ∃ k, k < 4 ∧ address = j / message.width.toNat * message.rowStep.toNat +
          j % message.width.toNat * message.pointStep.toNat + (e.field.offset.toNat + k)

/-- The decoded message is the original one with quantised positions; the flags may have another
representation of true. -/
structure RoundTrips (quantise : Position → Position) (message decoded : PointCloud2) :
    Prop where
  header : decoded.header = message.header
  width : decoded.width = message.width
  height : decoded.height = message.height
  fields : decoded.fields = message.fields
  isBigendian : toBool decoded.isBigendian = toBool message.isBigendian
  pointStep : decoded.pointStep = message.pointStep
  rowStep : decoded.rowStep = message.rowStep
  isDense : toBool decoded.isDense = toBool message.isDense
  size : decoded.data.length = message.data.length
  position : ∀ j, j < message.pointCount → ∃ position,
    pointPosition message j = .ok position ∧ pointPosition decoded j = .ok (quantise position)
  other : ∀ address, ¬message.CoordinateByte address →
    decoded.data[address]? = message.data[address]?

/-! ## The way through the compressed message -/

/-- The message with the flags as a conversion leaves them, and other data. -/
def PointCloud2.withData (message : PointCloud2) (data : Bytes) : PointCloud2 :=
  { message with
    isBigendian := ofBool (toBool message.isBigendian)
    isDense := ofBool (toBool message.isDense)
    data }

/-- The encoded cloud that `Decode` receives when `encoded` is sent for `message`. -/
def received (message : PointCloud2) (voxelLeafSize : UInt32) (encoded : EncodedPointCloud)
    (now : RosTime) : EncodedPointCloud :=
  ofPtCloudCompress (toPtCloudCompress message.header message voxelLeafSize encoded) now

/-- The metadata of the encoded cloud give the message back. -/
theorem decodedMetadata_received (message : PointCloud2) (layout : PointLayout)
    (sidecarBytes payload : Bytes) (voxelLeafSize : UInt32) (now : RosTime) (data : Bytes) :
    decodedMetadata (received message voxelLeafSize
      { encodedMetadata message layout with sidecarBytes, payload } now) data =
      message.withData data := by
  simp only [decodedMetadata, received, ofPtCloudCompress, toPtCloudCompress, encodedMetadata,
    toBool_ofBool, PointCloud2.withData]

/-- Validity does not depend on the flags and the bytes. -/
theorem PointCloud2.Valid.withData {message : PointCloud2} (h : message.Valid) {data : Bytes}
    (hlen : data.length = message.data.length) : (message.withData data).Valid :=
  ⟨h.empty, h.row, hlen.trans h.size, h.count, h.step⟩

section

variable {message : PointCloud2} (h : message.Valid) {layout : PointLayout}
  {p : Placement message.pointStep.toNat} (hl : layout.Realises p)

include hl in
private theorem pointPosition_eq (hparsed : parseLayout message.fields message.pointStep =
      some layout) {j : Nat} (hj : j < (message.grid h).count) :
    ∃ position, pointPosition message j = .ok position ∧
      position.words (toBool message.isBigendian) =
        gather message.data (shifted ((message.grid h).point j) p.xyz) := by
  have hcount : (message.grid h).count ≤ 2147483647 := h.count
  have hof : (UInt32.ofNat j).toNat = j := UInt32.toNat_ofNat_of_lt' (by
    show j < 4294967296
    omega)
  have hcounted : (UInt32.ofNat j).toNat < (message.grid h).count := by
    rw [hof]
    exact hj
  obtain ⟨offset, hoff, hpoint⟩ := pointDataOffset_eq h hcounted
  rw [hof] at hpoint
  have hin : ∀ b ∈ p.bytes, (message.grid h).point j + b < message.data.length := by
    intro b hb
    rw [h.size]
    exact Grid.point_lt hj (p.inside b hb)
  rw [pointPosition, hparsed, Checked.orReject_some, Checked.ok_bind, hoff, Checked.ok_bind,
    hpoint]
  exact readPosition_eq hl hin _

include hl in
private theorem coordinateByte_of_mem (hparsed : parseLayout message.fields message.pointStep =
      some layout) {j address : Nat} (hj : j < (message.grid h).count)
    (ha : address ∈ shifted ((message.grid h).point j) p.xyz) :
    message.CoordinateByte address := by
  refine ⟨layout, hparsed, j, hj, ?_⟩
  have hword : ∀ {ptr : Option FieldPtr} {offset : Nat}, PointsAt ptr offset →
      address ∈ wordAt ((message.grid h).point j + offset) →
      ∃ e, ptr = some e ∧ ∃ k, k < 4 ∧
        address = (message.grid h).point j + (e.field.offset.toNat + k) := by
    intro ptr offset hptr hmem
    obtain ⟨e, he, ho⟩ := hptr
    simp only [wordAt, List.mem_cons, List.not_mem_nil, or_false] at hmem
    refine ⟨e, he, address - ((message.grid h).point j + offset), by omega, by omega⟩
  rw [Placement.xyz, shifted_append, shifted_append, shifted_wordAt, shifted_wordAt,
    shifted_wordAt, List.mem_append, List.mem_append] at ha
  rcases ha with (hx | hy) | hz
  · obtain ⟨e, he, hk⟩ := hword hl.x hx
    exact ⟨e, Or.inl he, hk⟩
  · obtain ⟨e, he, hk⟩ := hword hl.y hy
    exact ⟨e, Or.inr (Or.inl he), hk⟩
  · obtain ⟨e, he, hk⟩ := hword hl.z hz
    exact ⟨e, Or.inr (Or.inr he), hk⟩

end

/-! ## The decoded attributes -/

private theorem colorOfMemory_bytes (color : Color) : colorOfMemory color.bytes = color := rfl

private theorem namedAttributes_reordered {quantise : Position → Position}
    {builder : PointCloudBuilder} {cloud : DracoCloud} {n : Nat} {order : Equiv.Perm (Fin n)}
    (hr : Reordered quantise builder cloud order) {pointCount : UInt64}
    (hcount : pointCount.toNat = n) {layout : PointLayout} {place : ColorPlace}
    (hat : layout.ColorAt place) (hcolor : builder.color.isSome = true ↔ place ≠ .none) :
    ∃ attributes, namedAttributes cloud pointCount layout = .ok attributes ∧
      attributes.Exact place ∧
      (∀ i : Fin n, attributes.pointIndex.index i.1 = builder.pointIndex (order i).1) ∧
      ∀ (bigendian : Bool) (i : Fin n), attributes.stored place bigendian i.1 =
        (quantise (builder.position (order i).1)).words bigendian ++
          match builder.color with
          | none => []
          | some values => place.encode (values (order i).1) bigendian := by
  obtain ⟨position, hp, hpsize, hpvalue⟩ := hr.position
  obtain ⟨generic, hg, hgsize, hgvalue⟩ := hr.pointIndex
  have hnum : cloud.numPoints.toUInt64 = pointCount := by
    apply UInt64.toNat_inj.mp
    rw [UInt32.toNat_toUInt64, hr.numPoints, hcount]
  have hindex : ∀ i : Fin n, PointAttribute.index generic i.1 =
      builder.pointIndex (order i).1 := fun i ↦ by
    rw [PointAttribute.index, hgvalue, hostWord_index]
  have hrel := hr.color
  generalize hc : cloud.getNamedAttribute .color = color at hrel
  generalize hb : builder.color = values at hrel hcolor
  cases hrel with
  | none =>
    have hplace : place = .none := by
      apply Classical.byContradiction
      intro hne
      cases hcolor.mpr hne
    have hlayout : layout.colorEncoding = .none := (colorEncoding_eq_none hat).mpr hplace
    refine ⟨⟨position, generic, none⟩, ?_, ⟨hpsize, hgsize, ?_, fun _ ↦ hplace⟩, hindex, ?_⟩
    · rw [namedAttributes, decide_eq_true hnum, hp, hg, hc, decide_eq_true hlayout]
      rfl
    · intro a ha
      cases ha
    · intro bigendian i
      rw [DecodeAttributes.stored, hpvalue, positionWords_bytes]
  | some hvalue =>
    next a values =>
    have hplace : place ≠ .none := hcolor.mp rfl
    refine ⟨⟨position, generic, some a⟩, ?_, ⟨hpsize, hgsize, ?_, ?_⟩, hindex, ?_⟩
    · rw [namedAttributes, decide_eq_true hnum, hp, hg, hc]
      simp only [Option.isSome_some, Bool.or_true]
      rfl
    · intro b hb
      cases hb
      exact ⟨hplace, hvalue.1⟩
    · intro hn
      cases hn
    · intro bigendian i
      dsimp only [DecodeAttributes.stored]
      rw [hpvalue, positionWords_bytes, hvalue.2, colorOfMemory_bytes]

/-! ## The round trip -/

/-- What `Encode` has done when it succeeds on a message with points. -/
private structure Encoded (draco : Draco) (message : PointCloud2) (h : message.Valid)
    (layout : PointLayout) (p : Placement message.pointStep.toNat)
    (builder : PointCloudBuilder) (payload : Bytes) : Prop where
  parsed : parseLayout message.fields message.pointStep = some layout
  realises : layout.Realises p
  numPoints : builder.numPoints.toNat = (message.grid h).count
  color : builder.color.isSome = true ↔ p.color ≠ .none
  holds : ∀ j, j < (message.grid h).count → builder.Holds h p j
  encode : draco.encode builder.finalize = some payload

private theorem encodeCloud_eq_ok {draco : Draco} {message : PointCloud2}
    {encoded : EncodedPointCloud} (henc : encodeCloud draco message = .ok encoded) :
    ∃ h : message.Valid,
      (message.pointCount = 0 ∧ encoded = { encodedMetadata message {} with
        sidecarBytes := message.data }) ∨
      (message.pointCount ≠ 0 ∧ ∃ layout p builder payload,
        Encoded draco message h layout p builder payload ∧
        encoded = { encodedMetadata message layout with
          sidecarBytes := gather message.data ((message.grid h).outside p.bytes)
          payload }) := by
  obtain ⟨pointCount, hstorage, henc⟩ := bind_eq_ok.mp henc
  obtain ⟨h, hcount⟩ := validateMessageStorage_eq_some.mp (Checked.orReject_eq_ok.mp hstorage)
  refine ⟨h, ?_⟩
  split at henc
  · next hz =>
    apply Or.inl
    rw [hz] at hcount
    exact ⟨hcount.symm, (Except.ok.inj henc).symm⟩
  · next hz =>
    apply Or.inr
    refine ⟨fun he ↦ hz (UInt64.toNat_inj.mp (hcount.trans he)), ?_⟩
    obtain ⟨layout, hparsed, henc⟩ := bind_eq_ok.mp henc
    have hparsed' := Checked.orReject_eq_ok.mp hparsed
    obtain ⟨p, hl⟩ := parseLayout_realises hparsed'
    rw [extractSidecar_eq h hl, Checked.ok_bind] at henc
    obtain ⟨builder, hloop, henc⟩ := bind_eq_ok.mp henc
    obtain ⟨builder', hloop', hnum, hcolor, hholds⟩ := encodePoints_eq h hl hcount
    rw [hloop'] at hloop
    cases hloop
    obtain ⟨payload, hpayload, henc⟩ := bind_eq_ok.mp henc
    exact ⟨layout, p, builder, payload, ⟨hparsed', hl, hnum, hcolor, hholds,
      Checked.orReject_eq_ok.mp hpayload⟩, (Except.ok.inj henc).symm⟩

private theorem decodeCloud_received (draco : Draco) {message : PointCloud2} (h : message.Valid)
    (hsize : message.data.length ≤ maxVectorSize) (layout : PointLayout)
    (sidecarBytes payload : Bytes) (voxelLeafSize : UInt32) (now : RosTime) :
    ∃ pointCount : UInt64, pointCount.toNat = message.pointCount ∧
      let input := received message voxelLeafSize
        { encodedMetadata message layout with sidecarBytes, payload } now
      decodeCloud draco input =
        if pointCount = 0 then do
          require (payload = [] && sidecarBytes.length = message.data.length)
          pure (message.withData sidecarBytes)
        else decodePoints draco input
          (message.withData (List.replicate message.data.length 0)) pointCount := by
  have hdata : (message.rowStep.toUInt64 * message.height.toUInt64).toNat =
      message.data.length := by
    rw [toNat_mul_of_uint32, h.size]
  have hvalid : (message.withData (List.replicate message.data.length 0)).Valid :=
    h.withData List.length_replicate
  have hstorage := validateMessageStorage_eq_some.mpr
    ⟨hvalid, toNat_mul_of_uint32 message.width message.height⟩
  refine ⟨message.width.toUInt64 * message.height.toUInt64, toNat_mul_of_uint32 _ _, ?_⟩
  have hassign : assignZero (message.rowStep.toUInt64 * message.height.toUInt64) =
      .ok (List.replicate message.data.length 0) := by
    rw [assignZero, hdata, if_neg (by omega)]
  dsimp only
  have hversion : decide ((received message voxelLeafSize
      { encodedMetadata message layout with sidecarBytes, payload } now).formatVersion =
        kLayoutFormatVersion) = true := decide_eq_true rfl
  rw [decodeCloud, hversion, Checked.require_true, Checked.ok_bind]
  show (assignZero (message.rowStep.toUInt64 * message.height.toUInt64) >>= _) = _
  rw [hassign, Checked.ok_bind]
  simp only [decodedMetadata_received, hstorage, Checked.orReject_some, Checked.ok_bind]
  rw [show (message.withData (List.replicate message.data.length 0)).data.length =
    message.data.length from List.length_replicate]
  rfl

section

variable {draco : Draco} {message : PointCloud2} {h : message.Valid} {layout : PointLayout}
  {p : Placement message.pointStep.toNat} {builder : PointCloudBuilder} {payload : Bytes}

private theorem roundTrips_of_restored (he : Encoded draco message h layout p builder payload)
    {quantise : Position → Position} {data : Bytes} (hlen : data.length = message.data.length)
    (hpoints : ∀ j, j < (message.grid h).count →
      gather data (shifted ((message.grid h).point j) p.bytes) =
        (quantise (builder.position j)).words (toBool message.isBigendian) ++
          match builder.color with
          | none => []
          | some values => p.color.encode (values j) (toBool message.isBigendian))
    (hrest : ∀ a ∈ (message.grid h).outside p.bytes, data[a]? = message.data[a]?) :
    RoundTrips quantise message (message.withData data) := by
  have hflag : toBool (message.withData data).isBigendian = toBool message.isBigendian :=
    toBool_ofBool _
  -- The bytes of a point are those of its position, followed by those of its colour.
  have split : ∀ j, j < (message.grid h).count →
      gather data (shifted ((message.grid h).point j) p.xyz) =
        (quantise (builder.position j)).words (toBool message.isBigendian) ∧
      gather data (shifted ((message.grid h).point j) p.color.bytes) =
        gather message.data (shifted ((message.grid h).point j) p.color.bytes) := by
    intro j hj
    have hg := hpoints j hj
    rw [Placement.bytes, shifted_append, gather_append] at hg
    have hin : ∀ a ∈ shifted ((message.grid h).point j) p.xyz, a < data.length := by
      intro a ha
      obtain ⟨b, hb, hab⟩ := mem_shifted.mp ha
      rw [← hab, hlen, h.size]
      exact Grid.point_lt hj (p.inside b (List.mem_append_left _ hb))
    have hxyz : (gather data (shifted ((message.grid h).point j) p.xyz)).length =
        ((quantise (builder.position j)).words (toBool message.isBigendian)).length := by
      rw [length_gather hin, Position.length_words]
      rfl
    obtain ⟨hposition, hcolor⟩ := List.append_inj hg hxyz
    refine ⟨hposition, ?_⟩
    rw [hcolor]
    cases hc : builder.color with
    | none =>
      have hplace : p.color = .none := by
        apply Classical.byContradiction
        intro hne
        have hsome := he.color.mpr hne
        rw [hc] at hsome
        cases hsome
      rw [hplace]
      rfl
    | some values => exact (he.holds j hj).color values hc
  constructor
  case header => rfl
  case width => rfl
  case height => rfl
  case fields => rfl
  case isBigendian => exact hflag
  case pointStep => rfl
  case rowStep => rfl
  case isDense => exact toBool_ofBool _
  case size => exact hlen
  case position =>
    intro j hj
    obtain ⟨v, hv, hvw⟩ := pointPosition_eq h he.realises he.parsed hj
    obtain ⟨w, hw, hww⟩ := pointPosition_eq (h.withData hlen) he.realises he.parsed hj
    rw [hflag] at hww
    have hvb : v = builder.position j :=
      Position.words_inj (hvw.trans (he.holds j hj).position.symm)
    have hwq : w = quantise (builder.position j) :=
      Position.words_inj (hww.trans (split j hj).1)
    exact ⟨v, hv, by rw [hw, hwq, hvb]⟩
  case other =>
    intro a ha
    by_cases hlt : a < message.data.length
    · rw [h.size] at hlt
      cases @Grid.mem_point_or_outside (message.grid h) p.bytes a hlt with
      | inr hout => exact hrest a hout
      | inl hin =>
        obtain ⟨j, b, hj, hb, -, hab⟩ := hin
        cases List.mem_append.mp hb with
        | inl hxyz =>
          exact absurd (coordinateByte_of_mem h he.realises he.parsed hj
            (mem_shifted.mpr ⟨b, hxyz, hab.symm⟩)) ha
        | inr hcolor =>
          have hin : ∀ a ∈ shifted ((message.grid h).point j) p.color.bytes,
              a < message.data.length := by
            intro a' ha'
            obtain ⟨b', hb', hab'⟩ := mem_shifted.mp ha'
            rw [← hab', h.size]
            exact Grid.point_lt hj (p.inside b' (List.mem_append_right _ hb'))
          exact getElem?_eq_of_gather (by rw [hlen]; exact hin) hin (split j hj).2 a
            (mem_shifted.mpr ⟨b, hcolor, hab.symm⟩)
    · show data[a]? = _
      rw [List.getElem?_eq_none (by omega), List.getElem?_eq_none (by omega)]

private theorem pointType_encodedMetadata (message : PointCloud2) (layout : PointLayout) :
    (decide ((encodedMetadata message layout).pointType = kPointTypeXyz) ||
      decide ((encodedMetadata message layout).pointType = kPointTypeXyzRgb)) = true ∧
    (decide ((encodedMetadata message layout).pointType = kPointTypeXyzRgb) ==
      decide (layout.colorEncoding ≠ .none)) = true := by
  have hne : kPointTypeXyz ≠ kPointTypeXyzRgb := by decide
  unfold encodedMetadata
  dsimp only
  by_cases hnone : layout.colorEncoding = .none
  · rw [if_pos hnone]
    simp [hne, hnone]
  · rw [if_neg hnone]
    simp [hnone]

private theorem decodePoints_received (he : Encoded draco message h layout p builder payload)
    {quantise : DracoCloud → Position → Position} (hd : draco.Faithful quantise)
    (voxelLeafSize : UInt32) (now : RosTime) {pointCount : UInt64}
    (hcount : pointCount.toNat = message.pointCount) :
    ∃ data, decodePoints draco (received message voxelLeafSize
          { encodedMetadata message layout with
            sidecarBytes := gather message.data ((message.grid h).outside p.bytes)
            payload } now)
        (message.withData (List.replicate message.data.length 0)) pointCount =
          .ok (message.withData data) ∧
      RoundTrips (quantise builder.finalize) message (message.withData data) := by
  have hzero : (List.replicate message.data.length (0 : UInt8)).length = message.data.length :=
    List.length_replicate
  have houtside : ∀ a ∈ (message.grid h).outside p.bytes, a < message.data.length := by
    intro a ha
    rw [h.size]
    exact Grid.outside_lt ha
  obtain ⟨cloud, hcloud, n, order, hr⟩ := hd.roundTrip builder payload he.encode
  have hn : n = (message.grid h).count := hr.built.symm.trans he.numPoints
  subst hn
  obtain ⟨attributes, hnamed, hexact, hindex, hstored⟩ :=
    namedAttributes_reordered hr hcount he.realises.color he.color
  have hpayload : payload ≠ [] := by
    intro hempty
    rw [hempty, hd.empty] at hcloud
    cases hcloud
  -- The sidecar brings back the bytes outside the encoded ones.
  have hsidecar := (restoreSidecar_eq (h.withData hzero) he.realises
    (gather message.data ((message.grid h).outside p.bytes))).trans
    (if_pos (length_gather houtside))
  have hlength : (scatter (List.replicate message.data.length 0)
      ((message.grid h).outside p.bytes)
      (gather message.data ((message.grid h).outside p.bytes))).length = message.data.length := by
    rw [length_scatter, hzero]
  have hvalid := h.withData hlength
  -- The loop brings back the points.
  have hnames : ∀ i : Fin (message.grid h).count,
      (attributes.pointIndex.index i.1).toNat = (order i).1 := by
    intro i
    have hj : (order i).1 < (message.grid h).count := (order i).2
    have hmax : (message.grid h).count ≤ 2147483647 := h.count
    rw [hindex, (he.holds _ hj).pointIndex]
    exact UInt32.toNat_ofNat_of_lt' (by
      show _ < 4294967296
      omega)
  obtain ⟨data, hdata, hlen, hpoints, hkept⟩ := restorePoints_eq hvalid he.realises hcount
    hr.numPoints hexact order hnames
  have hlen' : data.length = message.data.length := by
    rw [hlen]
    show (scatter _ _ _).length = _
    rw [length_scatter, hzero]
  refine ⟨data, ?_, ?_⟩
  · obtain ⟨htype, hcolored⟩ := pointType_encodedMetadata message layout
    rw [decodePoints]
    show (orReject (parseLayout message.fields message.pointStep) >>= _) = _
    rw [he.parsed, Checked.orReject_some, Checked.ok_bind]
    show (require (decide ((encodedMetadata message layout).pointType = kPointTypeXyz) ||
      decide ((encodedMetadata message layout).pointType = kPointTypeXyzRgb)) >>= _) = _
    rw [htype, Checked.require_true, Checked.ok_bind]
    show (require (decide ((encodedMetadata message layout).pointType = kPointTypeXyzRgb) ==
      decide (layout.colorEncoding ≠ .none)) >>= _) = _
    rw [hcolored, Checked.require_true, Checked.ok_bind]
    show (restoreSidecar (gather message.data ((message.grid h).outside p.bytes)) layout _ >>= _) =
      _
    rw [hsidecar, Checked.ok_bind]
    show (require (decide (payload ≠ [])) >>= fun _ ↦ orReject (draco.decode payload) >>= _) = _
    rw [decide_eq_true hpayload, Checked.require_true, Checked.ok_bind, hcloud,
      Checked.orReject_some, Checked.ok_bind, hnamed, Checked.ok_bind]
    exact hdata
  · apply roundTrips_of_restored he hlen'
    · intro j hj
      have hsymm : order (order.symm ⟨j, hj⟩) = ⟨j, hj⟩ := order.apply_symm_apply _
      have hp : gather data (shifted ((message.grid h).point (order (order.symm ⟨j, hj⟩)).1)
          p.bytes) = attributes.stored p.color (toBool (ofBool (toBool message.isBigendian)))
            (order.symm ⟨j, hj⟩).1 := hpoints (order.symm ⟨j, hj⟩)
      rw [hstored, hsymm, toBool_ofBool] at hp
      exact hp
    · intro a ha
      have hnot : ∀ j, j < (message.grid h).count →
          a ∉ shifted ((message.grid h).point j) p.bytes := by
        intro j hj hmem
        obtain ⟨b, hb, hab⟩ := mem_shifted.mp hmem
        rw [← hab] at ha
        exact Grid.point_not_mem_outside hj (p.inside b hb) hb ha
      have hrestored : (scatter (List.replicate message.data.length 0)
          ((message.grid h).outside p.bytes)
          (gather message.data ((message.grid h).outside p.bytes)))[a]? = message.data[a]? :=
        getElem?_scatter_gather (by rw [hzero]; exact houtside) houtside ha
      rw [← hrestored]
      exact hkept a hnot

end

/-- Every message that `Encode` accepts comes back through a `PtCloudCompress` message with all
its metadata and bytes, its positions quantised. Its data are a `std::vector`, whose size is at
most `max_size()`. -/
theorem cloud_round_trip (draco : Draco) (quantise : DracoCloud → Position → Position)
    (hd : draco.Faithful quantise) (message : PointCloud2)
    (hsize : message.data.length ≤ maxVectorSize) (output encoded : EncodedPointCloud)
    (henc : encode draco message (some output) = .ok (true, some encoded))
    (voxelLeafSize : UInt32) (now : RosTime) (prior : PointCloud2) :
    ∃ cloud decoded,
      (message.pointCount ≠ 0 → draco.encode cloud = some encoded.payload) ∧
      decode draco (received message voxelLeafSize encoded now) (some prior) =
        .ok (true, some decoded) ∧
      deserializeDraco draco (toPtCloudCompress message.header message voxelLeafSize encoded)
        now prior = .ok (some decoded) ∧
      RoundTrips (quantise cloud) message decoded := by
  have hcloud : encodeCloud draco message = .ok encoded := by
    unfold encode finish at henc
    cases hr : encodeCloud draco message with
    | ok value =>
      rw [hr] at henc
      cases henc
      rfl
    | error stop =>
      rw [hr] at henc
      cases stop <;> cases henc
  have hback : ∃ cloud decoded,
      (message.pointCount ≠ 0 → draco.encode cloud = some encoded.payload) ∧
      decodeCloud draco (received message voxelLeafSize encoded now) = .ok decoded ∧
      RoundTrips (quantise cloud) message decoded := by
    obtain ⟨h, hcases⟩ := encodeCloud_eq_ok hcloud
    rcases hcases with ⟨hz, he⟩ | ⟨hz, layout, p, builder, payload, he, henc⟩
    · obtain ⟨pointCount, hcount, hdec⟩ :=
        decodeCloud_received draco h hsize {} message.data [] voxelLeafSize now
      have hpoints : pointCount = 0 := UInt64.toNat_inj.mp (hcount.trans hz)
      dsimp only at hdec
      rw [if_pos hpoints] at hdec
      rw [he]
      refine ⟨⟨0, []⟩, message.withData message.data, fun hne ↦ absurd hz hne, ?_, ?_⟩
      · refine hdec.trans ?_
        simp only [decide_true, Bool.and_self, Checked.require_true, Checked.ok_bind,
          Checked.pure_eq]
      · exact {
          header := rfl
          width := rfl
          height := rfl
          fields := rfl
          isBigendian := toBool_ofBool _
          pointStep := rfl
          rowStep := rfl
          isDense := toBool_ofBool _
          size := rfl
          position := fun j hj ↦ absurd hj (by omega)
          other := fun _ _ ↦ rfl }
    · obtain ⟨pointCount, hcount, hdec⟩ := decodeCloud_received draco h hsize layout
        (gather message.data ((message.grid h).outside p.bytes)) payload voxelLeafSize now
      have hpoints : pointCount ≠ 0 := fun hzero ↦ hz (by rw [← hcount, hzero]; rfl)
      dsimp only at hdec
      rw [if_neg hpoints] at hdec
      obtain ⟨data, hdata, hround⟩ := decodePoints_received he hd voxelLeafSize now hcount
      rw [henc]
      exact ⟨builder.finalize, message.withData data, fun _ ↦ he.encode, hdec.trans hdata,
        hround⟩
  obtain ⟨cloud, decoded, hpayload, hdec, hround⟩ := hback
  have hdecode : decode draco (received message voxelLeafSize encoded now) (some prior) =
      .ok (true, some decoded) := by
    rw [decode, hdec]
    rfl
  refine ⟨cloud, decoded, hpayload, hdecode, ?_, hround⟩
  have hheader : { decoded with header := message.header } = decoded := by
    rw [← hround.header]
  unfold deserializeDraco
  rw [show ofPtCloudCompress (toPtCloudCompress message.header message voxelLeafSize encoded) now
    = received message voxelLeafSize encoded now from rfl, hdecode]
  exact congrArg (fun m ↦ Except.ok (some m)) hheader

/-- A coordinate without its lowest byte. -/
def coarse (value : UInt32) : UInt32 :=
  uint32OfBytes false 0 (value >>> 8).toUInt8 (value >>> 16).toUInt8 (value >>> 24).toUInt8

/-- A position whose coordinates have lost their lowest bytes. -/
def coarsePosition (position : Position) : Position :=
  ⟨coarse position.x, coarse position.y, coarse position.z⟩

private theorem bytes_coarsePosition (position : Position) :
    (coarsePosition position).bytes = ((position.bytes.set 0 0).set 4 0).set 8 0 := by
  have hcoarse : ∀ value, hostBytes (coarse value) = 0 :: (hostBytes value).tail :=
    fun value ↦ uint32Bytes_uint32OfBytes false _ _ _ _
  simp only [coarsePosition, Position.bytes, hcoarse]
  rfl

/-- The values of two points, one behind the other. -/
def pairAttribute (stride : Nat) (first second : Bytes) : PointAttribute where
  byteStride := stride
  value i := (if i = 0 then first else second).takeD stride 0
  length_value _ := List.takeD_length ..

/-- A codec for clouds of two points that drops the lowest bytes of the coordinates and swaps the
points. The first byte is the size of a point. -/
def swappingDraco : Draco where
  encode cloud :=
    let point i := cloud.attributes.flatMap fun a ↦
      if a.1 = .position then (((a.2.value i).set 0 0).set 4 0).set 8 0 else a.2.value i
    let size := match cloud.attributes with
      | [_, _, _] => 20
      | _ => 16
    if cloud.numPoints = 2 then some (size :: (point 1 ++ point 0)) else none
  decode payload :=
    match payload with
    | [] => none
    | size :: values =>
      let slice stride start :=
        pairAttribute stride (values.drop start) (values.drop (size.toNat + start))
      some {
        numPoints := 2
        attributes := [(.position, slice 12 0), (.generic, slice 4 12)] ++
          if size = 16 then [] else [(.color, slice 4 16)] }

private theorem faithful_swappingDraco : swappingDraco.Faithful fun _ ↦ coarsePosition where
  empty := rfl
  roundTrip := by
    intro builder payload henc
    have hnum : builder.numPoints = 2 := by
      by_contra hne
      have hnone : swappingDraco.encode builder.finalize = none := if_neg hne
      rw [hnone] at henc
      cases henc
    have hsome : swappingDraco.encode builder.finalize = some (_ :: _) := if_pos hnum
    rw [hsome] at henc
    cases henc
    cases hc : builder.color with
    | none =>
      refine ⟨_, rfl, 2, ⟨Fin.rev, Fin.rev, Fin.rev_rev, Fin.rev_rev⟩, ?_⟩
      simp only [PointCloudBuilder.finalize, hc]
      refine ⟨by rw [hnum]; rfl, rfl, ⟨_, rfl, rfl, ?_⟩, ⟨_, rfl, rfl, ?_⟩, ?_⟩
      · intro i
        rw [bytes_coarsePosition]
        match i with
        | 0 => rfl
        | 1 => rfl
      · intro i
        match i with
        | 0 => rfl
        | 1 => rfl
      · rw [hc]
        exact Option.Rel.none
    | some values =>
      refine ⟨_, rfl, 2, ⟨Fin.rev, Fin.rev, Fin.rev_rev, Fin.rev_rev⟩, ?_⟩
      simp only [PointCloudBuilder.finalize, hc]
      refine ⟨by rw [hnum]; rfl, rfl, ⟨_, rfl, rfl, ?_⟩, ⟨_, rfl, rfl, ?_⟩, ?_⟩
      · intro i
        rw [bytes_coarsePosition]
        match i with
        | 0 => rfl
        | 1 => rfl
      · intro i
        match i with
        | 0 => rfl
        | 1 => rfl
      · rw [hc]
        refine Option.Rel.some ⟨rfl, ?_⟩
        intro i
        match i with
        | 0 => rfl
        | 1 => rfl

/-- A big-endian message of two points, the first at about (1, 2, 3), with packed colours behind a
byte of padding each. -/
def coloredPoints : PointCloud2 where
  height := 1
  width := 2
  fields := xyzFields ++ [⟨ascii "rgb", 13, float32, 1⟩]
  isBigendian := 2
  pointStep := 17
  rowStep := 35
  data := [63, 128, 0, 1, 64, 0, 0, 0, 64, 64, 0, 0, 7, 0, 1, 2, 3,
    64, 128, 0, 0, 64, 160, 0, 2, 64, 192, 0, 0, 9, 0, 4, 5, 6, 8]

/-- The two points come back in their places, with coarser coordinates and their own colours. -/
theorem cloud_round_trip_pair :
    ∃ encoded, encode swappingDraco coloredPoints (some {}) = .ok (true, some encoded) ∧
      ∃ cloud decoded,
        (coloredPoints.pointCount ≠ 0 → swappingDraco.encode cloud = some encoded.payload) ∧
        decode swappingDraco (received coloredPoints 0 encoded {}) (some {}) =
          .ok (true, some decoded) ∧
        deserializeDraco swappingDraco
          (toPtCloudCompress coloredPoints.header coloredPoints 0 encoded) {} {} =
            .ok (some decoded) ∧
        RoundTrips coarsePosition coloredPoints decoded := by
  refine ⟨_, rfl, ?_⟩
  exact cloud_round_trip swappingDraco _ faithful_swappingDraco coloredPoints (by decide) {} _ rfl
    0 {} {}

end NetBridge.Cloud
