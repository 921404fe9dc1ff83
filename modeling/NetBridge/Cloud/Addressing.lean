import NetBridge.Cloud.Restore

/-!
# Addresses in a cloud

The index arithmetic of `ExtractSidecar`, `RestoreSidecar` and `PointDataOffset`,
`src/swarm_ros_bridge/src/transport/draco_pointcloud_codec.cpp:327–406`, on a cloud that
`ValidateMessageStorage` and `ParseLayout` accept. It mixes 32-bit and 64-bit computations; none
of them wraps, and the bytes that they address lie in the data.
-/

namespace NetBridge.Cloud

open NetBridge.Base

/-- The fixed-width computations have the values of exact arithmetic. -/
structure ExactArithmetic (message : PointCloud2) (layout : PointLayout) : Prop where
  /-- The 32-bit `width * point_step`. -/
  row : (message.width * message.pointStep).toNat =
    message.width.toNat * message.pointStep.toNat
  /-- The 32-bit `row_step - width * point_step`. -/
  padding : ((rowPadding message).toNat : Int) =
    message.rowStep.toNat - message.width.toNat * message.pointStep.toNat
  /-- `expected`, with each of its products. -/
  sidecar : SidecarParts message layout
  rowAt : ∀ row < message.height.toNat,
    (rowOffset message row).toNat = row * message.rowStep.toNat
  pointAt : ∀ row < message.height.toNat, ∀ column < message.width.toNat,
    (pointOffset message row column).toNat =
      row * message.rowStep.toNat + column * message.pointStep.toNat
  byteAt : ∀ row < message.height.toNat, ∀ column < message.width.toNat,
    ∀ byte < message.pointStep.toNat,
      (pointOffset message row column + UInt64.ofNat byte).toNat =
        row * message.rowStep.toNat + column * message.pointStep.toNat + byte
  paddingAt : ∀ row < message.height.toNat,
    (paddingOffset message row).toNat =
      row * message.rowStep.toNat + message.width.toNat * message.pointStep.toNat
  /-- `row_offset + row_step`, where the padding ends. -/
  rowEnd : ∀ row < message.height.toNat,
    (rowOffset message row + message.rowStep.toUInt64).toNat = (row + 1) * message.rowStep.toNat
  /-- The 32-bit counter of the point loops. -/
  index : ∀ index < message.width.toNat * message.height.toNat,
    (UInt32.ofNat index).toNat = index
  /-- `PointDataOffset`, whose two products and sum are 64-bit. -/
  dataOffset : ∀ index < message.width.toNat * message.height.toNat,
    ∃ offset, pointDataOffset message (UInt32.ofNat index) = .ok offset ∧
      offset.toNat = index / message.width.toNat * message.rowStep.toNat +
        index % message.width.toNat * message.pointStep.toNat

/-- What the loops address lies in the data: each byte of a point and of the padding, the fields
of a point at its `PointDataOffset`, and what the loops themselves read and write. -/
structure InData (message : PointCloud2) (pointCount : UInt64) (layout : PointLayout) : Prop where
  step : ∀ row < message.height.toNat, ∀ column < message.width.toNat,
    ∀ byte < message.pointStep.toNat,
      (pointOffset message row column + UInt64.ofNat byte).toNat < message.data.length
  padding : ∀ row < message.height.toNat, ∀ k < (rowPadding message).toNat,
    (paddingOffset message row).toNat + k < message.data.length
  field : ∀ index < pointCount.toNat, ∀ offset,
    pointDataOffset message (UInt32.ofNat index) = .ok offset →
      ∀ field ∈ message.fields, ∀ byte ∈ span field, offset.toNat + byte < message.data.length
  extracts : ∃ sidecar, extractSidecar message layout = .ok sidecar
  restores : ∀ sidecar, Checked.Safe (restoreSidecar sidecar layout message)
  encodes : ∃ builder, forRange pointCount.toNat (encodePoint message layout)
    (PointCloudBuilder.start pointCount.toUInt32 layout) = .ok builder
  decodes : ∀ numPoints attributes,
    restorePoints message pointCount layout numPoints attributes ≠ .error (.fault .outOfRange)

private theorem toNat_rowEnd {message : PointCloud2} {row : Nat}
    (hrow : row < message.height.toNat) :
    (rowOffset message row + message.rowStep.toUInt64).toNat =
      (row + 1) * message.rowStep.toNat := by
  have hs := message.rowStep.toNat_lt
  have hh := message.height.toNat_lt
  have hend : (row + 1) * message.rowStep.toNat ≤ 4294967295 * 4294967295 :=
    Nat.mul_le_mul (by omega) (by omega)
  rw [Nat.add_mul, Nat.one_mul] at hend ⊢
  rw [UInt64.toNat_add, toNat_rowOffset hrow, UInt32.toNat_toUInt64]
  exact Nat.mod_eq_of_lt (by omega)

section

variable {message : PointCloud2} (h : message.Valid) {layout : PointLayout}
  {p : Placement message.pointStep.toNat} (hl : layout.Realises p)

include h

private theorem toNat_index {index : Nat}
    (hi : index < message.width.toNat * message.height.toNat) :
    (UInt32.ofNat index).toNat = index := by
  have hcount := h.count
  apply UInt32.toNat_ofNat_of_lt'
  show index < 4294967296
  omega

private theorem dataOffset_eq {index : Nat}
    (hi : index < message.width.toNat * message.height.toNat) :
    ∃ offset, pointDataOffset message (UInt32.ofNat index) = .ok offset ∧
      offset.toNat = (message.grid h).point index := by
  have hindex := toNat_index h hi
  have hi' : (UInt32.ofNat index).toNat < (message.grid h).count := by
    rw [hindex]
    exact hi
  rcases pointDataOffset_eq h hi' with ⟨offset, hoffset, hpoint⟩
  rw [hindex] at hpoint
  exact ⟨offset, hoffset, hpoint⟩

include hl in
/-- No computation wraps on a valid cloud. -/
theorem exactArithmetic : ExactArithmetic message layout where
  row := toNat_row h
  padding := by
    have hrow := h.row
    have hpad : (rowPadding message).toNat =
        message.rowStep.toNat - message.width.toNat * message.pointStep.toNat :=
      toNat_rowPadding h
    omega
  sidecar := sidecarParts h hl
  rowAt := fun _ hrow ↦ toNat_rowOffset hrow
  pointAt := fun _ hrow _ hcol ↦ toNat_pointOffset h hrow hcol
  byteAt := fun _ hrow _ hcol _ hb ↦ toNat_byteAddress h hrow hcol hb
  paddingAt := fun _ hrow ↦ toNat_paddingOffset h hrow
  rowEnd := fun _ hrow ↦ toNat_rowEnd hrow
  index := fun _ hi ↦ toNat_index h hi
  dataOffset := fun _ hi ↦ dataOffset_eq h hi

include hl in
/-- A round of the decoding loop addresses the data only inside, whatever the attributes, and keeps
the sizes of the buffers. -/
theorem restorePoint_inside {pointCount : UInt64}
    (hcount : pointCount.toNat = (message.grid h).count) (attributes : DecodeAttributes)
    (index : Nat) {s : DecodeState} (hs : s.Sized (message.grid h)) :
    (∀ stop, restorePoint message pointCount layout attributes index s = .error stop →
      stop ≠ .fault .outOfRange) ∧
      ∀ s', restorePoint message pointCount layout attributes index s = .ok s' →
        s'.Sized (message.grid h) := by
  by_cases hg : attributes.pointIndex.byteStride ≤ 4
  · rw [restorePoint_eq h hcount attributes hs hg]
    dsimp only
    split
    · next hi =>
      have hs' := sized_set h hs (attributes.pointIndex.index index).toNat
      rcases storePoint_cases h hl attributes index hi.1 hs' with
        ⟨hst, heq⟩ | ⟨_, fault, hne, heq⟩
      · rw [heq]
        refine ⟨fun _ he ↦ (by cases he), ?_⟩
        intro s' he
        cases he
        exact sized_storedState h hst _ _ hs'
      · rw [heq]
        refine ⟨?_, fun _ he ↦ (by cases he)⟩
        intro stop he
        cases he
        simpa using hne
    · refine ⟨?_, fun _ he ↦ (by cases he)⟩
      intro stop he
      cases he
      simp
  · rw [restorePoint_overrun attributes (by omega)]
    refine ⟨?_, fun _ he ↦ (by cases he)⟩
    intro stop he
    cases he
    simp

include hl in
private theorem restoreRounds_inside {pointCount : UInt64}
    (hcount : pointCount.toNat = (message.grid h).count) (n : Nat)
    (attributes : DecodeAttributes) :
    (∀ stop, forRange n (restorePoint message pointCount layout attributes)
        ⟨List.replicate pointCount.toNat false, List.replicate 12 0, List.replicate 4 0,
          message.data⟩ = .error stop → stop ≠ .fault .outOfRange) ∧
      ∀ s, forRange n (restorePoint message pointCount layout attributes)
        ⟨List.replicate pointCount.toNat false, List.replicate 12 0, List.replicate 4 0,
          message.data⟩ = .ok s → s.Sized (message.grid h) :=
  Checked.forRange_avoids (fun stop ↦ stop = .fault .outOfRange)
    (I := fun _ s ↦ DecodeState.Sized s (message.grid h))
    (fun i _ _ hs ↦ restorePoint_inside h hl hcount attributes i hs) (sized_start h hcount)

include hl in
/-- The decoding loop addresses the data only inside, whatever the attributes. -/
theorem restorePoints_inside {pointCount : UInt64}
    (hcount : pointCount.toNat = (message.grid h).count) (numPoints : UInt32)
    (attributes : DecodeAttributes) :
    restorePoints message pointCount layout numPoints attributes ≠
      .error (.fault .outOfRange) := by
  have hloop := restoreRounds_inside h hl hcount numPoints.toNat attributes
  intro hfault
  unfold restorePoints at hfault
  cases hrun : forRange numPoints.toNat (restorePoint message pointCount layout attributes)
      ⟨List.replicate pointCount.toNat false, List.replicate 12 0, List.replicate 4 0,
        message.data⟩ with
  | error stop =>
    rw [hrun] at hfault
    cases hfault
    exact hloop.1 _ hrun rfl
  | ok s =>
    rw [hrun, Checked.ok_bind] at hfault
    cases hall : !s.restored.contains false with
    | true =>
      rw [hall] at hfault
      cases hfault
    | false =>
      rw [hall] at hfault
      cases hfault

include hl in
/-- The decoding loop keeps the size of the data, and everything else. -/
theorem restorePoints_sized {pointCount : UInt64}
    (hcount : pointCount.toNat = (message.grid h).count) {numPoints : UInt32}
    {attributes : DecodeAttributes} {restored : PointCloud2}
    (hrestored : restorePoints message pointCount layout numPoints attributes = .ok restored) :
    ∃ data, restored = { message with data } ∧ data.length = message.data.length := by
  obtain ⟨s, hrun, hrestored⟩ := bind_eq_ok.mp hrestored
  obtain ⟨_, _, hrestored⟩ := bind_eq_ok.mp hrestored
  cases hrestored
  have hloop := restoreRounds_inside h hl hcount numPoints.toNat attributes
  exact ⟨s.data, rfl, (hloop.2 s hrun).data.trans h.size.symm⟩

end

/-- Every field of an accepted layout ends inside its point. -/
theorem fields_fit {fields : List PointField} {pointStep : UInt32} {layout : PointLayout}
    (h : parseLayout fields pointStep = some layout) :
    ∀ field ∈ fields, fieldFits field pointStep = true := by
  rcases parseLayout_eq_some h with ⟨parsed, mask, hparsed, -⟩
  exact hparsed.fit

/-- On a cloud with an accepted storage and layout no index computation of the codec wraps, and
every byte that it addresses lies in the data. -/
theorem addresses_exact (message : PointCloud2) (pointCount : UInt64) (layout : PointLayout)
    (hstorage : validateMessageStorage message = some pointCount)
    (hlayout : parseLayout message.fields message.pointStep = some layout) :
    ExactArithmetic message layout ∧ InData message pointCount layout := by
  rcases validateMessageStorage_eq_some.mp hstorage with ⟨h, hcount⟩
  rcases parseLayout_realises hlayout with ⟨p, hl⟩
  refine ⟨exactArithmetic h hl, ?_⟩
  constructor
  · intro row hrow column hcol byte hbyte
    rw [toNat_byteAddress h hrow hcol hbyte]
    exact byte_lt h hrow hcol hbyte
  · intro row hrow k hk
    rw [toNat_rowPadding h] at hk
    rw [toNat_paddingOffset h hrow]
    exact padding_lt h hrow hk
  · intro index hi offset hoffset field hm byte hbyte
    rw [hcount] at hi
    rcases dataOffset_eq h hi with ⟨offset', hoffset', hpoint⟩
    rw [hoffset] at hoffset'
    cases hoffset'
    have hfit := (fieldFits_iff.mp (fields_fit hlayout field hm)).2
    rw [hpoint, h.size]
    apply Grid.point_lt hi
    have hend := (mem_span.mp hbyte).2
    exact Nat.lt_of_lt_of_le hend hfit
  · exact ⟨_, extractSidecar_eq h hl⟩
  · intro sidecar
    rw [restoreSidecar_eq h hl]
    split
    · exact Checked.safe_ok _
    · exact Checked.safe_rejected
  · rcases encodePoints_eq h hl hcount with ⟨builder, hrun, -⟩
    exact ⟨builder, hrun⟩
  · exact restorePoints_inside h hl hcount

/-- Two rows of two points of 13 bytes, with a byte of padding each. -/
def paddedCloud : PointCloud2 where
  height := 2
  width := 2
  fields := xyzFields
  pointStep := 13
  rowStep := 27
  data := List.replicate 54 0

/-- Points of 13 bytes in rows with padding. -/
theorem addresses_exact_padded : ∃ layout, parseLayout xyzFields 13 = some layout ∧
    ExactArithmetic paddedCloud layout ∧ InData paddedCloud 4 layout :=
  ⟨_, rfl, addresses_exact paddedCloud 4 _ rfl rfl⟩

end NetBridge.Cloud
