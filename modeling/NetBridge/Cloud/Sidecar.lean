import NetBridge.Base.Grid
import NetBridge.Cloud.Words

/-!
# The sidecar

Extraction and restoration of the bytes that are not encoded, as a gather and a scatter at the
addresses outside the encoded bytes of a padded grid of points. None of the fixed-width
computations of the sources wraps on a validated cloud.
-/

namespace NetBridge.Cloud

open NetBridge.Base

/-- What `ValidateMessageStorage` establishes. -/
structure PointCloud2.Valid (message : PointCloud2) : Prop where
  empty : message.height.toNat = 0 → message.width.toNat = 0
  row : message.width.toNat * message.pointStep.toNat ≤ message.rowStep.toNat
  size : message.data.length = message.rowStep.toNat * message.height.toNat
  count : message.width.toNat * message.height.toNat ≤ 2147483647
  step : 0 < message.width.toNat * message.height.toNat → message.pointStep.toNat ≠ 0

/-- The product of two 32-bit values fits 64 bits. -/
theorem toNat_mul_of_uint32 (a b : UInt32) :
    (a.toUInt64 * b.toUInt64).toNat = a.toNat * b.toNat := by
  have ha := a.toNat_lt
  have hb := b.toNat_lt
  have hm : a.toNat * b.toNat ≤ 4294967295 * 4294967295 :=
    Nat.mul_le_mul (by omega) (by omega)
  rw [UInt64.toNat_mul, UInt32.toNat_toUInt64, UInt32.toNat_toUInt64]
  apply Nat.mod_eq_of_lt
  omega

/-- The storage is accepted exactly when it is valid, with the number of its points. -/
theorem validateMessageStorage_eq_some {message : PointCloud2} {count : UInt64} :
    validateMessageStorage message = some count ↔
      message.Valid ∧ count.toNat = message.width.toNat * message.height.toNat := by
  have hzero : ∀ {a : UInt32}, a = 0 ↔ a.toNat = 0 := fun {a} ↦ by
    rw [← UInt32.toNat_inj]
    rfl
  have hconst : (2147483647 : UInt64).toNat = 2147483647 := rfl
  unfold validateMessageStorage
  simp only [gt_iff_lt, UInt64.lt_iff_toNat_lt, toNat_mul_of_uint32, UInt32.toNat_toUInt64,
    hzero, hconst, ne_eq]
  constructor
  · intro h
    split at h
    · cases h
    · next h1 =>
      split at h
      · cases h
      · next h2 =>
        split at h
        · cases h
        · next h3 =>
          simp only [not_or, Classical.not_not, Nat.not_lt] at h2
          have h3' : 0 < message.width.toNat * message.height.toNat →
              message.pointStep.toNat ≠ 0 := fun hp hz ↦ h3 ⟨hp, hz⟩
          rw [← Option.some.inj h]
          refine ⟨⟨?_, h2.1, h2.2.1.symm, h2.2.2, h3'⟩, toNat_mul_of_uint32 _ _⟩
          intro hh
          apply Classical.byContradiction
          intro hw
          exact h1 ⟨hh, hw⟩
  · intro h
    obtain ⟨hv, hc⟩ := h
    have h1 := hv.row
    have h2 := hv.size
    have h3 := hv.count
    rw [if_neg fun h ↦ h.2 (hv.empty h.1), if_neg, if_neg fun h ↦ hv.step h.1 h.2]
    · congr 1
      apply UInt64.toNat_inj.mp
      rw [toNat_mul_of_uint32, hc]
    · simp only [not_or, Classical.not_not, Nat.not_lt]
      exact ⟨h1, h2.symm, h3⟩

/-- The points of a valid cloud. -/
def PointCloud2.grid (message : PointCloud2) (h : message.Valid) : Grid where
  width := message.width.toNat
  height := message.height.toNat
  pointStep := message.pointStep.toNat
  rowStep := message.rowStep.toNat
  fits := h.row

private theorem row_end (message : PointCloud2) {row : Nat} (r : Nat)
    (hrow : row < message.height.toNat) (hr : r ≤ message.rowStep.toNat) :
    row * message.rowStep.toNat + r < 18446744073709551616 := by
  have hs := message.rowStep.toNat_lt
  have hh := message.height.toNat_lt
  have hm : (row + 1) * message.rowStep.toNat ≤ 4294967295 * 4294967295 :=
    Nat.mul_le_mul (by omega) (by omega)
  rw [Nat.add_mul, Nat.one_mul] at hm
  omega

/-- The offset of a row is computed without wrapping. -/
theorem toNat_rowOffset {message : PointCloud2} {row : Nat}
    (hrow : row < message.height.toNat) :
    (rowOffset message row).toNat = row * message.rowStep.toNat := by
  have hh := message.height.toNat_lt
  have he : row % 18446744073709551616 = row := Nat.mod_eq_of_lt (by omega)
  have hlt := row_end message 0 hrow (Nat.zero_le _)
  rw [rowOffset, UInt64.toNat_mul, UInt64.toNat_ofNat', UInt32.toNat_toUInt64]
  show row % 18446744073709551616 * _ % 18446744073709551616 = _
  rw [he]
  exact Nat.mod_eq_of_lt hlt

section

variable {message : PointCloud2} (h : message.Valid)

include h

/-- The bytes of the points of a row are counted without wrapping. -/
theorem toNat_row :
    (message.width * message.pointStep).toNat =
      message.width.toNat * message.pointStep.toNat := by
  have hr := h.row
  have hlt := message.rowStep.toNat_lt
  rw [UInt32.toNat_mul]
  apply Nat.mod_eq_of_lt
  omega

/-- The padding of a row is what its points leave. -/
theorem toNat_rowPadding :
    (rowPadding message).toNat = (message.grid h).rowStep -
      (message.grid h).width * (message.grid h).pointStep := by
  have hr := h.row
  have ht := toNat_row h
  have hle : message.width * message.pointStep ≤ message.rowStep := by
    rw [UInt32.le_iff_toNat_le, ht]
    exact hr
  rw [rowPadding, UInt32.toNat_toUInt64, UInt32.toNat_sub_of_le _ _ hle, ht]
  rfl

private theorem column_le {column : Nat} (hcol : column < message.width.toNat) :
    column * message.pointStep.toNat + message.pointStep.toNat ≤ message.rowStep.toNat := by
  have hm : (column + 1) * message.pointStep.toNat ≤
      message.width.toNat * message.pointStep.toNat := Nat.mul_le_mul_right _ hcol
  have hr := h.row
  rw [Nat.add_mul, Nat.one_mul] at hm
  omega

/-- The offset of a point is computed without wrapping. -/
theorem toNat_pointOffset {row column : Nat} (hrow : row < message.height.toNat)
    (hcol : column < message.width.toNat) :
    (pointOffset message row column).toNat =
      row * message.rowStep.toNat + column * message.pointStep.toNat := by
  have hw := message.width.toNat_lt
  have hs := message.rowStep.toNat_lt
  have hc := column_le h hcol
  have hlt := row_end message (column * message.pointStep.toNat) hrow (by omega)
  have he : column % 18446744073709551616 = column := Nat.mod_eq_of_lt (by omega)
  have hm : column * message.pointStep.toNat % 18446744073709551616 =
      column * message.pointStep.toNat := Nat.mod_eq_of_lt (by omega)
  rw [pointOffset, UInt64.toNat_add, toNat_rowOffset hrow, UInt64.toNat_mul,
    UInt64.toNat_ofNat', UInt32.toNat_toUInt64]
  show (_ + column % 18446744073709551616 * _ % 18446744073709551616) %
    18446744073709551616 = _
  rw [he, hm, Nat.mod_eq_of_lt hlt]

/-- The address of a byte of a point is computed without wrapping. -/
theorem toNat_byteAddress {row column b : Nat} (hrow : row < message.height.toNat)
    (hcol : column < message.width.toNat) (hb : b < message.pointStep.toNat) :
    (pointOffset message row column + UInt64.ofNat b).toNat =
      row * message.rowStep.toNat + column * message.pointStep.toNat + b := by
  have hp := message.pointStep.toNat_lt
  have hc := column_le h hcol
  have hlt := row_end message (column * message.pointStep.toNat + b) hrow (by omega)
  have he : b % 18446744073709551616 = b := Nat.mod_eq_of_lt (by omega)
  rw [UInt64.toNat_add, toNat_pointOffset h hrow hcol, UInt64.toNat_ofNat']
  show (_ + b % 18446744073709551616) % 18446744073709551616 = _
  rw [he, Nat.mod_eq_of_lt (by omega)]

/-- The offset of a row's padding is computed without wrapping. -/
theorem toNat_paddingOffset {row : Nat} (hrow : row < message.height.toNat) :
    (paddingOffset message row).toNat =
      row * message.rowStep.toNat + message.width.toNat * message.pointStep.toNat := by
  have hr := h.row
  have hlt := row_end message (message.width.toNat * message.pointStep.toNat) hrow hr
  rw [paddingOffset, UInt64.toNat_add, toNat_rowOffset hrow, UInt32.toNat_toUInt64,
    toNat_row h]
  exact Nat.mod_eq_of_lt hlt

/-- `PointDataOffset` of a point of the cloud is its address in the grid. -/
theorem pointDataOffset_eq {index : UInt32} (hi : index.toNat < (message.grid h).count) :
    ∃ offset, pointDataOffset message index = .ok offset ∧
      offset.toNat = (message.grid h).point index.toNat := by
  have hw : message.width.toNat ≠ 0 := by
    intro hz
    have hc : (message.grid h).count = message.width.toNat * message.height.toNat := rfl
    rw [hc, hz, Nat.zero_mul] at hi
    omega
  have hw' : message.width ≠ 0 := fun he ↦ hw (by rw [he]; rfl)
  refine ⟨_, by rw [pointDataOffset, if_neg hw'], ?_⟩
  have hrow : index.toNat / message.width.toNat < message.height.toNat := by
    rw [Nat.div_lt_iff_lt_mul (by omega), Nat.mul_comm]
    exact hi
  have hcol := Nat.mod_lt index.toNat (Nat.pos_of_ne_zero hw)
  have hc := column_le h hcol
  have hlt := row_end message (index.toNat % message.width.toNat * message.pointStep.toNat) hrow
    (by omega)
  rw [UInt64.toNat_add, toNat_mul_of_uint32, toNat_mul_of_uint32, UInt32.toNat_div,
    UInt32.toNat_mod, Nat.mod_eq_of_lt hlt]
  rfl

end

/-! ## The loops -/

private theorem flatMap_rest (n : Nat) (bytes : List Nat) (f : Nat → Nat) :
    (List.range n).flatMap (fun b ↦ if b ∈ bytes then [] else [f b]) =
      ((List.range n).filter fun b ↦ b ∉ bytes).map f := by
  induction n with
  | zero => rfl
  | succ n ih =>
    rw [List.range_succ, List.flatMap_append, ih, List.filter_append, List.map_append]
    congr 1
    rw [List.flatMap_cons, List.flatMap_nil, List.append_nil, List.filter_cons, List.filter_nil]
    by_cases hn : n ∈ bytes
    · rw [if_pos hn, if_neg (by simpa using hn), List.map_nil]
    · rw [if_neg hn, if_pos (by simpa using hn), List.map_cons, List.map_nil]

private theorem flatMap_range' (start n : Nat) :
    (List.range n).flatMap (fun k ↦ [start + k]) = List.range' start n := by
  rw [← List.map_eq_flatMap, List.range'_eq_map_range]

section

variable {message : PointCloud2} (h : message.Valid) {layout : PointLayout}
  {p : Placement message.pointStep.toNat} (hl : layout.Realises p)

include hl in
private theorem readAt_mask {b : Nat} (hb : b < message.pointStep.toNat) :
    readAt layout.encodedByteMask b = .ok (decide (b ∈ p.bytes)) := by
  rw [readAt, hl.mask b hb]

include hl in
private theorem mask_eq :
    layout.encodedByteMask =
      (List.range message.pointStep.toNat).map fun b ↦ decide (b ∈ p.bytes) := by
  apply List.ext_getElem?
  intro b
  by_cases hb : b < message.pointStep.toNat
  · rw [hl.mask b hb, List.getElem?_map, List.getElem?_range hb]
    rfl
  · rw [List.getElem?_eq_none (by rw [hl.length_mask]; omega),
      List.getElem?_eq_none (by rw [List.length_map, List.length_range]; omega)]

include hl in
private theorem count_mask :
    layout.encodedByteMask.count false = ((message.grid h).rest p.bytes).length := by
  rw [mask_eq hl, List.count_eq_countP, List.countP_map, List.countP_eq_length_filter]
  congr 1
  apply List.filter_congr
  intro b _
  by_cases hb : b ∈ p.bytes
  · simp [hb]
  · simp [hb]

/-- The expected size of the sidecar and its parts. -/
structure SidecarParts (message : PointCloud2) (layout : PointLayout) : Prop where
  unencoded : (unencodedBytesPerPoint layout).toNat = layout.encodedByteMask.count false
  row : (unencodedBytesPerPoint layout * message.width.toUInt64).toNat =
    layout.encodedByteMask.count false * message.width.toNat
  cloud : (unencodedBytesPerPoint layout * message.width.toUInt64 *
      message.height.toUInt64).toNat =
    layout.encodedByteMask.count false * message.width.toNat * message.height.toNat
  padding : (rowPadding message * message.height.toUInt64).toNat =
    (rowPadding message).toNat * message.height.toNat
  size : (sidecarSize message layout).toNat =
    layout.encodedByteMask.count false * message.width.toNat * message.height.toNat +
      (rowPadding message).toNat * message.height.toNat

private theorem toNat_mul_of_lt {a b : UInt64} (h : a.toNat * b.toNat < 18446744073709551616) :
    (a * b).toNat = a.toNat * b.toNat := by
  rw [UInt64.toNat_mul]
  exact Nat.mod_eq_of_lt h

include h hl in
/-- The expected size of the sidecar is computed without wrapping. -/
theorem sidecarParts : SidecarParts message layout := by
  have hmask : layout.encodedByteMask.count false ≤ message.pointStep.toNat := by
    rw [← hl.length_mask]
    exact List.count_le_length
  have hrow := h.row
  have hp := message.pointStep.toNat_lt
  have hs := message.rowStep.toNat_lt
  have hh := message.height.toNat_lt
  have hpad : (rowPadding message).toNat =
      message.rowStep.toNat - message.width.toNat * message.pointStep.toNat := toNat_rowPadding h
  have hw : layout.encodedByteMask.count false * message.width.toNat ≤
      message.width.toNat * message.pointStep.toNat := by
    rw [Nat.mul_comm message.width.toNat]
    exact Nat.mul_le_mul_right _ hmask
  -- A row holds both, and the whole cloud has fewer than `2 ^ 64` bytes.
  have htotal : (layout.encodedByteMask.count false * message.width.toNat +
      (rowPadding message).toNat) * message.height.toNat ≤ 4294967295 * 4294967295 :=
    Nat.mul_le_mul (by omega) (by omega)
  rw [Nat.add_mul] at htotal
  have hunencoded : (unencodedBytesPerPoint layout).toNat =
      layout.encodedByteMask.count false :=
    UInt64.toNat_ofNat_of_lt' (Nat.lt_of_le_of_lt hmask (by
      show _ < 18446744073709551616
      omega))
  have hline : (unencodedBytesPerPoint layout * message.width.toUInt64).toNat =
      layout.encodedByteMask.count false * message.width.toNat := by
    rw [toNat_mul_of_lt, hunencoded, UInt32.toNat_toUInt64]
    rw [hunencoded, UInt32.toNat_toUInt64]
    omega
  have hcloud : (unencodedBytesPerPoint layout * message.width.toUInt64 *
      message.height.toUInt64).toNat =
      layout.encodedByteMask.count false * message.width.toNat * message.height.toNat := by
    rw [toNat_mul_of_lt, hline, UInt32.toNat_toUInt64]
    rw [hline, UInt32.toNat_toUInt64]
    omega
  have hpadding : (rowPadding message * message.height.toUInt64).toNat =
      (rowPadding message).toNat * message.height.toNat := by
    rw [toNat_mul_of_lt, UInt32.toNat_toUInt64]
    rw [UInt32.toNat_toUInt64]
    omega
  refine ⟨hunencoded, hline, hcloud, hpadding, ?_⟩
  rw [sidecarSize, UInt64.toNat_add, hcloud, hpadding]
  exact Nat.mod_eq_of_lt (by omega)

include hl in
/-- The expected size of the sidecar is the number of bytes outside the encoded ones. -/
theorem toNat_sidecarSize :
    (sidecarSize message layout).toNat = ((message.grid h).outside p.bytes).length := by
  rw [(sidecarParts h hl).size, count_mask h hl, toNat_rowPadding h, Grid.length_outside]
  rfl

include h

private theorem row_lt {row r : Nat} (hrow : row < message.height.toNat)
    (hr : r < message.rowStep.toNat) :
    row * message.rowStep.toNat + r < message.data.length := by
  have hm : (row + 1) * message.rowStep.toNat ≤
      message.height.toNat * message.rowStep.toNat := Nat.mul_le_mul_right _ hrow
  rw [Nat.add_mul, Nat.one_mul, Nat.mul_comm message.height.toNat] at hm
  rw [h.size]
  omega

/-- A byte of a point lies in the data. -/
theorem byte_lt {row column b : Nat} (hrow : row < message.height.toNat)
    (hcol : column < message.width.toNat) (hb : b < message.pointStep.toNat) :
    row * message.rowStep.toNat + column * message.pointStep.toNat + b <
      message.data.length := by
  have hc := column_le h hcol
  rw [Nat.add_assoc]
  exact row_lt h hrow (by omega)

/-- A byte of the padding lies in the data. -/
theorem padding_lt {row k : Nat} (hrow : row < message.height.toNat)
    (hk : k < message.rowStep.toNat - message.width.toNat * message.pointStep.toNat) :
    row * message.rowStep.toNat + message.width.toNat * message.pointStep.toNat + k <
      message.data.length := by
  rw [Nat.add_assoc]
  exact row_lt h hrow (by omega)

private theorem gathers_padding {row : Nat} (hrow : row < message.height.toNat) :
    Gathers message.data
      (List.range' (row * message.rowStep.toNat +
          message.width.toNat * message.pointStep.toNat)
        (message.rowStep.toNat - message.width.toNat * message.pointStep.toNat))
      (forRange (rowPadding message).toNat (extractPadding message row)) := by
  have hpad : (rowPadding message).toNat =
      message.rowStep.toNat - message.width.toNat * message.pointStep.toNat :=
    toNat_rowPadding h
  rw [hpad, ← flatMap_range']
  apply gathers_forRange
  intro k hk out
  have hlt := padding_lt h hrow hk
  rw [extractPadding, toNat_paddingOffset h hrow, Checked.readAt_of_lt hlt, Checked.ok_bind,
    gather_cons hlt, gather_nil]
  rfl

private theorem scatters_padding {sidecar : Bytes} {row : Nat}
    (hrow : row < message.height.toNat) :
    Scatters sidecar message.data.length
      (List.range' (row * message.rowStep.toNat +
          message.width.toNat * message.pointStep.toNat)
        (message.rowStep.toNat - message.width.toNat * message.pointStep.toNat))
      (forRange (rowPadding message).toNat (restorePadding sidecar message row)) := by
  have hpad : (rowPadding message).toNat =
      message.rowStep.toNat - message.width.toNat * message.pointStep.toNat :=
    toNat_rowPadding h
  rw [hpad, ← flatMap_range']
  apply scatters_forRange
  intro k hk data cursor hsize hc
  rw [List.length_singleton] at hc
  have hlt := padding_lt h hrow hk
  rw [← hsize] at hlt
  rw [restorePadding, toNat_paddingOffset h hrow, Checked.readAt_of_lt (by omega),
    Checked.ok_bind, Checked.writeAt_of_lt hlt, Checked.ok_bind,
    List.drop_eq_getElem_cons (by omega), scatter_cons, scatter_nil]
  rfl

include hl

private theorem gathers_point {row column : Nat} (hrow : row < message.height.toNat)
    (hcol : column < message.width.toNat) :
    Gathers message.data
      (((message.grid h).rest p.bytes).map fun b ↦
        row * message.rowStep.toNat + column * message.pointStep.toNat + b)
      (forRange message.pointStep.toNat
        (extractByte message layout (pointOffset message row column))) := by
  rw [Grid.rest, ← flatMap_rest]
  apply gathers_forRange
  intro b hb out
  have hlt := byte_lt h hrow hcol hb
  rw [extractByte, readAt_mask hl hb, Checked.ok_bind]
  by_cases hin : b ∈ p.bytes
  · rw [decide_eq_true hin, if_pos rfl, if_pos hin, gather_nil, List.append_nil]
    rfl
  · rw [decide_eq_false hin, if_neg Bool.false_ne_true, if_neg hin,
      toNat_byteAddress h hrow hcol hb, Checked.readAt_of_lt hlt, Checked.ok_bind,
      gather_cons hlt, gather_nil]
    rfl

private theorem scatters_point {sidecar : Bytes} {row column : Nat}
    (hrow : row < message.height.toNat) (hcol : column < message.width.toNat) :
    Scatters sidecar message.data.length
      (((message.grid h).rest p.bytes).map fun b ↦
        row * message.rowStep.toNat + column * message.pointStep.toNat + b)
      (forRange message.pointStep.toNat
        (restoreByte sidecar layout (pointOffset message row column))) := by
  rw [Grid.rest, ← flatMap_rest]
  apply scatters_forRange
  intro b hb data cursor hsize hc
  have hlt := byte_lt h hrow hcol hb
  rw [← hsize] at hlt
  rw [restoreByte, readAt_mask hl hb, Checked.ok_bind]
  by_cases hin : b ∈ p.bytes
  · rw [decide_eq_true hin, if_pos rfl, if_pos hin, scatter_nil]
    rfl
  · rw [if_neg hin, List.length_singleton] at hc
    rw [decide_eq_false hin, if_neg Bool.false_ne_true, if_neg hin,
      toNat_byteAddress h hrow hcol hb, Checked.readAt_of_lt (by omega), Checked.ok_bind,
      Checked.writeAt_of_lt hlt, Checked.ok_bind, List.drop_eq_getElem_cons (by omega),
      scatter_cons, scatter_nil]
    rfl

/-- Extraction succeeds with the bytes outside the encoded ones, in row order. -/
theorem extractSidecar_eq :
    extractSidecar message layout =
      .ok (gather message.data ((message.grid h).outside p.bytes)) := by
  have hrows : Gathers message.data ((message.grid h).outside p.bytes)
      (forRange message.height.toNat fun row sidecar ↦ do
        let sidecar ← forRange message.width.toNat (fun column sidecar ↦
          forRange message.pointStep.toNat
            (extractByte message layout (pointOffset message row column)) sidecar) sidecar
        forRange (rowPadding message).toNat (extractPadding message row) sidecar) := by
    apply gathers_forRange
    intro row hrow
    apply Gathers.bind
    · apply gathers_forRange
      intro column hcol
      exact gathers_point h hl hrow hcol
    · exact gathers_padding h hrow
  have hlen : (gather message.data ((message.grid h).outside p.bytes)).length =
      (sidecarSize message layout).toNat := by
    rw [toNat_sidecarSize h hl, length_gather]
    intro a ha
    rw [h.size]
    exact Grid.outside_lt ha
  rw [extractSidecar, hrows [], Checked.ok_bind, List.nil_append]
  simp only [hlen, decide_true, Checked.require_true, Checked.ok_bind, Checked.pure_eq]

/-- Restoration accepts a sidecar of the expected size and stores it at the bytes outside the
encoded ones; it refuses any other sidecar. -/
theorem restoreSidecar_eq (sidecar : Bytes) :
    restoreSidecar sidecar layout message =
      if sidecar.length = ((message.grid h).outside p.bytes).length then
        .ok { message with
          data := scatter message.data ((message.grid h).outside p.bytes) sidecar }
      else .error .rejected := by
  have hrows : Scatters sidecar message.data.length ((message.grid h).outside p.bytes)
      (forRange message.height.toNat fun row s ↦ do
        let s ← forRange message.width.toNat (fun column s ↦
          forRange message.pointStep.toNat
            (restoreByte sidecar layout (pointOffset message row column)) s) s
        forRange (rowPadding message).toNat (restorePadding sidecar message row) s) := by
    apply scatters_forRange
    intro row hrow
    apply Scatters.bind
    · apply scatters_forRange
      intro column hcol
      exact scatters_point h hl hrow hcol
    · exact scatters_padding h hrow
  rw [restoreSidecar, toNat_sidecarSize h hl]
  by_cases hlen : sidecar.length = ((message.grid h).outside p.bytes).length
  · rw [if_pos hlen, decide_eq_true hlen.symm, Checked.require_true, Checked.ok_bind,
      hrows message.data 0 rfl (by omega), Checked.ok_bind]
    simp only [List.drop_zero, Nat.zero_add, hlen, decide_true, Checked.require_true,
      Checked.ok_bind, Checked.pure_eq]
  · rw [if_neg hlen, decide_eq_false fun he ↦ hlen he.symm]
    rfl

end

end NetBridge.Cloud
