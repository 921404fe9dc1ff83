import Mathlib.Data.List.Nodup
import Mathlib.Logic.Equiv.Defs
import NetBridge.Cloud.Safety

/-!
# The loops of the codec on permuted points

What the encoding loop stores in the builder, and what the decoding loop writes when the decoded
cloud holds the encoded points in some order. The decoding loop is followed through an invariant
over the points already restored; the bytes of one point are never touched by another.
-/

namespace NetBridge.Cloud

open NetBridge.Base

/-- The three words of a position in the byte order of a message. -/
def Position.words (position : Position) (bigendian : Bool) : Bytes :=
  uint32Bytes position.x bigendian ++ uint32Bytes position.y bigendian ++
    uint32Bytes position.z bigendian

/-- A position takes twelve bytes. -/
@[simp] theorem Position.length_words (position : Position) (bigendian : Bool) :
    (position.words bigendian).length = 12 := by
  simp [Position.words]

/-- The words of a position determine it. -/
theorem Position.words_inj {v w : Position} {bigendian : Bool}
    (h : v.words bigendian = w.words bigendian) : v = w := by
  unfold Position.words at h
  obtain ⟨hxy, hz⟩ := List.append_inj h (by simp)
  obtain ⟨hx, hy⟩ := List.append_inj hxy (by simp)
  cases v
  cases w
  rw [Position.mk.injEq]
  exact ⟨uint32Bytes_inj hx, uint32Bytes_inj hy, uint32Bytes_inj hz⟩

/-! ## Host memory -/

/-- The word in memory is the word that was stored there. -/
theorem hostWord_hostBytes (value : UInt32) (before after : Bytes) :
    hostWord (before ++ hostBytes value ++ after) before.length = value := by
  have hb : hostBytes value = [value.toUInt8, (value >>> 8).toUInt8, (value >>> 16).toUInt8,
      (value >>> 24).toUInt8] := rfl
  have hget : ∀ k, (before ++ hostBytes value ++ after).getD (before.length + k) 0 =
      (hostBytes value ++ after).getD k 0 := fun k ↦ by
    rw [List.append_assoc, List.getD_eq_getElem?_getD, List.getD_eq_getElem?_getD,
      List.getElem?_append_right (by omega), Nat.add_sub_cancel_left]
  rw [hostWord, hget 1, hget 2, hget 3, ← Nat.add_zero before.length, hget 0, hb]
  exact @uint32OfBytes_uint32Bytes value false _ _ _ _ rfl

/-- The memory of a position holds its three words. -/
theorem positionWords_bytes (position : Position) (bigendian : Bool) :
    positionWords position.bytes bigendian = position.words bigendian := by
  have h0 : hostWord position.bytes 0 = position.x := by
    have := hostWord_hostBytes position.x [] (hostBytes position.y ++ hostBytes position.z)
    rw [List.nil_append, ← List.append_assoc] at this
    exact this
  have h4 : hostWord position.bytes 4 = position.y :=
    hostWord_hostBytes position.y (hostBytes position.x) (hostBytes position.z)
  have h8 : hostWord position.bytes 8 = position.z := by
    have := hostWord_hostBytes position.z (hostBytes position.x ++ hostBytes position.y) []
    rw [List.append_nil] at this
    exact this
  rw [positionWords, h0, h4, h8, Position.words]

/-- The memory of an index holds it. -/
theorem hostWord_index (value : UInt32) : hostWord (hostBytes value) 0 = value := by
  have := hostWord_hostBytes value [] []
  rw [List.nil_append, List.append_nil] at this
  exact this

/-! ## The encoding loop -/

section

variable {message : PointCloud2} (h : message.Valid) {layout : PointLayout}
  {p : Placement message.pointStep.toNat} (hl : layout.Realises p)

/-- Reading a position gives the one its bytes hold. -/
theorem readPosition_eq {pointStep : Nat} {p : Placement pointStep} (hl : layout.Realises p)
    {data : Bytes} {point : Nat} (hin : ∀ b ∈ p.bytes, point + b < data.length)
    (bigendian : Bool) :
    ∃ position, readPosition data point bigendian layout = .ok position ∧
      position.words bigendian = gather data (shifted point p.xyz) := by
  obtain ⟨hx, hy, hz⟩ := p.lt_of_bytes hin
  obtain ⟨x, hrx, hbx⟩ := readUint32_eq hx bigendian
  obtain ⟨y, hry, hby⟩ := readUint32_eq hy bigendian
  obtain ⟨z, hrz, hbz⟩ := readUint32_eq hz bigendian
  refine ⟨⟨x, y, z⟩, ?_, ?_⟩
  · rw [readPosition, fieldAddress_eq hl.x, Checked.ok_bind, readFloat32, hrx,
      Checked.ok_bind, fieldAddress_eq hl.y, Checked.ok_bind, readFloat32, hry,
      Checked.ok_bind, fieldAddress_eq hl.z, Checked.ok_bind, readFloat32, hrz]
    rfl
  · rw [Position.words, hbx, hby, hbz, Placement.xyz, shifted_append, shifted_append,
      shifted_wordAt, shifted_wordAt, shifted_wordAt, gather_append, gather_append]

/-- The builder holds what the message holds for point `j`. -/
structure PointCloudBuilder.Holds (builder : PointCloudBuilder)
    (p : Placement message.pointStep.toNat) (j : Nat) : Prop where
  pointIndex : builder.pointIndex j = UInt32.ofNat j
  position : (builder.position j).words (toBool message.isBigendian) =
    gather message.data (shifted ((message.grid h).point j) p.xyz)
  color : ∀ values, builder.color = some values →
    p.color.encode (values j) (toBool message.isBigendian) =
      gather message.data (shifted ((message.grid h).point j) p.color.bytes)

private theorem point_in {j : Nat} (hj : j < (message.grid h).count) :
    ∀ b ∈ p.bytes, (message.grid h).point j + b < message.data.length := by
  intro b hb
  rw [h.size]
  exact Grid.point_lt hj (p.inside b hb)

private theorem holds_stored {index : Nat} {builder : PointCloudBuilder} {position : Position}
    {color : Option (Nat → Color)} (hb : ∀ j, j < index → builder.Holds h p j)
    (hwords : position.words (toBool message.isBigendian) =
      gather message.data (shifted ((message.grid h).point index) p.xyz))
    (hcolor : ∀ j, j < index + 1 → ∀ values, color = some values →
      p.color.encode (values j) (toBool message.isBigendian) =
        gather message.data (shifted ((message.grid h).point j) p.color.bytes)) :
    ∀ j, j < index + 1 → PointCloudBuilder.Holds h { builder with
      position := fun i ↦ if i = index then position else builder.position i
      pointIndex := fun i ↦ if i = index then UInt32.ofNat index else builder.pointIndex i
      color } p j := by
  intro j hj
  refine ⟨?_, ?_, hcolor j hj⟩
  · show (if j = index then _ else builder.pointIndex j) = _
    by_cases he : j = index
    · rw [if_pos he, he]
    · rw [if_neg he]
      exact (hb j (by omega)).pointIndex
  · show Position.words (if j = index then _ else builder.position j) _ = _
    by_cases he : j = index
    · rw [if_pos he, he]
      exact hwords
    · rw [if_neg he]
      exact (hb j (by omega)).position

include hl in
private theorem encodePoint_step {index : Nat} (hi : index < (message.grid h).count)
    {builder : PointCloudBuilder} (hcolor : builder.color.isSome = true → p.color ≠ .none)
    (hb : ∀ j, j < index → builder.Holds h p j) :
    ∃ builder', encodePoint message layout index builder = .ok builder' ∧
      builder'.numPoints = builder.numPoints ∧
      builder'.color.isSome = builder.color.isSome ∧
      ∀ j, j < index + 1 → builder'.Holds h p j := by
  have hcount : (message.grid h).count ≤ 2147483647 := h.count
  have hof : (UInt32.ofNat index).toNat = index := UInt32.toNat_ofNat_of_lt' (by
    show index < 4294967296
    omega)
  have hin : (UInt32.ofNat index).toNat < (message.grid h).count := by
    rw [hof]
    exact hi
  obtain ⟨offset, hoff, hpoint⟩ := pointDataOffset_eq h hin
  rw [hof] at hpoint
  obtain ⟨position, hpos, hwords⟩ :=
    readPosition_eq hl (point_in h hi) (toBool message.isBigendian)
  rw [encodePoint, hoff, Checked.ok_bind, hpoint, hpos, Checked.ok_bind]
  dsimp only
  cases hc : builder.color with
  | none =>
    refine ⟨_, rfl, rfl, rfl, holds_stored h hb hwords ?_⟩
    intro j _ values hv
    cases hv
  | some values =>
    have hne := hcolor (by rw [hc]; rfl)
    obtain ⟨color, hr, henc⟩ := readColor_eq hl.color hne
      (fun b hb ↦ point_in h hi b (List.mem_append_right _ hb)) (toBool message.isBigendian)
    dsimp only
    rw [hr, Checked.ok_bind]
    refine ⟨_, rfl, rfl, rfl, holds_stored h hb hwords ?_⟩
    intro j hj values' hv
    cases hv
    dsimp only
    by_cases he : j = index
    · rw [if_pos he, he]
      exact henc
    · rw [if_neg he]
      exact (hb j (by omega)).color values hc

include hl in
/-- The encoding loop fills the builder with every point of the message. -/
theorem encodePoints_eq {pointCount : UInt64} (hc : pointCount.toNat = (message.grid h).count) :
    ∃ builder, forRange pointCount.toNat (encodePoint message layout)
        (PointCloudBuilder.start pointCount.toUInt32 layout) = .ok builder ∧
      builder.numPoints.toNat = (message.grid h).count ∧
      (builder.color.isSome = true ↔ p.color ≠ .none) ∧
      ∀ j, j < (message.grid h).count → builder.Holds h p j := by
  have hcount : (message.grid h).count ≤ 2147483647 := h.count
  have hstart : (PointCloudBuilder.start pointCount.toUInt32 layout).color.isSome = true ↔
      p.color ≠ .none := by
    unfold PointCloudBuilder.start
    dsimp only
    by_cases hn : layout.colorEncoding = .none
    · rw [if_pos hn]
      exact ⟨fun he ↦ (by cases he), fun he ↦ absurd ((colorEncoding_eq_none hl.color).mp hn) he⟩
    · rw [if_neg hn]
      exact ⟨fun _ he ↦ hn ((colorEncoding_eq_none hl.color).mpr he), fun _ ↦ rfl⟩
  have hloop := Checked.forRange_total (n := pointCount.toNat)
    (I := fun n builder ↦ builder.numPoints = pointCount.toUInt32 ∧
      (builder.color.isSome = true ↔ p.color ≠ .none) ∧
      ∀ j, j < n → PointCloudBuilder.Holds h builder p j)
    (fun index builder hi hI ↦ by
      rw [hc] at hi
      obtain ⟨builder', hr, hn, hcol, hh⟩ := encodePoint_step h hl hi hI.2.1.mp hI.2.2
      exact ⟨builder', hr, hn.trans hI.1, by rw [hcol]; exact hI.2.1, hh⟩)
    ⟨rfl, hstart, fun j hj ↦ absurd hj (Nat.not_lt_zero j)⟩
  obtain ⟨builder, hr, hn, hcol, hh⟩ := hloop
  refine ⟨builder, hr, ?_, hcol, ?_⟩
  · rw [hn, UInt64.toNat_toUInt32, hc]
    exact Nat.mod_eq_of_lt (by omega)
  · rw [← hc]
    exact hh

end

/-! ## The decoding loop -/

/-- The attributes have the sizes of the buffers, and a colour exactly if the layout has one. -/
structure DecodeAttributes.Exact (attributes : DecodeAttributes) (place : ColorPlace) : Prop where
  position : attributes.position.byteStride = 12
  pointIndex : attributes.pointIndex.byteStride = 4
  color : ∀ a ∈ attributes.color, place ≠ .none ∧ a.byteStride = 4
  colorless : attributes.color = none → place = .none

/-- Exact attributes fit the buffers of the loop. -/
theorem DecodeAttributes.Exact.storable {attributes : DecodeAttributes} {place : ColorPlace}
    (h : attributes.Exact place) : attributes.Storable place where
  position := Nat.le_of_eq h.position
  color a ha := ⟨(h.color a ha).1, Nat.le_of_eq (h.color a ha).2⟩

/-- The bytes that the values at `index` put into their point. -/
def DecodeAttributes.stored (attributes : DecodeAttributes) (place : ColorPlace)
    (bigendian : Bool) (index : Nat) : Bytes :=
  positionWords (attributes.position.value index) bigendian ++
    match attributes.color with
    | none => []
    | some a => place.encode (colorOfMemory (a.value index)) bigendian

/-- Exact attributes store as many bytes as are encoded. -/
theorem DecodeAttributes.Exact.length_stored {attributes : DecodeAttributes} {pointStep : Nat}
    {p : Placement pointStep} (h : attributes.Exact p.color) (bigendian : Bool) (index : Nat) :
    (attributes.stored p.color bigendian index).length = p.bytes.length := by
  have hxyz : p.xyz.length = 12 := rfl
  rw [stored, Placement.bytes, List.length_append, List.length_append, length_positionWords,
    hxyz]
  cases hc : attributes.color with
  | none =>
    rw [h.colorless hc]
    rfl
  | some a =>
    dsimp only
    rw [length_encode]

section

variable {decoded : PointCloud2} (h : decoded.Valid) {layout : PointLayout}
  {p : Placement decoded.pointStep.toNat} (hl : layout.Realises p)

private theorem data_storedState {attributes : DecodeAttributes} (hexact : attributes.Exact p.color)
    (index point : Nat) {s : DecodeState} (hs : s.Sized (decoded.grid h)) :
    (storedState p attributes index point s).data =
      scatter s.data (shifted point p.bytes)
        (attributes.stored p.color (toBool decoded.isBigendian) index) := by
  have hposition : attributes.positionValue index s = attributes.position.value index := by
    rw [DecodeAttributes.positionValue, attributes.position.length_value, hexact.position,
      ← hs.positionValue, List.drop_length, List.append_nil]
  have hlen : (positionWords (attributes.position.value index)
      (toBool decoded.isBigendian)).length = (shifted point p.xyz).length := by
    rw [length_positionWords]
    rfl
  unfold storedState DecodeAttributes.stored
  rw [Placement.bytes, shifted_append, scatter_append_append _ _ _ hlen, hposition]
  cases hc : attributes.color with
  | none =>
    rw [hexact.colorless hc]
    rfl
  | some a =>
    have hcolor : colorValueAfter a index s = a.value index := by
      rw [colorValueAfter, a.length_value, (hexact.color a (by simp [hc])).2,
        ← hs.colorValue, List.drop_length, List.append_nil]
    dsimp only
    rw [hcolor]

/-- The state after `n` rounds: the first `n` decoded points are in their places, and nothing
else has changed. -/
private structure Restored (p : Placement decoded.pointStep.toNat) (attributes : DecodeAttributes)
    (order : Fin (decoded.grid h).count → Fin (decoded.grid h).count) (n : Nat)
    (s : DecodeState) : Prop where
  sized : s.Sized (decoded.grid h)
  restored : ∀ j : Fin (decoded.grid h).count,
    s.restored[j.1]? = some (decide (∃ i, i.1 < n ∧ order i = j))
  stored : ∀ i : Fin (decoded.grid h).count, i.1 < n →
    gather s.data (shifted ((decoded.grid h).point (order i)) p.bytes) =
      attributes.stored p.color (toBool decoded.isBigendian) i
  kept : ∀ a, (∀ j, j < (decoded.grid h).count →
    a ∉ shifted ((decoded.grid h).point j) p.bytes) → s.data[a]? = decoded.data[a]?

private theorem nodup_shifted (point : Nat) : (shifted point p.bytes).Nodup :=
  p.nodup.map fun _ _ he ↦ Nat.add_left_cancel he

private theorem shifted_disjoint {i j : Nat} (hi : i < (decoded.grid h).count)
    (hj : j < (decoded.grid h).count) (hne : i ≠ j) {a : Nat}
    (ha : a ∈ shifted ((decoded.grid h).point i) p.bytes) :
    a ∉ shifted ((decoded.grid h).point j) p.bytes := by
  intro ha'
  obtain ⟨b, hb, he⟩ := mem_shifted.mp ha
  obtain ⟨b', hb', he'⟩ := mem_shifted.mp ha'
  exact hne (Grid.point_inj hi hj (p.inside b hb) (p.inside b' hb') (by rw [he, he'])).1

include hl in
private theorem restorePoint_restored {pointCount : UInt64}
    (hcount : pointCount.toNat = (decoded.grid h).count) {attributes : DecodeAttributes}
    (hexact : attributes.Exact p.color)
    (order : Equiv.Perm (Fin (decoded.grid h).count))
    (horder : ∀ i, (attributes.pointIndex.index i.1).toNat = (order i).1)
    (index : Fin (decoded.grid h).count) {s : DecodeState}
    (hs : Restored h p attributes order index s) :
    ∃ s', restorePoint decoded pointCount layout attributes index s = .ok s' ∧
      Restored h p attributes order (index + 1) s' := by
  have hfresh : s.restored[(order index).1]? = some false := by
    rw [hs.restored, decide_eq_false]
    intro hseen
    obtain ⟨i, hi, he⟩ := hseen
    rw [order.injective he] at hi
    exact Nat.lt_irrefl _ hi
  have hlt : (attributes.pointIndex.index index.1).toNat < (decoded.grid h).count := by
    rw [horder]
    exact (order index).2
  have heq := @restorePoint_eq decoded h layout pointCount hcount attributes index s hs.sized
    (Nat.le_of_eq hexact.pointIndex)
  dsimp only at heq
  rw [if_pos ⟨hlt, by rw [horder]; exact hfresh⟩] at heq
  have hsized : DecodeState.Sized
      { s with restored := s.restored.set (attributes.pointIndex.index index.1).toNat true }
      (decoded.grid h) :=
    ⟨by rw [List.length_set]; exact hs.sized.restored, hs.sized.positionValue,
      hs.sized.colorValue, hs.sized.data⟩
  rcases storePoint_cases h hl attributes index hlt hsized with ⟨_, hst⟩ | ⟨hn, _⟩
  · refine ⟨_, heq.trans hst, ?_⟩
    have hdata := data_storedState h hexact index.1
      ((decoded.grid h).point (attributes.pointIndex.index index.1).toNat) hsized
    rw [horder] at hdata
    have hin : ∀ a ∈ shifted ((decoded.grid h).point (order index)) p.bytes,
        a < s.data.length := by
      intro a ha
      obtain ⟨b, hb, he⟩ := mem_shifted.mp ha
      rw [← he, hs.sized.data]
      exact Grid.point_lt (order index).2 (p.inside b hb)
    constructor
    · exact sized_storedState h hexact.storable _ _ hsized
    · intro j
      have hr : (storedState p attributes index.1
          ((decoded.grid h).point (attributes.pointIndex.index index.1).toNat)
          { s with restored :=
            s.restored.set (attributes.pointIndex.index index.1).toNat true }).restored =
          s.restored.set (order index).1 true := by
        rw [horder]
        unfold storedState
        cases attributes.color <;> rfl
      rw [hr]
      by_cases hj : order index = j
      · rw [← hj, List.getElem?_set_self (by rw [hs.sized.restored]; exact (order index).2),
          decide_eq_true ⟨index, Nat.lt_succ_self _, rfl⟩]
      · rw [List.getElem?_set_ne fun he ↦ hj (Fin.ext he), hs.restored]
        congr 2
        apply propext
        constructor
        · intro hi
          obtain ⟨i, hi, he⟩ := hi
          exact ⟨i, Nat.lt_succ_of_lt hi, he⟩
        · intro hi
          obtain ⟨i, hi, he⟩ := hi
          refine ⟨i, ?_, he⟩
          have hne : i.1 ≠ index.1 := fun hii ↦ hj (by rw [← Fin.ext hii, he])
          omega
    · intro i hi
      rw [horder, hdata]
      by_cases hii : i = index
      · rw [hii]
        apply gather_scatter (nodup_shifted _) hin
        rw [hexact.length_stored, shifted, List.length_map]
      · have hlt' : i.1 < index.1 := by
          have hne : i.1 ≠ index.1 := fun he ↦ hii (Fin.ext he)
          omega
        rw [← hs.stored i hlt']
        apply gather_congr
        intro a ha
        apply getElem?_scatter_of_not_mem
        apply shifted_disjoint h (order i).2 (order index).2 _ ha
        exact fun he ↦ hii (order.injective (Fin.ext he))
    · intro a ha
      rw [horder, hdata, getElem?_scatter_of_not_mem (ha _ (order index).2)]
      exact hs.kept a ha
  · exact absurd hexact.storable hn

include hl in
/-- When the decoded cloud names every point once, the loop puts every decoded point in the
place it names and keeps all other bytes. -/
theorem restorePoints_eq {pointCount : UInt64}
    (hcount : pointCount.toNat = (decoded.grid h).count) {numPoints : UInt32}
    (hnum : numPoints.toNat = (decoded.grid h).count) {attributes : DecodeAttributes}
    (hexact : attributes.Exact p.color)
    (order : Equiv.Perm (Fin (decoded.grid h).count))
    (horder : ∀ i, (attributes.pointIndex.index i.1).toNat = (order i).1) :
    ∃ data, restorePoints decoded pointCount layout numPoints attributes =
        .ok { decoded with data } ∧
      data.length = decoded.data.length ∧
      (∀ i, gather data (shifted ((decoded.grid h).point (order i)) p.bytes) =
        attributes.stored p.color (toBool decoded.isBigendian) i.1) ∧
      ∀ a, (∀ j, j < (decoded.grid h).count →
        a ∉ shifted ((decoded.grid h).point j) p.bytes) → data[a]? = decoded.data[a]? := by
  have hstart : Restored h p attributes order 0 ⟨List.replicate pointCount.toNat false,
      List.replicate 12 0, List.replicate 4 0, decoded.data⟩ := by
    constructor
    · exact ⟨by rw [List.length_replicate, hcount], rfl, rfl, h.size⟩
    · intro j
      rw [List.getElem?_replicate, hcount, if_pos j.2, decide_eq_false]
      exact fun hi ↦ Nat.not_lt_zero _ hi.choose_spec.1
    · exact fun i hi ↦ absurd hi (Nat.not_lt_zero _)
    · exact fun _ _ ↦ rfl
  have hloop := Checked.forRange_total (n := numPoints.toNat)
    (I := fun n s ↦ Restored h p attributes order n s)
    (fun i s hi hI ↦ restorePoint_restored h hl hcount hexact order horder
      ⟨i, by rw [← hnum]; exact hi⟩ hI) hstart
  obtain ⟨s, hr, hs⟩ := hloop
  rw [hnum] at hs
  have hall : s.restored.contains false = false := by
    rw [List.contains_eq_mem, decide_eq_false_iff_not]
    intro hmem
    obtain ⟨j, hj, he⟩ := List.mem_iff_getElem.mp hmem
    have hj' : j < (decoded.grid h).count := by
      rw [← hs.sized.restored]
      exact hj
    have hr' := hs.restored ⟨j, hj'⟩
    rw [List.getElem?_eq_getElem hj, he, decide_eq_true
      ⟨order.symm ⟨j, hj'⟩, (order.symm ⟨j, hj'⟩).2, order.apply_symm_apply _⟩] at hr'
    cases hr'
  refine ⟨s.data, ?_, ?_, fun i ↦ hs.stored i i.2, hs.kept⟩
  · rw [restorePoints, hr, Checked.ok_bind, hall]
    rfl
  · rw [hs.sized.data, h.size]
    rfl

end

end NetBridge.Cloud
