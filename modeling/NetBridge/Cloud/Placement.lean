import NetBridge.Cloud.Layout

/-!
# Placements

What an accepted layout says about a point: at which bytes its coordinates and its colour lie.
A placement carries the facts `ParseLayout` establishes, that these bytes are distinct and lie
inside the point, and a layout from `ParseLayout` realises one.
-/

namespace NetBridge.Cloud

open NetBridge.Base

/-! ## Spans -/

/-- The number of bytes of a field. -/
def fieldSize (field : PointField) : Nat :=
  (datatypeSize field.datatype).toNat * field.count.toNat

/-- The bytes of a field inside its point. -/
def span (field : PointField) : List Nat := List.range' field.offset.toNat (fieldSize field)

/-- The bytes of a field are those from its offset up to its end. -/
theorem mem_span {field : PointField} {b : Nat} :
    b ∈ span field ↔
      field.offset.toNat ≤ b ∧ b < field.offset.toNat + fieldSize field := by
  rw [span, List.mem_range'_1]

private theorem datatypeSize_le (datatype : UInt8) : (datatypeSize datatype).toNat ≤ 8 := by
  unfold datatypeSize
  split
  · decide
  · split
    · decide
    · split
      · decide
      · split
        · decide
        · decide

private theorem toNat_size (field : PointField) :
    (datatypeSize field.datatype * field.count.toUInt64).toNat = fieldSize field := by
  have hd := datatypeSize_le field.datatype
  have hc := field.count.toNat_lt
  have hm : (datatypeSize field.datatype).toNat * field.count.toNat ≤ 8 * field.count.toNat :=
    Nat.mul_le_mul_right _ hd
  rw [UInt64.toNat_mul, UInt32.toNat_toUInt64, fieldSize]
  apply Nat.mod_eq_of_lt
  omega

/-- The end of a field is computed without wrapping. -/
theorem toNat_fieldEnd (field : PointField) :
    (fieldEnd field).toNat = field.offset.toNat + fieldSize field := by
  have hd := datatypeSize_le field.datatype
  have hc := field.count.toNat_lt
  have ho := field.offset.toNat_lt
  have hm : (datatypeSize field.datatype).toNat * field.count.toNat ≤ 8 * field.count.toNat :=
    Nat.mul_le_mul_right _ hd
  have hs : fieldSize field ≤ 8 * field.count.toNat := hm
  rw [fieldEnd, UInt64.toNat_add, toNat_size, UInt32.toNat_toUInt64]
  apply Nat.mod_eq_of_lt
  omega

/-- A field fits when it is not empty and ends inside the point. -/
theorem fieldFits_iff {field : PointField} {pointStep : UInt32} :
    fieldFits field pointStep = true ↔
      0 < fieldSize field ∧ field.offset.toNat + fieldSize field ≤ pointStep.toNat := by
  unfold fieldFits
  have hz : fieldSize field = 0 ↔ datatypeSize field.datatype = 0 ∨ field.count = 0 := by
    rw [fieldSize, Nat.mul_eq_zero, ← UInt64.toNat_inj, ← UInt32.toNat_inj]
    rfl
  dsimp only
  by_cases h : datatypeSize field.datatype = 0 ∨ field.count = 0
  · rw [if_pos h]
    have := hz.mpr h
    constructor
    · intro hf
      cases hf
    · intro hf
      omega
  · rw [if_neg h]
    have hp : fieldSize field ≠ 0 := fun he ↦ h (hz.mp he)
    simp only [Bool.and_eq_true, decide_eq_true_eq, UInt32.le_iff_toNat_le,
      UInt64.le_iff_toNat_le, toNat_size, UInt32.toNat_toUInt64]
    constructor
    · intro hf
      have hsub := UInt32.toNat_sub_of_le _ _ (UInt32.le_iff_toNat_le.mpr hf.1)
      omega
    · intro hf
      have hle : field.offset.toNat ≤ pointStep.toNat := by omega
      have hsub := UInt32.toNat_sub_of_le _ _ (UInt32.le_iff_toNat_le.mpr hle)
      omega

/-- The fields share no byte. -/
def Apart (f g : PointField) : Prop := ∀ b ∈ span f, b ∉ span g

/-- Fields that do not overlap share no byte. -/
theorem apart_of_not_overlap {f g : PointField} (h : spansOverlap f g = false) : Apart f g := by
  intro b hf hg
  rw [mem_span] at hf hg
  have ho : spansOverlap f g = true := by
    simp only [spansOverlap, Bool.and_eq_true, decide_eq_true_eq, UInt64.lt_iff_toNat_lt,
      UInt32.toNat_toUInt64, toNat_fieldEnd]
    omega
  rw [h] at ho
  cases ho

/-! ## The encoded fields -/

/-- The bytes of a list of fields. -/
def spans (encoded : List FieldPtr) : List Nat := encoded.flatMap fun e ↦ span e.field

/-- The pairwise test of the fields shows them apart. -/
theorem pairwise_apart {encoded : List FieldPtr} (h : overlapping encoded = false) :
    encoded.Pairwise fun e other ↦ Apart e.field other.field := by
  induction encoded with
  | nil => exact List.Pairwise.nil
  | cons e encoded ih =>
    rw [overlapping, Bool.or_eq_false_iff] at h
    apply List.Pairwise.cons
    · intro other ho
      apply apart_of_not_overlap
      simpa using List.any_eq_false.mp h.1 other ho
    · exact ih h.2

/-- Pairwise apart fields have distinct bytes. -/
theorem nodup_spans {encoded : List FieldPtr} (h : overlapping encoded = false) :
    (spans encoded).Nodup := by
  rw [spans, List.nodup_iff_pairwise_ne, List.pairwise_flatMap]
  refine ⟨fun e _ ↦ List.nodup_range', (pairwise_apart h).imp ?_⟩
  rintro e other hapart b hb _ ho rfl
  exact hapart b hb ho

private theorem getElem?_mark {mask : List Bool} {lo hi : Nat} (hlo : lo ≤ hi)
    (hhi : hi ≤ mask.length) (b : Nat) :
    (mask.take lo ++ List.replicate (hi - lo) true ++ mask.drop hi)[b]? =
      if lo ≤ b ∧ b < hi then some true else mask[b]? := by
  have h1 : (mask.take lo).length = lo := by rw [List.length_take]; omega
  have h2 : (mask.take lo ++ List.replicate (hi - lo) true).length = hi := by
    rw [List.length_append, h1, List.length_replicate]; omega
  by_cases hbh : b < hi
  · rw [List.getElem?_append_left (by rw [h2]; exact hbh)]
    by_cases hbl : b < lo
    · rw [List.getElem?_append_left (by rw [h1]; exact hbl), if_neg (by omega),
        List.getElem?_take_of_lt hbl]
    · rw [List.getElem?_append_right (by rw [h1]; omega), if_pos (by omega), h1,
        List.getElem?_replicate, if_pos (by omega)]
  · rw [List.getElem?_append_right (by rw [h2]; omega), if_neg (by omega), h2,
      List.getElem?_drop]
    congr 1
    omega

/-- Marking a field sets the mask at the bytes of the field. -/
theorem markField_spec {field : PointField} {mask mask' : List Bool}
    (hlen : mask.length < 4294967296) (h : markField field mask = some mask') :
    mask'.length = mask.length ∧ ∀ b, b < mask.length →
      mask'[b]? = if b ∈ span field then some true else mask[b]? := by
  unfold markField at h
  split at h
  · next hfit =>
    rw [fieldFits_iff, UInt32.toNat_ofNat_of_lt' hlen] at hfit
    rw [toNat_fieldEnd] at h
    have hmask := Option.some.inj h
    rw [← hmask]
    constructor
    · simp only [List.length_append, List.length_take, List.length_replicate, List.length_drop]
      omega
    · intro b _
      rw [getElem?_mark (by omega) (by omega)]
      simp only [mem_span]
  · cases h

/-- Marking fields one after another sets the mask at all their bytes. -/
theorem markFields_spec {encoded : List FieldPtr} {mask mask' : List Bool}
    (hlen : mask.length < 4294967296)
    (h : encoded.foldlM (fun mask e ↦ markField e.field mask) mask = some mask') :
    mask'.length = mask.length ∧ ∀ b, b < mask.length →
      mask'[b]? = if b ∈ spans encoded then some true else mask[b]? := by
  induction encoded generalizing mask with
  | nil =>
    cases h
    exact ⟨rfl, fun b _ ↦ (if_neg List.not_mem_nil).symm⟩
  | cons e encoded ih =>
    rw [List.foldlM_cons, Option.bind_eq_bind, Option.bind_eq_some_iff] at h
    obtain ⟨mid, hm, h⟩ := h
    obtain ⟨hl, hs⟩ := markField_spec hlen hm
    obtain ⟨hl', hs'⟩ := ih (by rw [hl]; exact hlen) h
    refine ⟨hl'.trans hl, ?_⟩
    intro b hb
    rw [hs' b (by rw [hl]; exact hb), hs b hb]
    have hmem : b ∈ spans (e :: encoded) ↔ b ∈ span e.field ∨ b ∈ spans encoded := by
      rw [spans, List.flatMap_cons, List.mem_append]
      rfl
    by_cases h1 : b ∈ spans encoded
    · rw [if_pos h1, if_pos (hmem.mpr (Or.inr h1))]
    · rw [if_neg h1]
      by_cases h2 : b ∈ span e.field
      · rw [if_pos h2, if_pos (hmem.mpr (Or.inl h2))]
      · rw [if_neg h2, if_neg fun h ↦ (hmem.mp h).elim h2 h1]

/-- The mask of a point is set exactly at the bytes of the marked fields. -/
theorem markFields_replicate {encoded : List FieldPtr} (pointStep : UInt32) {mask : List Bool}
    (h : encoded.foldlM (fun mask e ↦ markField e.field mask)
      (List.replicate pointStep.toNat false) = some mask) :
    mask.length = pointStep.toNat ∧ ∀ b, b < pointStep.toNat →
      mask[b]? = some (decide (b ∈ spans encoded)) := by
  have hlen : (List.replicate pointStep.toNat false).length < 4294967296 := by
    rw [List.length_replicate]
    exact pointStep.toNat_lt
  rcases markFields_spec hlen h with ⟨hmlen, hmspec⟩
  rw [List.length_replicate] at hmlen hmspec
  refine ⟨hmlen, ?_⟩
  intro b hb
  rw [hmspec b hb]
  split
  · next hmem => rw [decide_eq_true hmem]
  · next hmem => rw [decide_eq_false hmem, List.getElem?_replicate, if_pos hb]

/-! ## Placements -/

/-- Where the colour of a point lies. -/
inductive ColorPlace where
  | none
  | packed (offset : Nat)
  | separate (red green blue : Nat) (alpha : Option Nat)

/-- The four bytes of a word. -/
def wordAt (offset : Nat) : List Nat := [offset, offset + 1, offset + 2, offset + 3]

/-- The bytes of the colour. -/
def ColorPlace.bytes : ColorPlace → List Nat
  | none => []
  | packed offset => wordAt offset
  | separate red green blue alpha => [red, green, blue] ++ alpha.toList

/-- Where the encoded parts of a point of `pointStep` bytes lie: distinct bytes inside it. -/
structure Placement (pointStep : Nat) where
  x : Nat
  y : Nat
  z : Nat
  color : ColorPlace
  nodup : (wordAt x ++ wordAt y ++ wordAt z ++ color.bytes).Nodup
  inside : ∀ b ∈ wordAt x ++ wordAt y ++ wordAt z ++ color.bytes, b < pointStep

/-- The bytes of the coordinates. -/
def Placement.xyz {pointStep : Nat} (p : Placement pointStep) : List Nat :=
  wordAt p.x ++ wordAt p.y ++ wordAt p.z

/-- The encoded bytes. -/
def Placement.bytes {pointStep : Nat} (p : Placement pointStep) : List Nat :=
  p.xyz ++ p.color.bytes

/-- A word that is inside has its last byte inside. -/
theorem lt_of_wordAt {offset point size : Nat} (h : ∀ b ∈ wordAt offset, point + b < size) :
    point + offset + 3 < size := by
  have hlast := h (offset + 3) (by simp [wordAt])
  omega

/-- The coordinates of a point that is inside are. -/
theorem Placement.lt_of_bytes {pointStep : Nat} (p : Placement pointStep) {point size : Nat}
    (h : ∀ b ∈ p.bytes, point + b < size) :
    point + p.x + 3 < size ∧ point + p.y + 3 < size ∧ point + p.z + 3 < size := by
  refine ⟨lt_of_wordAt fun b hb ↦ h b ?_, lt_of_wordAt fun b hb ↦ h b ?_,
    lt_of_wordAt fun b hb ↦ h b ?_⟩
  · simp only [Placement.bytes, Placement.xyz, List.mem_append]
    exact Or.inl (Or.inl (Or.inl hb))
  · simp only [Placement.bytes, Placement.xyz, List.mem_append]
    exact Or.inl (Or.inl (Or.inr hb))
  · simp only [Placement.bytes, Placement.xyz, List.mem_append]
    exact Or.inl (Or.inr hb)

/-- The channels of a colour that is inside are. -/
theorem ColorPlace.lt_of_bytes {red green blue : Nat} {alpha : Option Nat} {point size : Nat}
    (h : ∀ b ∈ (ColorPlace.separate red green blue alpha).bytes, point + b < size) :
    point + red < size ∧ point + green < size ∧ point + blue < size ∧
      ∀ offset, alpha = some offset → point + offset < size := by
  simp only [ColorPlace.bytes, List.mem_append, List.mem_cons] at h
  refine ⟨h red (by simp), h green (by simp), h blue (by simp), ?_⟩
  rintro offset rfl
  exact h offset (by simp)

/-- The pointer is not null and its field lies at `offset`. -/
def PointsAt (ptr : Option FieldPtr) (offset : Nat) : Prop :=
  ∃ e, ptr = some e ∧ e.field.offset.toNat = offset

/-- The colour members of the layout say where the colour lies. -/
def PointLayout.ColorAt (layout : PointLayout) : ColorPlace → Prop
  | .none => layout.colorEncoding = .none ∧ layout.red = none
  | .packed offset => layout.colorEncoding = .packed ∧ PointsAt layout.packedColor offset
  | .separate red green blue alpha =>
    layout.colorEncoding = .separate ∧ PointsAt layout.red red ∧ PointsAt layout.green green ∧
      PointsAt layout.blue blue ∧ layout.alpha.map (fun e ↦ e.field.offset.toNat) = alpha

/-- A layout with separate channels has no packed colour. -/
theorem PointLayout.ColorAt.not_packed {layout : PointLayout} {red green blue : Nat}
    {alpha : Option Nat} (h : layout.ColorAt (.separate red green blue alpha)) :
    ¬layout.colorEncoding = .packed := by
  rw [h.1]
  decide

/-- The layout describes the placement, and its mask covers exactly the encoded bytes. -/
structure PointLayout.Realises (layout : PointLayout) {pointStep : Nat}
    (p : Placement pointStep) : Prop where
  x : PointsAt layout.x p.x
  y : PointsAt layout.y p.y
  z : PointsAt layout.z p.z
  color : layout.ColorAt p.color
  length_mask : layout.encodedByteMask.length = pointStep
  mask : ∀ b, b < pointStep → layout.encodedByteMask[b]? = some (decide (b ∈ p.bytes))

private theorem span_word {e : FieldPtr} (h : fieldSize e.field = 4) :
    span e.field = wordAt e.field.offset.toNat := by
  rw [span, h]
  rfl

private theorem span_byte {e : FieldPtr} (h : fieldSize e.field = 1) :
    span e.field = [e.field.offset.toNat] := by
  rw [span, h]
  rfl

private theorem scalar_fits {field : PointField} {datatype : UInt8} {pointStep : UInt32}
    (h : (decide (field.datatype = datatype) && decide (field.count = 1) &&
      fieldFits field pointStep) = true) :
    fieldSize field = (datatypeSize datatype).toNat ∧ fieldFits field pointStep = true := by
  simp only [Bool.and_eq_true, decide_eq_true_eq] at h
  refine ⟨?_, h.2⟩
  rw [fieldSize, h.1.1, h.1.2]
  exact Nat.mul_one _

/-- A pointer that passes the test is not null, and its field fits. -/
theorem isFloat32Scalar_some {ptr : Option FieldPtr} {pointStep : UInt32}
    (h : isFloat32Scalar ptr pointStep = true) :
    ∃ e, ptr = some e ∧ fieldSize e.field = 4 ∧ fieldFits e.field pointStep = true := by
  unfold isFloat32Scalar at h
  split at h
  · cases h
  · exact ⟨_, rfl, scalar_fits h⟩

/-- A pointer that passes the test is not null, and its field fits. -/
theorem isUint8Scalar_some {ptr : Option FieldPtr} {pointStep : UInt32}
    (h : isUint8Scalar ptr pointStep = true) :
    ∃ e, ptr = some e ∧ fieldSize e.field = 1 ∧ fieldFits e.field pointStep = true := by
  unfold isUint8Scalar at h
  split at h
  · cases h
  · exact ⟨_, rfl, scalar_fits h⟩

/-- A pointer that passes the test is not null, and its field fits. -/
theorem isPackedColor_some {ptr : Option FieldPtr} {pointStep : UInt32}
    (h : isPackedColor ptr pointStep = true) :
    ∃ e, ptr = some e ∧ fieldSize e.field = 4 ∧ fieldFits e.field pointStep = true := by
  unfold isPackedColor at h
  split at h
  · cases h
  · next index field =>
    simp only [Bool.and_eq_true, Bool.or_eq_true, decide_eq_true_eq] at h
    refine ⟨_, rfl, ?_, h.2⟩
    rw [fieldSize, h.1.1]
    cases h.1.2 with
    | inl hd =>
      rw [hd]
      rfl
    | inr hd =>
      rw [hd]
      rfl

private theorem parseColor_spec (fields : List PointField) (pointStep : UInt32)
    (x y z : Option FieldPtr) :
    let parsed := parseColor fields pointStep { x, y, z }
    parsed.x = x ∧ parsed.y = y ∧ parsed.z = z ∧ ∃ color, parsed.ColorAt color ∧
      ∃ encoded : List FieldPtr,
        encodedFields parsed = [x, y, z].reduceOption ++ encoded ∧
        spans encoded = color.bytes ∧ ∀ e ∈ encoded, fieldFits e.field pointStep = true := by
  dsimp only
  unfold parseColor
  dsimp only
  generalize (if isPackedColor (findField fields "rgba") pointStep = true then
    findField fields "rgba" else findField fields "rgb") = packedColor
  split
  · next hp =>
    obtain ⟨e, he, hsize, hfit⟩ := isPackedColor_some hp
    refine ⟨rfl, rfl, rfl, .packed e.field.offset.toNat, ⟨rfl, e, he, rfl⟩, [e], ?_, ?_, ?_⟩
    · rw [he]
      rfl
    · rw [spans, List.flatMap_cons, span_word hsize]
      rfl
    · intro e' he'
      rw [List.mem_singleton.mp he']
      exact hfit
  · split
    · next hs =>
      simp only [Bool.and_eq_true, Bool.or_eq_true] at hs
      obtain ⟨⟨⟨hr, hg⟩, hb⟩, ha⟩ := hs
      obtain ⟨r, hr, hrsize, hrfit⟩ := isUint8Scalar_some hr
      obtain ⟨g, hg, hgsize, hgfit⟩ := isUint8Scalar_some hg
      obtain ⟨b, hb, hbsize, hbfit⟩ := isUint8Scalar_some hb
      have halpha : findField fields "a" = none ∨ ∃ a, findField fields "a" = some a ∧
          fieldSize a.field = 1 ∧ fieldFits a.field pointStep = true := by
        cases ha with
        | inl hn => exact Or.inl (Option.isNone_iff_eq_none.mp hn)
        | inr hs => exact Or.inr (isUint8Scalar_some hs)
      refine ⟨rfl, rfl, rfl, .separate r.field.offset.toNat g.field.offset.toNat
        b.field.offset.toNat ((findField fields "a").map fun e ↦ e.field.offset.toNat),
        ⟨rfl, ⟨r, hr, rfl⟩, ⟨g, hg, rfl⟩, ⟨b, hb, rfl⟩, rfl⟩, ?_⟩
      cases halpha with
      | inl hn =>
        rw [hn]
        refine ⟨[r, g, b], ?_, ?_, ?_⟩
        · simp only [encodedFields, hr, hg, hb]
          rfl
        · simp only [spans, List.flatMap_cons, List.flatMap_nil, span_byte hrsize,
            span_byte hgsize, span_byte hbsize]
          rfl
        · simp only [List.forall_mem_cons]
          exact ⟨hrfit, hgfit, hbfit, by simp⟩
      | inr hs =>
        obtain ⟨a, ha, hasize, hafit⟩ := hs
        rw [ha]
        refine ⟨[r, g, b, a], ?_, ?_, ?_⟩
        · simp only [encodedFields, hr, hg, hb]
          rfl
        · simp only [spans, List.flatMap_cons, List.flatMap_nil, span_byte hrsize,
            span_byte hgsize, span_byte hbsize, span_byte hasize]
          rfl
        · simp only [List.forall_mem_cons]
          exact ⟨hrfit, hgfit, hbfit, hafit, by simp⟩
    · refine ⟨rfl, rfl, rfl, .none, ⟨rfl, rfl⟩, [], ?_, rfl, ?_⟩
      · rfl
      · exact fun e he ↦ absurd he List.not_mem_nil

/-- What `ParseLayout` has checked of a layout that it accepts. -/
structure Parsed (fields : List PointField) (pointStep : UInt32) (parsed : PointLayout)
    (mask : List Bool) : Prop where
  fit : ∀ field ∈ fields, fieldFits field pointStep = true
  x : isFloat32Scalar (findField fields "x") pointStep = true
  y : isFloat32Scalar (findField fields "y") pointStep = true
  z : isFloat32Scalar (findField fields "z") pointStep = true
  color : parsed = parseColor fields pointStep
    { x := findField fields "x", y := findField fields "y", z := findField fields "z" }
  apart : overlapping (encodedFields parsed) = false
  others : intruding fields (encodedFields parsed) = false
  mask : (encodedFields parsed).foldlM (fun mask field ↦ markField field.field mask)
    (List.replicate pointStep.toNat false) = some mask

/-- A layout is accepted after all checks of `ParseLayout`. -/
theorem parseLayout_eq_some {fields : List PointField} {pointStep : UInt32}
    {layout : PointLayout} (h : parseLayout fields pointStep = some layout) :
    ∃ parsed mask, Parsed fields pointStep parsed mask ∧
      layout = { parsed with encodedByteMask := mask } := by
  unfold parseLayout at h
  split at h
  · cases h
  · split at h
    · cases h
    · next hfit =>
      dsimp only at h
      split at h
      · cases h
      · next hxyz =>
        simp only [Bool.not_eq_true, Bool.or_eq_false_iff, Bool.not_eq_false'] at hxyz
        split at h
        · cases h
        · split at h
          · cases h
          · next hno =>
            simp only [Bool.or_eq_true, not_or, Bool.not_eq_true] at hno
            rcases Option.map_eq_some_iff.mp h with ⟨mask, hmask, hl⟩
            refine ⟨_, mask, ⟨?_, hxyz.1.1, hxyz.1.2, hxyz.2, rfl, hno.1, hno.2, hmask⟩, hl.symm⟩
            intro field hm
            simpa using fun hno ↦ hfit (List.any_eq_true.mpr ⟨field, hm, hno⟩)

/-- A layout that `ParseLayout` accepts realises a placement in the point. -/
theorem parseLayout_realises {fields : List PointField} {pointStep : UInt32}
    {layout : PointLayout} (h : parseLayout fields pointStep = some layout) :
    ∃ p : Placement pointStep.toNat, layout.Realises p := by
  rcases parseLayout_eq_some h with ⟨parsed, mask, hparsed, rfl⟩
  rcases isFloat32Scalar_some hparsed.x with ⟨ex, hx, hxsize, hxfit⟩
  rcases isFloat32Scalar_some hparsed.y with ⟨ey, hy, hysize, hyfit⟩
  rcases isFloat32Scalar_some hparsed.z with ⟨ez, hz, hzsize, hzfit⟩
  have hcolor := parseColor_spec fields pointStep (some ex) (some ey) (some ez)
  rw [← hx, ← hy, ← hz, ← hparsed.color, hx, hy, hz] at hcolor
  rcases hcolor with ⟨hpx, hpy, hpz, color, hat, encoded, henc, hspans, hfit⟩
  have hall : spans (encodedFields parsed) =
      wordAt ex.field.offset.toNat ++ wordAt ey.field.offset.toNat ++
        wordAt ez.field.offset.toNat ++ color.bytes := by
    rw [henc, ← hspans, ← span_word hxsize, ← span_word hysize, ← span_word hzsize]
    simp only [spans, List.append_assoc]
    rfl
  have hfits : ∀ e ∈ encodedFields parsed, fieldFits e.field pointStep = true := by
    rw [henc]
    intro e he
    cases List.mem_append.mp he with
    | inl he =>
      have he' : e ∈ [ex, ey, ez] := he
      simp only [List.mem_cons, List.not_mem_nil, or_false] at he'
      rcases he' with rfl | rfl | rfl
      · exact hxfit
      · exact hyfit
      · exact hzfit
    | inr he => exact hfit e he
  have hinside : ∀ b ∈ spans (encodedFields parsed), b < pointStep.toNat := by
    intro b hb
    rcases List.mem_flatMap.mp hb with ⟨e, he, hb⟩
    have hf := fieldFits_iff.mp (hfits e he)
    rw [mem_span] at hb
    omega
  have hnodup := nodup_spans hparsed.apart
  rcases markFields_replicate pointStep hparsed.mask with ⟨hmlen, hmspec⟩
  rw [hall] at hinside hnodup
  refine ⟨⟨_, _, _, color, hnodup, hinside⟩, ⟨ex, hpx, rfl⟩, ⟨ey, hpy, rfl⟩, ⟨ez, hpz, rfl⟩, ?_,
    hmlen, ?_⟩
  · cases color with
    | none => exact hat
    | packed offset => exact hat
    | separate red green blue alpha => exact hat
  · intro b hb
    rw [hmspec b hb, hall]
    rfl

end NetBridge.Cloud
