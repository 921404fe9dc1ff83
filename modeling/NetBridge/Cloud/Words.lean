import NetBridge.Cloud.Placement
import NetBridge.Cloud.Storage

/-!
# Words and colours of a point

Reads and writes of a point as gathers and scatters at the bytes of its placement. A word and
the four bytes that hold it determine each other in either byte order, and so do a colour and
the bytes that hold it.
-/

namespace NetBridge.Cloud

open NetBridge.Base

/-! ## Words -/

/-- The bytes of the word that four bytes hold are these bytes. -/
theorem uint32Bytes_uint32OfBytes (bigendian : Bool) (b0 b1 b2 b3 : UInt8) :
    uint32Bytes (uint32OfBytes bigendian b0 b1 b2 b3) bigendian = [b0, b1, b2, b3] := by
  have ext : ∀ {a b : UInt8}, (∀ i, i < 8 → a.toBitVec.getLsbD i = b.toBitVec.getLsbD i) →
      a = b := fun h ↦ UInt8.eq_of_toBitVec_eq (BitVec.eq_of_getLsbD_eq fun i hi ↦ h i hi)
  cases bigendian with
  | true =>
    simp only [uint32Bytes, uint32OfBytes, if_true, List.cons.injEq, and_true]
    refine ⟨ext ?_, ext ?_, ext ?_, ext ?_⟩
    · intro i hi
      simp [hi]
      grind
    · intro i hi
      simp [hi]
      grind
    · intro i hi
      simp [hi]
      grind
    · intro i hi
      simp [hi]
  | false =>
    simp only [uint32Bytes, uint32OfBytes, Bool.false_eq_true, if_false, List.cons.injEq,
      and_true]
    refine ⟨ext ?_, ext ?_, ext ?_, ext ?_⟩
    · intro i hi
      simp [hi]
    · intro i hi
      simp [hi]
      grind
    · intro i hi
      simp [hi]
      grind
    · intro i hi
      simp [hi]
      grind

private theorem toNat_shifted (value : UInt32) :
    (value >>> 24).toUInt8.toNat = value.toNat / 16777216 % 256 ∧
      (value >>> 16).toUInt8.toNat = value.toNat / 65536 % 256 ∧
      (value >>> 8).toUInt8.toNat = value.toNat / 256 % 256 ∧
      value.toUInt8.toNat = value.toNat % 256 := by
  simp [UInt32.toNat_shiftRight, Nat.shiftRight_eq_div_pow]

/-- The four bytes determine the word. -/
theorem uint32Bytes_inj {v w : UInt32} {bigendian : Bool}
    (h : uint32Bytes v bigendian = uint32Bytes w bigendian) : v = w := by
  have hv := toNat_shifted v
  have hw := toNat_shifted w
  have hlv := v.toNat_lt
  have hlw := w.toNat_lt
  have hbytes : (v >>> 24).toUInt8 = (w >>> 24).toUInt8 ∧
      (v >>> 16).toUInt8 = (w >>> 16).toUInt8 ∧ (v >>> 8).toUInt8 = (w >>> 8).toUInt8 ∧
      v.toUInt8 = w.toUInt8 := by
    cases bigendian with
    | true => simpa [uint32Bytes] using h
    | false =>
      have h' : v.toUInt8 = w.toUInt8 ∧ (v >>> 8).toUInt8 = (w >>> 8).toUInt8 ∧
          (v >>> 16).toUInt8 = (w >>> 16).toUInt8 ∧ (v >>> 24).toUInt8 = (w >>> 24).toUInt8 := by
        simpa [uint32Bytes] using h
      exact ⟨h'.2.2.2, h'.2.2.1, h'.2.1, h'.1⟩
  rw [hbytes.1, hbytes.2.1, hbytes.2.2.1, hbytes.2.2.2] at hv
  apply UInt32.toNat_inj.mp
  omega

/-- The word held by the bytes of a word is this word. -/
theorem uint32OfBytes_uint32Bytes {value : UInt32} {bigendian : Bool} {b0 b1 b2 b3 : UInt8}
    (h : uint32Bytes value bigendian = [b0, b1, b2, b3]) :
    uint32OfBytes bigendian b0 b1 b2 b3 = value := by
  have hb := uint32Bytes_uint32OfBytes bigendian b0 b1 b2 b3
  rw [← h] at hb
  exact uint32Bytes_inj hb

/-- A word has four bytes. -/
@[simp] theorem length_uint32Bytes (value : UInt32) (bigendian : Bool) :
    (uint32Bytes value bigendian).length = 4 := by
  cases bigendian <;> rfl

/-- Consecutive stores inside the buffer. -/
theorem storeBytes_eq {data values : Bytes} {address : Nat}
    (h : address + values.length ≤ data.length) :
    storeBytes data address values =
      .ok (scatter data (List.range' address values.length) values) := by
  induction values generalizing data address with
  | nil => rw [storeBytes, scatter_nil_values]; rfl
  | cons v values ih =>
    rw [List.length_cons] at h
    rw [storeBytes, Checked.writeAt_of_lt (by omega), Checked.ok_bind,
      ih (by rw [List.length_set]; omega), List.length_cons, List.range'_succ, scatter_cons]

/-- A word inside the buffer is the one its four bytes hold. -/
theorem readUint32_eq {data : Bytes} {address : Nat} (h : address + 3 < data.length)
    (bigendian : Bool) : ∃ value, readUint32 data address bigendian = .ok value ∧
      uint32Bytes value bigendian = gather data (wordAt address) := by
  refine ⟨uint32OfBytes bigendian data[address] data[address + 1] data[address + 2]
    data[address + 3], ?_, ?_⟩
  · rw [readUint32, Checked.readAt_of_lt (by omega), Checked.ok_bind,
      Checked.readAt_of_lt (by omega), Checked.ok_bind, Checked.readAt_of_lt (by omega),
      Checked.ok_bind, Checked.readAt_of_lt h, Checked.ok_bind, Checked.pure_eq]
  · rw [uint32Bytes_uint32OfBytes, wordAt, gather_cons (by omega), gather_cons (by omega),
      gather_cons (by omega), gather_cons h, gather_nil]

/-- Writing a word inside the buffer stores its four bytes. -/
theorem writeUint32_eq {data : Bytes} {address : Nat} (h : address + 3 < data.length)
    (value : UInt32) (bigendian : Bool) : writeUint32 value bigendian data address =
      .ok (scatter data (wordAt address) (uint32Bytes value bigendian)) := by
  rw [writeUint32, storeBytes_eq (by rw [length_uint32Bytes]; omega), length_uint32Bytes]
  rfl

/-! ## Colours -/

/-- The bytes that hold a colour at a place. -/
def ColorPlace.encode (color : Color) (bigendian : Bool) : ColorPlace → Bytes
  | none => []
  | packed _ => uint32Bytes color.packed bigendian
  | separate _ _ _ alpha =>
    [color.red, color.green, color.blue] ++ (alpha.map fun _ ↦ color.alpha).toList

/-- A place of a colour in the point at `point`. -/
def shifted (point : Nat) (bytes : List Nat) : List Nat := bytes.map fun b ↦ point + b

/-- A word of a shifted point. -/
@[simp] theorem shifted_wordAt (point offset : Nat) :
    shifted point (wordAt offset) = wordAt (point + offset) := by
  simp only [shifted, wordAt, List.map_cons, List.map_nil, Nat.add_assoc]

/-- Shifting goes address by address. -/
@[simp] theorem shifted_append (point : Nat) (A B : List Nat) :
    shifted point (A ++ B) = shifted point A ++ shifted point B := List.map_append

/-- The shifted bytes are the bytes of the point. -/
theorem mem_shifted {point a : Nat} {bytes : List Nat} :
    a ∈ shifted point bytes ↔ ∃ b ∈ bytes, point + b = a := List.mem_map

/-- A colour has as many bytes as its place. -/
@[simp] theorem length_encode (place : ColorPlace) (color : Color) (bigendian : Bool) :
    (place.encode color bigendian).length = place.bytes.length := by
  cases place with
  | none => rfl
  | packed offset => exact length_uint32Bytes _ _
  | separate red green blue alpha => cases alpha <;> rfl

/-- The address of a field that is present. -/
theorem fieldAddress_eq {ptr : Option FieldPtr} {offset : Nat} (h : PointsAt ptr offset)
    (point : Nat) : fieldAddress point ptr = .ok (point + offset) := by
  obtain ⟨e, he, ho⟩ := h
  rw [he, ← ho]
  rfl

/-- A layout without colour has no red field to write to. -/
theorem writeColor_none {layout : PointLayout} (h : layout.ColorAt .none) (color : Color)
    (bigendian : Bool) (data : Bytes) (point : Nat) :
    writeColor color bigendian layout data point = .error (.fault .nullPointer) := by
  rw [writeColor, if_neg (by rw [h.1]; decide), h.2]
  rfl

/-- Reading the colour of a point gives the colour its bytes hold. -/
theorem readColor_eq {layout : PointLayout} {place : ColorPlace} (hat : layout.ColorAt place)
    (hne : place ≠ .none) {data : Bytes} {point : Nat}
    (hin : ∀ b ∈ place.bytes, point + b < data.length) (bigendian : Bool) :
    ∃ color, readColor data point bigendian layout = .ok color ∧
      place.encode color bigendian = gather data (shifted point place.bytes) := by
  cases place with
  | none => exact absurd rfl hne
  | packed offset =>
    have hlt : point + offset + 3 < data.length := lt_of_wordAt hin
    obtain ⟨packed, hr, hb⟩ := readUint32_eq hlt bigendian
    refine ⟨⟨(packed >>> 16).toUInt8, (packed >>> 8).toUInt8, packed.toUInt8,
      (packed >>> 24).toUInt8⟩, ?_, ?_⟩
    · rw [readColor, if_pos hat.1, fieldAddress_eq hat.2, Checked.ok_bind, hr]
      rfl
    · rw [ColorPlace.bytes, shifted_wordAt, ← hb]
      show uint32Bytes (uint32OfBytes true _ _ _ _) bigendian = _
      rw [@uint32OfBytes_uint32Bytes packed true _ _ _ _ rfl]
  | separate red green blue alpha =>
    have hsep := hat.not_packed
    obtain ⟨-, hred, hgreen, hblue, halpha⟩ := hat
    obtain ⟨h1, h2, h3, hin⟩ := ColorPlace.lt_of_bytes hin
    cases hl : layout.alpha with
    | none =>
      rw [hl] at halpha
      cases halpha
      refine ⟨⟨data[point + red], data[point + green], data[point + blue], 255⟩, ?_, ?_⟩
      · simp only [readColor, if_neg hsep, fieldAddress_eq hred, fieldAddress_eq hgreen,
          fieldAddress_eq hblue, Checked.ok_bind, Checked.readAt_of_lt h1,
          Checked.readAt_of_lt h2, Checked.readAt_of_lt h3, hl, Checked.pure_eq]
      · simp only [ColorPlace.encode, ColorPlace.bytes, Option.map_none, Option.toList_none,
          List.append_nil, shifted, List.map_cons, List.map_nil]
        rw [gather_cons h1, gather_cons h2, gather_cons h3, gather_nil]
    | some e =>
      rw [hl] at halpha
      cases halpha
      have h4 : point + e.field.offset.toNat < data.length := hin _ rfl
      refine ⟨⟨data[point + red], data[point + green], data[point + blue],
        data[point + e.field.offset.toNat]⟩, ?_, ?_⟩
      · simp only [readColor, if_neg hsep, fieldAddress_eq hred, fieldAddress_eq hgreen,
          fieldAddress_eq hblue, Checked.ok_bind, Checked.readAt_of_lt h1,
          Checked.readAt_of_lt h2, Checked.readAt_of_lt h3, Checked.readAt_of_lt h4, hl,
          Checked.pure_eq]
      · simp only [ColorPlace.encode, ColorPlace.bytes, Option.map_some, Option.toList_some,
          List.cons_append, List.nil_append, shifted, List.map_cons, List.map_nil]
        rw [gather_cons h1, gather_cons h2, gather_cons h3, gather_cons h4, gather_nil]

/-- Writing the colour of a point stores the bytes that hold it. -/
theorem writeColor_eq {layout : PointLayout} {place : ColorPlace} (hat : layout.ColorAt place)
    (hne : place ≠ .none) {data : Bytes} {point : Nat}
    (hin : ∀ b ∈ place.bytes, point + b < data.length) (color : Color) (bigendian : Bool) :
    writeColor color bigendian layout data point =
      .ok (scatter data (shifted point place.bytes) (place.encode color bigendian)) := by
  cases place with
  | none => exact absurd rfl hne
  | packed offset =>
    have hlt : point + offset + 3 < data.length := lt_of_wordAt hin
    rw [writeColor, if_pos hat.1, fieldAddress_eq hat.2, Checked.ok_bind, writeUint32_eq hlt,
      ColorPlace.bytes, shifted_wordAt]
    rfl
  | separate red green blue alpha =>
    have hsep := hat.not_packed
    obtain ⟨-, hred, hgreen, hblue, halpha⟩ := hat
    obtain ⟨h1, h2, h3, hin⟩ := ColorPlace.lt_of_bytes hin
    rw [writeColor, if_neg hsep, fieldAddress_eq hred, Checked.ok_bind,
      Checked.writeAt_of_lt h1, Checked.ok_bind, fieldAddress_eq hgreen, Checked.ok_bind,
      Checked.writeAt_of_lt (by rw [List.length_set]; exact h2), Checked.ok_bind,
      fieldAddress_eq hblue, Checked.ok_bind,
      Checked.writeAt_of_lt (by rw [List.length_set, List.length_set]; exact h3),
      Checked.ok_bind]
    cases hl : layout.alpha with
    | none =>
      rw [hl] at halpha
      cases halpha
      rfl
    | some e =>
      rw [hl] at halpha
      cases halpha
      have h4 : point + e.field.offset.toNat < data.length := hin _ rfl
      dsimp only
      rw [Checked.writeAt_of_lt (by simpa only [List.length_set] using h4)]
      rfl

end NetBridge.Cloud
