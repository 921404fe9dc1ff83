import NetBridge.Base.Assigning
import NetBridge.Cloud.Sidecar
import Mathlib.Data.List.ReduceOption

/-!
# The parts of a point

A layout cuts the bytes of a cloud in two: those of the chosen fields, and the rest with the
padding of the rows. `ParseLayout` makes the cut sound, and the sidecar is exactly the second part:
`ExtractSidecar` and `RestoreSidecar`,
`src/swarm_ros_bridge/src/transport/draco_pointcloud_codec.cpp:327–398`, are inverse to each other.
-/

namespace NetBridge.Cloud

open NetBridge.Base

/-! ## The layout -/

/-- The fields a layout points to. -/
def PointLayout.chosen (layout : PointLayout) : List FieldPtr :=
  [layout.x, layout.y, layout.z, layout.packedColor, layout.red, layout.green, layout.blue,
    layout.alpha].reduceOption

/-- A field that can hold a packed colour. -/
def PointField.Packed (field : PointField) (pointStep : Nat) : Prop :=
  (field.datatype = float32 ∨ field.datatype = uint32) ∧ field.count = 1 ∧
    field.offset.toNat + 4 ≤ pointStep

/-- A field that can hold a channel of a colour. -/
def PointField.Channel (field : PointField) (pointStep : Nat) : Prop :=
  field.datatype = uint8 ∧ field.count = 1 ∧ field.offset.toNat + 1 ≤ pointStep

/-- The field is in the list under the name. -/
def Named (fields : List PointField) (name : String) (field : PointField) : Prop :=
  field ∈ fields ∧ field.name = ascii name

/-- The field is the first of the list under the name. -/
def FirstNamed (fields : List PointField) (name : String) (field : PointField) : Prop :=
  fields.find? (·.name = ascii name) = some field

/-- The list has a colour, of fields found under their names in the given way: a packed one, or
three channels whose alpha channel is absent or another channel. -/
def HasColor (found : String → PointField → Prop) (pointStep : Nat) : Prop :=
  (∃ field, (found "rgba" field ∨ found "rgb" field) ∧ field.Packed pointStep) ∨
    ((∃ field, found "r" field ∧ field.Channel pointStep) ∧
      (∃ field, found "g" field ∧ field.Channel pointStep) ∧
      (∃ field, found "b" field ∧ field.Channel pointStep) ∧
      ((∀ field, ¬found "a" field) ∨ ∃ field, found "a" field ∧ field.Channel pointStep))

/-- The chosen fields of a layout and the mask cut the bytes of a point in two. -/
structure PointLayout.Sound (fields : List PointField) (pointStep : Nat)
    (layout : PointLayout) : Prop where
  x : ∃ e, layout.x = some e ∧ FirstNamed fields "x" e.field
  y : ∃ e, layout.y = some e ∧ FirstNamed fields "y" e.field
  z : ∃ e, layout.z = some e ∧ FirstNamed fields "z" e.field
  pointers : ∀ e ∈ layout.chosen, fields[e.index]? = some e.field
  inside : ∀ e ∈ layout.chosen, e.field.offset.toNat + fieldSize e.field ≤ pointStep
  apart : layout.chosen.Pairwise fun e other ↦ Apart e.field other.field
  others : ∀ (i : Nat) (field : PointField), fields[i]? = some field →
    (∀ e ∈ layout.chosen, e.index ≠ i) → ∀ e ∈ layout.chosen, Apart field e.field
  length_mask : layout.encodedByteMask.length = pointStep
  mask : ∀ b, b < pointStep →
    (layout.encodedByteMask[b]? = some true ↔ ∃ e ∈ layout.chosen, b ∈ span e.field)

/-- `FindField` points at the first field of the name. -/
theorem findField_eq_some {fields : List PointField} {name : String} {e : FieldPtr}
    (h : findField fields name = some e) :
    fields[e.index]? = some e.field ∧ FirstNamed fields name e.field := by
  rcases Option.map_eq_some_iff.mp h with ⟨p, hp, rfl⟩
  refine ⟨List.mem_zipIdx_iff_getElem?.mp (List.mem_of_find?_eq_some hp), ?_⟩
  rw [FirstNamed, ← List.zipIdx_map_fst 0 fields, List.find?_map]
  exact Option.map_eq_some_iff.mpr ⟨p, hp, rfl⟩

/-- `FindField` finds the first field of a name, and every name that a field has. -/
theorem firstNamed_iff {fields : List PointField} {name : String} {field : PointField} :
    FirstNamed fields name field ↔ ∃ e, findField fields name = some e ∧ e.field = field := by
  have hmap : fields.find? (·.name = ascii name) =
      (findField fields name).map FieldPtr.field := by
    conv => lhs; rw [← List.zipIdx_map_fst 0 fields, List.find?_map]
    rw [findField, Option.map_map]
    rfl
  rw [FirstNamed, hmap]
  exact Option.map_eq_some_iff

private theorem isPackedColor_iff {fields : List PointField} {name : String}
    {pointStep : UInt32} :
    isPackedColor (findField fields name) pointStep = true ↔
      ∃ field, FirstNamed fields name field ∧ field.Packed pointStep.toNat := by
  simp only [firstNamed_iff]
  constructor
  · intro h
    rcases isPackedColor_some h with ⟨e, he, hsize, hfit⟩
    refine ⟨e.field, ⟨e, he, rfl⟩, ?_⟩
    have hfits := (fieldFits_iff.mp hfit).2
    rw [he] at h
    simp only [isPackedColor, Bool.and_eq_true, Bool.or_eq_true, decide_eq_true_eq] at h
    exact ⟨h.1.2, h.1.1, by omega⟩
  · rintro ⟨_, ⟨e, he, rfl⟩, hd, hc, hle⟩
    have hsize : fieldSize e.field = 4 := by
      rw [fieldSize, hc]
      cases hd with
      | inl hd => rw [hd]; rfl
      | inr hd => rw [hd]; rfl
    rw [he]
    simp only [isPackedColor, Bool.and_eq_true, Bool.or_eq_true, decide_eq_true_eq]
    exact ⟨⟨hc, hd⟩, fieldFits_iff.mpr (by omega)⟩

private theorem isUint8Scalar_iff {fields : List PointField} {name : String}
    {pointStep : UInt32} :
    isUint8Scalar (findField fields name) pointStep = true ↔
      ∃ field, FirstNamed fields name field ∧ field.Channel pointStep.toNat := by
  simp only [firstNamed_iff]
  constructor
  · intro h
    rcases isUint8Scalar_some h with ⟨e, he, hsize, hfit⟩
    refine ⟨e.field, ⟨e, he, rfl⟩, ?_⟩
    have hfits := (fieldFits_iff.mp hfit).2
    rw [he] at h
    simp only [isUint8Scalar, Bool.and_eq_true, decide_eq_true_eq] at h
    exact ⟨h.1.1, h.1.2, by omega⟩
  · rintro ⟨_, ⟨e, he, rfl⟩, hd, hc, hle⟩
    have hsize : fieldSize e.field = 1 := by
      rw [fieldSize, hc, hd]
      rfl
    rw [he]
    simp only [isUint8Scalar, Bool.and_eq_true, decide_eq_true_eq]
    exact ⟨⟨hd, hc⟩, fieldFits_iff.mpr (by omega)⟩

/-- The test of the channels in `ParseLayout`; `draco_pointcloud_codec.cpp:165–168`. -/
def SeparateChannels (fields : List PointField) (pointStep : UInt32) : Prop :=
  isUint8Scalar (findField fields "r") pointStep = true ∧
    isUint8Scalar (findField fields "g") pointStep = true ∧
    isUint8Scalar (findField fields "b") pointStep = true ∧
    (findField fields "a" = none ∨ isUint8Scalar (findField fields "a") pointStep = true)

/-- The colour that `ParseLayout` settles on, in its three cases. -/
theorem parseColor_cases (fields : List PointField) (pointStep : UInt32) (base : PointLayout) :
    (∃ name, (name = "rgba" ∨ name = "rgb") ∧
      isPackedColor (findField fields name) pointStep = true ∧
      parseColor fields pointStep base =
        { base with packedColor := findField fields name, colorEncoding := .packed }) ∨
    (isPackedColor (findField fields "rgba") pointStep = false ∧
      isPackedColor (findField fields "rgb") pointStep = false ∧
      (SeparateChannels fields pointStep ∧ parseColor fields pointStep base =
          { base with red := findField fields "r", green := findField fields "g",
                      blue := findField fields "b", alpha := findField fields "a",
                      colorEncoding := .separate } ∨
        ¬SeparateChannels fields pointStep ∧ parseColor fields pointStep base = base)) := by
  by_cases hrgba : isPackedColor (findField fields "rgba") pointStep = true
  · apply Or.inl
    refine ⟨"rgba", Or.inl rfl, hrgba, ?_⟩
    simp only [parseColor, hrgba, if_true]
  · by_cases hrgb : isPackedColor (findField fields "rgb") pointStep = true
    · apply Or.inl
      refine ⟨"rgb", Or.inr rfl, hrgb, ?_⟩
      simp only [parseColor, hrgba, Bool.false_eq_true, if_false, hrgb, if_true]
    · apply Or.inr
      rw [Bool.not_eq_true] at hrgba hrgb
      refine ⟨hrgba, hrgb, ?_⟩
      simp only [parseColor, hrgba, hrgb, Bool.false_eq_true, if_false, Bool.and_eq_true,
        Bool.or_eq_true, Option.isNone_iff_eq_none]
      split
      · next hs => exact Or.inl ⟨⟨hs.1.1.1, hs.1.1.2, hs.1.2, hs.2⟩, rfl⟩
      · next hs => exact Or.inr ⟨fun h ↦ hs ⟨⟨⟨h.1, h.2.1⟩, h.2.2.1⟩, h.2.2.2⟩, rfl⟩

private theorem separateChannels_iff {fields : List PointField} {pointStep : UInt32} :
    SeparateChannels fields pointStep ↔
      (∃ field, FirstNamed fields "r" field ∧ field.Channel pointStep.toNat) ∧
      (∃ field, FirstNamed fields "g" field ∧ field.Channel pointStep.toNat) ∧
      (∃ field, FirstNamed fields "b" field ∧ field.Channel pointStep.toNat) ∧
      ((∀ field, ¬FirstNamed fields "a" field) ∨
        ∃ field, FirstNamed fields "a" field ∧ field.Channel pointStep.toNat) := by
  have hnone : findField fields "a" = none ↔ ∀ field, ¬FirstNamed fields "a" field := by
    simp only [firstNamed_iff]
    constructor
    · rintro h field ⟨e, he, -⟩
      rw [h] at he
      cases he
    · intro h
      cases he : findField fields "a" with
      | none => rfl
      | some e => exact absurd ⟨e, he, rfl⟩ (h e.field)
  simp only [SeparateChannels, isUint8Scalar_iff, hnone]

/-- A colour is found exactly when the first fields of its names make one. -/
theorem parseColor_colorEncoding (fields : List PointField) (pointStep : UInt32)
    (x y z : Option FieldPtr) :
    (parseColor fields pointStep { x, y, z }).colorEncoding ≠ .none ↔
      HasColor (FirstNamed fields) pointStep.toNat := by
  have hpacked : (∃ field, (FirstNamed fields "rgba" field ∨ FirstNamed fields "rgb" field) ∧
      field.Packed pointStep.toNat) ↔
      isPackedColor (findField fields "rgba") pointStep = true ∨
        isPackedColor (findField fields "rgb") pointStep = true := by
    simp only [isPackedColor_iff, or_and_right, exists_or]
  rw [HasColor, hpacked, ← separateChannels_iff]
  rcases parseColor_cases fields pointStep { x, y, z } with
    ⟨name, hname, hp, h⟩ | ⟨hrgba, hrgb, ⟨hs, h⟩ | ⟨hs, h⟩⟩
  · rw [h]
    refine ⟨fun _ ↦ Or.inl ?_, fun _ h ↦ nomatch h⟩
    cases hname with
    | inl hname => exact Or.inl (hname ▸ hp)
    | inr hname => exact Or.inr (hname ▸ hp)
  · rw [h]
    exact ⟨fun _ ↦ Or.inr hs, fun _ h ↦ nomatch h⟩
  · rw [h]
    simp [hrgba, hrgb, hs]

/-- The colour part leaves the coordinates alone. -/
theorem parseColor_coordinates (fields : List PointField) (pointStep : UInt32)
    (x y z : Option FieldPtr) :
    (parseColor fields pointStep { x, y, z }).x = x ∧
      (parseColor fields pointStep { x, y, z }).y = y ∧
      (parseColor fields pointStep { x, y, z }).z = z := by
  rcases parseColor_cases fields pointStep { x, y, z } with
    ⟨name, -, -, h⟩ | ⟨-, -, ⟨-, h⟩ | ⟨-, h⟩⟩
  · rw [h]
    exact ⟨rfl, rfl, rfl⟩
  · rw [h]
    exact ⟨rfl, rfl, rfl⟩
  · rw [h]
    exact ⟨rfl, rfl, rfl⟩

/-- The chosen fields are the encoded ones. -/
theorem chosen_parseColor (fields : List PointField) (pointStep : UInt32)
    (x y z : Option FieldPtr) :
    (parseColor fields pointStep { x, y, z }).chosen =
      encodedFields (parseColor fields pointStep { x, y, z }) := by
  have happend : ∀ rest : List (Option FieldPtr),
      ([x, y, z] ++ rest).reduceOption = [x, y, z].reduceOption ++ rest.reduceOption :=
    fun rest ↦ List.filterMap_append
  rcases parseColor_cases fields pointStep { x, y, z } with
    ⟨name, -, -, h⟩ | ⟨-, -, ⟨-, h⟩ | ⟨-, h⟩⟩
  · rw [h]
    apply (happend [findField fields name, none, none, none, none]).trans
    cases findField fields name <;> rfl
  · rw [h]
    exact happend [none, _, _, _, _]
  · rw [h]
    exact happend [none, none, none, none, none]

/-- A chosen field is what one of the pointers points to. -/
theorem mem_chosen {layout : PointLayout} {e : FieldPtr} :
    e ∈ layout.chosen ↔ layout.x = some e ∨ layout.y = some e ∨ layout.z = some e ∨
      layout.packedColor = some e ∨ layout.red = some e ∨ layout.green = some e ∨
      layout.blue = some e ∨ layout.alpha = some e := by
  rw [PointLayout.chosen, List.reduceOption_mem_iff]
  simp [eq_comm]

/-- The chosen fields are fields of the list. -/
theorem findField_of_mem_chosen {fields : List PointField} {pointStep : UInt32} {e : FieldPtr}
    (he : e ∈ (parseColor fields pointStep
      { x := findField fields "x", y := findField fields "y",
        z := findField fields "z" }).chosen) : ∃ name, findField fields name = some e := by
  rw [mem_chosen] at he
  rcases parseColor_cases fields pointStep
    { x := findField fields "x", y := findField fields "y", z := findField fields "z" } with
    ⟨name, -, -, h⟩ | ⟨-, -, ⟨-, h⟩ | ⟨-, h⟩⟩
  · rw [h] at he
    grind
  · rw [h] at he
    grind
  · rw [h] at he
    grind

/-- The layout of `ParseLayout` is sound, and it has a colour exactly when the first fields of the
names of one make a colour. -/
theorem layout_sound (fields : List PointField) (pointStep : UInt32) (layout : PointLayout)
    (h : parseLayout fields pointStep = some layout) :
    layout.Sound fields pointStep.toNat ∧
      (layout.colorEncoding ≠ .none ↔ HasColor (FirstNamed fields) pointStep.toNat) := by
  rcases parseLayout_eq_some h with ⟨parsed, mask, hparsed, rfl⟩
  have hchosen : ({ parsed with encodedByteMask := mask } : PointLayout).chosen =
      encodedFields parsed := by
    rw [hparsed.color]
    exact chosen_parseColor _ _ _ _ _
  have hpointers : ∀ e ∈ encodedFields parsed, fields[e.index]? = some e.field := by
    intro e he
    rw [hparsed.color, ← chosen_parseColor] at he
    rcases findField_of_mem_chosen he with ⟨name, hname⟩
    exact (findField_eq_some hname).1
  have hcoordinates := parseColor_coordinates fields pointStep (findField fields "x")
    (findField fields "y") (findField fields "z")
  rw [← hparsed.color] at hcoordinates
  rcases markFields_replicate pointStep hparsed.mask with ⟨hmlen, hmspec⟩
  constructor
  · constructor
    · rcases isFloat32Scalar_some hparsed.x with ⟨e, he, -⟩
      exact ⟨e, hcoordinates.1.trans he, (findField_eq_some he).2⟩
    · rcases isFloat32Scalar_some hparsed.y with ⟨e, he, -⟩
      exact ⟨e, hcoordinates.2.1.trans he, (findField_eq_some he).2⟩
    · rcases isFloat32Scalar_some hparsed.z with ⟨e, he, -⟩
      exact ⟨e, hcoordinates.2.2.trans he, (findField_eq_some he).2⟩
    · rw [hchosen]
      exact hpointers
    · rw [hchosen]
      intro e he
      exact (fieldFits_iff.mp (hparsed.fit _ (List.mem_of_getElem? (hpointers e he)))).2
    · rw [hchosen]
      exact pairwise_apart hparsed.apart
    · rw [hchosen]
      intro i field hi hne e he
      apply apart_of_not_overlap
      have hother := List.any_eq_false.mp hparsed.others (field, i)
        (List.mem_zipIdx_iff_getElem?.mpr hi)
      have hnot : ((encodedFields parsed).any fun e ↦ e.index = i) = false := by
        rw [List.any_eq_false]
        intro e he
        simpa using hne e he
      rw [hnot, Bool.not_false, Bool.true_and, Bool.not_eq_true] at hother
      simpa using List.any_eq_false.mp hother e he
    · exact hmlen
    · rw [hchosen]
      intro b hb
      show mask[b]? = some true ↔ _
      rw [hmspec b hb, Option.some_inj, decide_eq_true_eq, spans, List.mem_flatMap]
  · show parsed.colorEncoding ≠ .none ↔ _
    rw [hparsed.color]
    exact parseColor_colorEncoding _ _ _ _ _

/-- A point of x, y and z with a `rgba` byte that is no colour and a `rgba` word that is one. -/
def repeatedColor : List PointField :=
  [⟨ascii "x", 0, float32, 1⟩, ⟨ascii "y", 4, float32, 1⟩, ⟨ascii "z", 8, float32, 1⟩,
    ⟨ascii "rgba", 12, uint8, 1⟩, ⟨ascii "rgba", 16, uint32, 1⟩]

/-- The second field of a name is not looked at, so a usable colour is not reported. -/
theorem repeated_color_hidden : ∃ layout, parseLayout repeatedColor 20 = some layout ∧
    ¬(layout.colorEncoding ≠ .none ↔ HasColor (Named repeatedColor) 20) := by
  refine ⟨_, rfl, ?_⟩
  intro h
  apply h.mpr
  · apply Or.inl
    refine ⟨⟨ascii "rgba", 16, uint32, 1⟩, Or.inl ⟨by decide, rfl⟩, Or.inr rfl, rfl, by decide⟩
  · decide

/-- The layout of such a point is sound, without a colour. -/
theorem layout_sound_repeated : ∃ layout, parseLayout repeatedColor 20 = some layout ∧
    layout.Sound repeatedColor 20 :=
  ⟨_, rfl, (layout_sound repeatedColor 20 _ rfl).1⟩

/-! ## The sidecar -/

/-- `RestoreSidecar` with its stores into `*message`; `draco_pointcloud_codec.cpp:363–398`. -/
def restoreSidecarInto (sidecar : Bytes) (layout : PointLayout) :
    Assigning PointCloud2 Unit := fun message ↦
  match message with
  | none => .error .rejected none
  | some message =>
    if (sidecarSize message layout).toNat ≠ sidecar.length then .error .rejected (some message)
    else
      match forRange message.height.toNat (fun row s ↦ do
        let s ← forRange message.width.toNat (fun column s ↦
          forRange message.pointStep.toNat
            (restoreByte sidecar layout (pointOffset message row column)) s) s
        forRange (rowPadding message).toNat (restorePadding sidecar message row) s)
          (message.data, 0) with
      | .error stop => .error stop (some message)
      | .ok (data, cursor) =>
        -- The cursor is tested behind the stores, so a refusal here would leave them.
        if cursor = sidecar.length then .ok () (some { message with data })
        else .error .rejected (some { message with data })

/-- The positions of a point at which the mask has the given value. -/
def PointLayout.positions (layout : PointLayout) (pointStep : Nat) (masked : Bool) : List Nat :=
  (List.range pointStep).filter fun b ↦ layout.encodedByteMask[b]? = some masked

/-- The addresses of the bytes that are not encoded: the unmasked bytes of each point, then the
padding, row by row. -/
def nonEncoded (message : PointCloud2) (layout : PointLayout) : List Nat :=
  (List.range message.height.toNat).flatMap fun row ↦
    (List.range message.width.toNat).flatMap (fun column ↦
      (layout.positions message.pointStep.toNat false).map fun b ↦
        row * message.rowStep.toNat + column * message.pointStep.toNat + b) ++
    List.range' (row * message.rowStep.toNat + message.width.toNat * message.pointStep.toNat)
      (message.rowStep.toNat - message.width.toNat * message.pointStep.toNat)

/-- The addresses of the encoded bytes: the masked bytes of each point. -/
def encodedBytes (message : PointCloud2) (layout : PointLayout) : List Nat :=
  (List.range message.height.toNat).flatMap fun row ↦
    (List.range message.width.toNat).flatMap fun column ↦
      (layout.positions message.pointStep.toNat true).map fun b ↦
        row * message.rowStep.toNat + column * message.pointStep.toNat + b

/-- The clouds have the same dimensions. -/
structure SameDimensions (message m2 : PointCloud2) : Prop where
  height : m2.height = message.height
  width : m2.width = message.width
  pointStep : m2.pointStep = message.pointStep
  rowStep : m2.rowStep = message.rowStep
  size : m2.data.length = message.data.length

/-- A cloud with the dimensions of a valid one is valid. -/
theorem SameDimensions.valid {message m2 : PointCloud2} (hs : SameDimensions message m2)
    (h : message.Valid) : m2.Valid := by
  constructor
  · rw [hs.height, hs.width]
    exact h.empty
  · rw [hs.width, hs.pointStep, hs.rowStep]
    exact h.row
  · rw [hs.size, hs.rowStep, hs.height]
    exact h.size
  · rw [hs.width, hs.height]
    exact h.count
  · rw [hs.width, hs.height, hs.pointStep]
    exact h.step

/-- A cloud of the same dimensions is the message with other contents. -/
theorem SameDimensions.exists_eq {message m2 : PointCloud2} (hs : SameDimensions message m2) :
    ∃ header fields isBigendian data isDense,
      m2 = { message with header, fields, isBigendian, data, isDense } := by
  refine ⟨m2.header, m2.fields, m2.isBigendian, m2.data, m2.isDense, ?_⟩
  rw [← hs.height, ← hs.width, ← hs.pointStep, ← hs.rowStep]

/-- A restoration that succeeds leaves its result in the target. -/
theorem call_restoreSidecarInto_of_ok {sidecar : Bytes} {layout : PointLayout}
    {m2 restored : PointCloud2} (h : restoreSidecar sidecar layout m2 = .ok restored) :
    (restoreSidecarInto sidecar layout).call (some m2) = .ok (true, some restored) := by
  rw [restoreSidecar] at h
  obtain ⟨_, hsize, h⟩ := bind_eq_ok.mp h
  obtain ⟨⟨data, cursor⟩, hrun, h⟩ := bind_eq_ok.mp h
  obtain ⟨_, hcursor, h⟩ := bind_eq_ok.mp h
  have hsize := of_decide_eq_true (Checked.require_eq_ok.mp hsize)
  have hcursor := of_decide_eq_true (Checked.require_eq_ok.mp hcursor)
  cases h
  simp only [Assigning.call, restoreSidecarInto, hsize, ne_eq, not_true_eq_false, if_false, hrun,
    hcursor, if_true]

/-- A sidecar of another size is refused before the first store. -/
theorem call_restoreSidecarInto_of_size {sidecar : Bytes} {layout : PointLayout}
    {m2 : PointCloud2} (h : (sidecarSize m2 layout).toNat ≠ sidecar.length) :
    (restoreSidecarInto sidecar layout).call (some m2) = .ok (false, some m2) := by
  simp only [Assigning.call, restoreSidecarInto, if_pos h]

section

variable {message : PointCloud2} (h : message.Valid) {layout : PointLayout}
  {p : Placement message.pointStep.toNat} (hl : layout.Realises p)

include hl

/-- A byte of a point is masked exactly if it belongs to the position or the colour. -/
theorem mem_positions {masked : Bool} {b : Nat} :
    b ∈ layout.positions message.pointStep.toNat masked ↔
      b < message.pointStep.toNat ∧ decide (b ∈ p.bytes) = masked := by
  rw [PointLayout.positions, List.mem_filter, List.mem_range, decide_eq_true_eq]
  constructor
  · intro hb
    rw [hl.mask b hb.1] at hb
    exact ⟨hb.1, Option.some.inj hb.2⟩
  · intro hb
    rw [hl.mask b hb.1]
    exact ⟨hb.1, congrArg some hb.2⟩

/-- The addresses that are not encoded are those outside the bytes of the placement. -/
theorem nonEncoded_eq : nonEncoded message layout = (message.grid h).outside p.bytes := by
  have hrest : layout.positions message.pointStep.toNat false =
      (message.grid h).rest p.bytes := by
    apply List.filter_congr
    intro b hb
    rw [hl.mask b (List.mem_range.mp hb)]
    by_cases hin : b ∈ p.bytes
    · simp [hin]
    · simp [hin]
  rw [nonEncoded, hrest]
  rfl

/-- The encoded bytes are the bytes of the placement in each point. -/
theorem mem_encodedBytes {a : Nat} :
    a ∈ encodedBytes message layout ↔
      ∃ j b, j < (message.grid h).count ∧ b ∈ p.bytes ∧ b < message.pointStep.toNat ∧
        a = (message.grid h).point j + b := by
  constructor
  · intro ha
    rcases List.mem_flatMap.mp ha with ⟨row, hrow, ha⟩
    rcases List.mem_flatMap.mp ha with ⟨column, hcol, ha⟩
    rcases List.mem_map.mp ha with ⟨b, hb, rfl⟩
    rw [List.mem_range] at hrow hcol
    have hb := (mem_positions hl).mp hb
    refine ⟨row * message.width.toNat + column, b, ?_, of_decide_eq_true hb.2, hb.1, ?_⟩
    · have hle : (row + 1) * message.width.toNat ≤ message.height.toNat * message.width.toNat :=
        Nat.mul_le_mul_right _ hrow
      rw [Nat.add_mul, Nat.one_mul, Nat.mul_comm message.height.toNat] at hle
      show _ < message.width.toNat * message.height.toNat
      omega
    · have hp : (message.grid h).point (row * message.width.toNat + column) =
          row * message.rowStep.toNat + column * message.pointStep.toNat :=
        Grid.point_row_column hcol
      rw [hp]
  · rintro ⟨j, b, hj, hin, hb, rfl⟩
    have hw : 0 < message.width.toNat := by
      apply Nat.pos_of_ne_zero
      intro hz
      have hc : (message.grid h).count = message.width.toNat * message.height.toNat := rfl
      rw [hc, hz, Nat.zero_mul] at hj
      omega
    apply List.mem_flatMap.mpr
    refine ⟨j / message.width.toNat, ?_, ?_⟩
    · rw [List.mem_range, Nat.div_lt_iff_lt_mul hw, Nat.mul_comm]
      exact hj
    · apply List.mem_flatMap.mpr
      refine ⟨j % message.width.toNat, List.mem_range.mpr (Nat.mod_lt _ hw), ?_⟩
      apply List.mem_map.mpr
      exact ⟨b, (mem_positions hl).mpr ⟨hb, decide_eq_true hin⟩, rfl⟩

include h

/-- The encoded bytes are not among the others. -/
theorem not_mem_nonEncoded {a : Nat} (ha : a ∈ encodedBytes message layout) :
    a ∉ nonEncoded message layout := by
  rw [mem_encodedBytes h hl] at ha
  rcases ha with ⟨j, b, hj, hin, hb, rfl⟩
  rw [nonEncoded_eq h hl]
  exact Grid.point_not_mem_outside hj hb hin

/-- Every byte of the data is encoded or not, and not both. -/
theorem mem_encodedBytes_iff {a : Nat} (ha : a < message.data.length) :
    a ∈ encodedBytes message layout ↔ a ∉ nonEncoded message layout := by
  constructor
  · exact not_mem_nonEncoded h hl
  · intro hno
    rw [mem_encodedBytes h hl]
    rw [nonEncoded_eq h hl] at hno
    rw [h.size] at ha
    have hsplit : (∃ j b, j < (message.grid h).count ∧ b ∈ p.bytes ∧
        b < message.pointStep.toNat ∧ a = (message.grid h).point j + b) ∨
        a ∈ (message.grid h).outside p.bytes := Grid.mem_point_or_outside ha
    cases hsplit with
    | inl hp => exact hp
    | inr ho => exact absurd ho hno

private theorem nonEncoded_lt {a : Nat} (ha : a ∈ nonEncoded message layout) :
    a < message.data.length := by
  rw [nonEncoded_eq h hl] at ha
  rw [h.size]
  exact Grid.outside_lt ha

private theorem nodup_nonEncoded : (nonEncoded message layout).Nodup := by
  rw [nonEncoded_eq h hl]
  exact Grid.nodup_outside p.bytes

private theorem length_nonEncoded {m2 : PointCloud2} (hs : SameDimensions message m2) :
    (sidecarSize m2 layout).toNat = (nonEncoded message layout).length := by
  have hsize : sidecarSize m2 layout = sidecarSize message layout := by
    simp only [sidecarSize, rowPadding, hs.height, hs.width, hs.pointStep, hs.rowStep]
  rw [hsize, toNat_sidecarSize h hl, nonEncoded_eq h hl]

/-- Extraction gathers the bytes that are not encoded. -/
theorem extractSidecar_of_sameDimensions {m2 : PointCloud2} (hs : SameDimensions message m2) :
    extractSidecar m2 layout = .ok (gather m2.data (nonEncoded message layout)) := by
  obtain ⟨header, fields, isBigendian, data, isDense, rfl⟩ := hs.exists_eq
  rw [nonEncoded_eq h hl]
  exact extractSidecar_eq (hs.valid h) hl

/-- Restoration stores a sidecar of the right length at the bytes that are not encoded. -/
theorem call_restoreSidecarInto {sidecar : Bytes} {m2 : PointCloud2}
    (hs : SameDimensions message m2)
    (hlen : sidecar.length = (nonEncoded message layout).length) :
    (restoreSidecarInto sidecar layout).call (some m2) =
      .ok (true, some { m2 with
        data := scatter m2.data (nonEncoded message layout) sidecar }) := by
  apply call_restoreSidecarInto_of_ok
  obtain ⟨header, fields, isBigendian, data, isDense, rfl⟩ := hs.exists_eq
  rw [restoreSidecar_eq (hs.valid h) hl, nonEncoded_eq h hl]
  rw [nonEncoded_eq h hl] at hlen
  exact if_pos hlen

end

/-- Extraction yields the bytes that are not encoded, restoration puts them back and touches no
other byte, any sidecar of the right length comes back from where it was stored, and one of
another length is refused without a trace. -/
theorem sidecar_inverse (message : PointCloud2) (pointCount : UInt64) (layout : PointLayout)
    (hstorage : validateMessageStorage message = some pointCount)
    (hlayout : parseLayout message.fields message.pointStep = some layout) :
    ∃ sidecar, extractSidecar message layout = .ok sidecar ∧
      sidecar.map some = (nonEncoded message layout).map (message.data[·]?) ∧
      (∀ a, a < message.data.length →
        (a ∈ encodedBytes message layout ↔ a ∉ nonEncoded message layout)) ∧
      ∀ m2, SameDimensions message m2 →
        (∃ data, (restoreSidecarInto sidecar layout).call (some m2) =
            .ok (true, some { m2 with data }) ∧
          data.length = m2.data.length ∧
          (∀ a ∈ nonEncoded message layout, data[a]? = message.data[a]?) ∧
          ∀ a ∈ encodedBytes message layout, data[a]? = m2.data[a]?) ∧
        ∀ sidecar' : Bytes,
          (sidecar'.length = sidecar.length →
            ∃ data, (restoreSidecarInto sidecar' layout).call (some m2) =
                .ok (true, some { m2 with data }) ∧
              extractSidecar { m2 with data } layout = .ok sidecar') ∧
          (sidecar'.length ≠ sidecar.length →
            (restoreSidecarInto sidecar' layout).call (some m2) = .ok (false, some m2)) := by
  rcases validateMessageStorage_eq_some.mp hstorage with ⟨h, -⟩
  rcases parseLayout_realises hlayout with ⟨p, hl⟩
  have hlt : ∀ a ∈ nonEncoded message layout, a < message.data.length :=
    fun a ha ↦ nonEncoded_lt h hl ha
  have hlen := length_gather hlt
  refine ⟨gather message.data (nonEncoded message layout), ?_, ?_, ?_, ?_⟩
  · exact extractSidecar_of_sameDimensions h hl ⟨rfl, rfl, rfl, rfl, rfl⟩
  · exact map_some_gather hlt
  · exact fun a ha ↦ mem_encodedBytes_iff h hl ha
  · intro m2 hs
    have hlt2 : ∀ a ∈ nonEncoded message layout, a < m2.data.length := by
      intro a ha
      rw [hs.size]
      exact hlt a ha
    constructor
    · refine ⟨_, call_restoreSidecarInto h hl hs hlen, length_scatter _ _ _, ?_, ?_⟩
      · intro a ha
        exact getElem?_scatter_gather hlt2 hlt ha
      · intro a ha
        apply getElem?_scatter_of_not_mem
        exact not_mem_nonEncoded h hl ha
    · intro sidecar'
      constructor
      · intro hlen'
        rw [hlen] at hlen'
        refine ⟨_, call_restoreSidecarInto h hl hs hlen', ?_⟩
        have hs' : SameDimensions message { m2 with
            data := scatter m2.data (nonEncoded message layout) sidecar' } :=
          ⟨hs.height, hs.width, hs.pointStep, hs.rowStep, (length_scatter _ _ _).trans hs.size⟩
        rw [extractSidecar_of_sameDimensions h hl hs',
          gather_scatter (nodup_nonEncoded h hl) hlt2 hlen']
      · intro hlen'
        apply call_restoreSidecarInto_of_size
        rw [length_nonEncoded h hl hs, ← hlen]
        exact fun he ↦ hlen' he.symm

/-- One point of x, y and z with a byte behind its fields, in a row with one byte of padding. -/
def sparePoint : PointCloud2 where
  height := 1
  width := 1
  fields := [⟨ascii "x", 0, float32, 1⟩, ⟨ascii "y", 4, float32, 1⟩, ⟨ascii "z", 8, float32, 1⟩]
  pointStep := 13
  rowStep := 14
  data := List.replicate 12 1 ++ [2, 3]

/-- The byte behind the fields and the padding travel in the sidecar. -/
theorem sidecar_inverse_spare : ∃ layout, parseLayout sparePoint.fields 13 = some layout ∧
    ∃ sidecar, extractSidecar sparePoint layout = .ok sidecar ∧
      sidecar.map some = [some 2, some 3] := by
  rcases sidecar_inverse sparePoint 1 _ rfl rfl with ⟨sidecar, hextract, hbytes, -⟩
  exact ⟨_, rfl, sidecar, hextract, hbytes⟩

end NetBridge.Cloud
