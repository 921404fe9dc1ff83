import NetBridge.Cloud.Message

/-!
# Point layouts

`ParseLayout` and its helpers,
`src/swarm_ros_bridge/src/transport/draco_pointcloud_codec.cpp:28–218`. Field pointers of the
layout are positions in the field list together with the field there, so two pointers are equal
exactly when their positions are.
-/

namespace NetBridge.Cloud

open NetBridge.Base

/-- `sensor_msgs::PointField::INT8` to `FLOAT64`. -/
def int8 : UInt8 := 1
def uint8 : UInt8 := 2
def int16 : UInt8 := 3
def uint16 : UInt8 := 4
def int32 : UInt8 := 5
def uint32 : UInt8 := 6
def float32 : UInt8 := 7
def float64 : UInt8 := 8

/-- `ColorEncoding`; `draco_pointcloud_codec.cpp:30–34`. -/
inductive ColorEncoding where
  | none
  | packed
  | separate
deriving DecidableEq, Repr

/-- A `const PointField*` into the field list. -/
structure FieldPtr where
  index : Nat
  field : PointField
deriving DecidableEq

/-- `PointLayout`; `draco_pointcloud_codec.cpp:36–47`. -/
structure PointLayout where
  x : Option FieldPtr := none
  y : Option FieldPtr := none
  z : Option FieldPtr := none
  packedColor : Option FieldPtr := none
  red : Option FieldPtr := none
  green : Option FieldPtr := none
  blue : Option FieldPtr := none
  alpha : Option FieldPtr := none
  colorEncoding : ColorEncoding := .none
  encodedByteMask : List Bool := []
deriving DecidableEq

/-- `DatatypeSize`; `draco_pointcloud_codec.cpp:49–65`. -/
def datatypeSize (datatype : UInt8) : UInt64 :=
  if datatype = int8 ∨ datatype = uint8 then 1
  else if datatype = int16 ∨ datatype = uint16 then 2
  else if datatype = int32 ∨ datatype = uint32 ∨ datatype = float32 then 4
  else if datatype = float64 then 8
  else 0

/-- `FieldFits`; `draco_pointcloud_codec.cpp:67–76`. -/
def fieldFits (field : PointField) (pointStep : UInt32) : Bool :=
  let datatypeSize := datatypeSize field.datatype
  if datatypeSize = 0 ∨ field.count = 0 then false
  else
    let size := datatypeSize * field.count.toUInt64
    field.offset ≤ pointStep && size ≤ (pointStep - field.offset).toUInt64

/-- `FindField`; `draco_pointcloud_codec.cpp:78–86`. -/
def findField (fields : List PointField) (name : String) : Option FieldPtr :=
  (fields.zipIdx.find? fun p ↦ p.1.name = ascii name).map fun p ↦ ⟨p.2, p.1⟩

/-- `IsFloat32Scalar`; `draco_pointcloud_codec.cpp:88–92`. -/
def isFloat32Scalar (field : Option FieldPtr) (pointStep : UInt32) : Bool :=
  match field with
  | none => false
  | some ⟨_, field⟩ => field.datatype = float32 && field.count = 1 && fieldFits field pointStep

/-- `IsUint8Scalar`; `draco_pointcloud_codec.cpp:94–98`. -/
def isUint8Scalar (field : Option FieldPtr) (pointStep : UInt32) : Bool :=
  match field with
  | none => false
  | some ⟨_, field⟩ => field.datatype = uint8 && field.count = 1 && fieldFits field pointStep

/-- `IsPackedColor`; `draco_pointcloud_codec.cpp:100–106`. -/
def isPackedColor (field : Option FieldPtr) (pointStep : UInt32) : Bool :=
  match field with
  | none => false
  | some ⟨_, field⟩ =>
    field.count = 1 && (field.datatype = float32 || field.datatype = uint32) &&
      fieldFits field pointStep

/-- One past the last byte of a field. -/
def fieldEnd (field : PointField) : UInt64 :=
  field.offset.toUInt64 + datatypeSize field.datatype * field.count.toUInt64

/-- `SpansOverlap`; `draco_pointcloud_codec.cpp:108–115`. -/
def spansOverlap (lhs rhs : PointField) : Bool :=
  lhs.offset.toUInt64 < fieldEnd rhs && rhs.offset.toUInt64 < fieldEnd lhs

/-- `MarkField`; `draco_pointcloud_codec.cpp:117–126`. `none` stands for the result false. -/
def markField (field : PointField) (mask : List Bool) : Option (List Bool) :=
  if fieldFits field (UInt32.ofNat mask.length) then
    some (mask.take field.offset.toNat ++
      List.replicate ((fieldEnd field).toNat - field.offset.toNat) true ++
      mask.drop (fieldEnd field).toNat)
  else none

/-- The colour part of `ParseLayout`; `draco_pointcloud_codec.cpp:154–178`. -/
def parseColor (fields : List PointField) (pointStep : UInt32) (parsed : PointLayout) :
    PointLayout :=
  let packedColor := findField fields "rgba"
  let packedColor :=
    if isPackedColor packedColor pointStep then packedColor else findField fields "rgb"
  if isPackedColor packedColor pointStep then
    { parsed with packedColor, colorEncoding := .packed }
  else
    let red := findField fields "r"
    let green := findField fields "g"
    let blue := findField fields "b"
    let alpha := findField fields "a"
    if isUint8Scalar red pointStep && isUint8Scalar green pointStep &&
        isUint8Scalar blue pointStep && (alpha.isNone || isUint8Scalar alpha pointStep) then
      { parsed with red, green, blue, alpha, colorEncoding := .separate }
    else parsed

/-- `encoded_fields`; `draco_pointcloud_codec.cpp:180–191`. -/
def encodedFields (layout : PointLayout) : List FieldPtr :=
  [layout.x, layout.y, layout.z].reduceOption ++
    match layout.colorEncoding with
    | .none => []
    | .packed => layout.packedColor.toList
    | .separate => [layout.red, layout.green, layout.blue, layout.alpha].reduceOption

/-- The pairwise test of the encoded fields; `draco_pointcloud_codec.cpp:192–198`. -/
def overlapping (encoded : List FieldPtr) : Bool :=
  match encoded with
  | [] => false
  | field :: encoded =>
    encoded.any (fun other ↦ spansOverlap field.field other.field) || overlapping encoded

/-- The test of the other fields against the encoded ones;
`draco_pointcloud_codec.cpp:199–211`. -/
def intruding (fields : List PointField) (encoded : List FieldPtr) : Bool :=
  fields.zipIdx.any fun p ↦
    !(encoded.any fun e ↦ e.index = p.2) && encoded.any fun e ↦ spansOverlap p.1 e.field

/-- `ParseLayout`; `draco_pointcloud_codec.cpp:128–218`. `none` stands for the result false. -/
def parseLayout (fields : List PointField) (pointStep : UInt32) : Option PointLayout :=
  if pointStep = 0 then none
  else if fields.any fun field ↦ !fieldFits field pointStep then none
  else
    let x := findField fields "x"
    let y := findField fields "y"
    let z := findField fields "z"
    if !isFloat32Scalar x pointStep || !isFloat32Scalar y pointStep ||
        !isFloat32Scalar z pointStep then none
    else if overlapping ([x, y, z].reduceOption) then none
    else
      let parsed := parseColor fields pointStep { x, y, z }
      let encoded := encodedFields parsed
      if overlapping encoded || intruding fields encoded then none
      else
        (encoded.foldlM (fun mask field ↦ markField field.field mask)
            (List.replicate pointStep.toNat false)).map
          fun encodedByteMask ↦ { parsed with encodedByteMask }

end NetBridge.Cloud
