import NetBridge.Base.Scatter
import NetBridge.Cloud.Layout

/-!
# Point storage

Access to the bytes of a cloud,
`src/swarm_ros_bridge/src/transport/draco_pointcloud_codec.cpp:220–408`: validation of the
storage, words and colours of a point, and the sidecar of the bytes that are not encoded.
`float` values are handled as their bits. Sizes are 64-bit; indices of loops and of containers
are natural numbers once their bounds are computed.
-/

namespace NetBridge.Cloud

open NetBridge.Base

/-- `ValidateMessageStorage`; `draco_pointcloud_codec.cpp:220–242`. `none` stands for the result
false, otherwise the point count. -/
def validateMessageStorage (message : PointCloud2) : Option UInt64 :=
  if message.height = 0 ∧ message.width ≠ 0 then none
  else
    let rowDataSize := message.width.toUInt64 * message.pointStep.toUInt64
    let expectedDataSize := message.rowStep.toUInt64 * message.height.toUInt64
    let count := message.width.toUInt64 * message.height.toUInt64
    if rowDataSize > message.rowStep.toUInt64 ∨ expectedDataSize.toNat ≠ message.data.length ∨
        count > 2147483647 then none
    else if count > 0 ∧ message.pointStep = 0 then none
    else some count

/-- The word of four bytes in the given order. -/
def uint32OfBytes (bigendian : Bool) (b0 b1 b2 b3 : UInt8) : UInt32 :=
  if bigendian then
    b0.toUInt32 <<< 24 ||| b1.toUInt32 <<< 16 ||| b2.toUInt32 <<< 8 ||| b3.toUInt32
  else b0.toUInt32 ||| b1.toUInt32 <<< 8 ||| b2.toUInt32 <<< 16 ||| b3.toUInt32 <<< 24

/-- `ReadUint32`; `draco_pointcloud_codec.cpp:244–255`. -/
def readUint32 (data : Bytes) (address : Nat) (bigendian : Bool) : Checked UInt32 := do
  let b0 ← readAt data address
  let b1 ← readAt data (address + 1)
  let b2 ← readAt data (address + 2)
  let b3 ← readAt data (address + 3)
  pure (uint32OfBytes bigendian b0 b1 b2 b3)

/-- The four bytes of a word in the given order. -/
def uint32Bytes (value : UInt32) (bigendian : Bool) : Bytes :=
  if bigendian then
    [(value >>> 24).toUInt8, (value >>> 16).toUInt8, (value >>> 8).toUInt8, value.toUInt8]
  else [value.toUInt8, (value >>> 8).toUInt8, (value >>> 16).toUInt8, (value >>> 24).toUInt8]

/-- Consecutive assignments `data[address] = …; data[address + 1] = …;`. -/
def storeBytes (data : Bytes) (address : Nat) : Bytes → Checked Bytes
  | [] => pure data
  | value :: values => do
    let data ← writeAt data address value
    storeBytes data (address + 1) values

/-- `WriteUint32`; `draco_pointcloud_codec.cpp:257–269`. -/
def writeUint32 (value : UInt32) (bigendian : Bool) (data : Bytes) (address : Nat) :
    Checked Bytes :=
  storeBytes data address (uint32Bytes value bigendian)

/-- `ReadFloat32`, the bits of the value; `draco_pointcloud_codec.cpp:271–276`. -/
def readFloat32 (data : Bytes) (address : Nat) (bigendian : Bool) : Checked UInt32 :=
  readUint32 data address bigendian

/-- `WriteFloat32` of the value with the given bits; `draco_pointcloud_codec.cpp:278–282`. -/
def writeFloat32 (bits : UInt32) (bigendian : Bool) (data : Bytes) (address : Nat) :
    Checked Bytes :=
  writeUint32 bits bigendian data address

/-- `std::array<std::uint8_t, 4>` of red, green, blue and alpha. -/
structure Color where
  red : UInt8
  green : UInt8
  blue : UInt8
  alpha : UInt8
deriving DecidableEq

/-- The elements of the array. -/
def Color.bytes (color : Color) : Bytes := [color.red, color.green, color.blue, color.alpha]

/-- The address of a field of the point at `point`. -/
def fieldAddress (point : Nat) (ptr : Option FieldPtr) : Checked Nat := do
  let e ← deref ptr
  pure (point + e.field.offset.toNat)

/-- `ReadColor`; `draco_pointcloud_codec.cpp:284–299`. -/
def readColor (data : Bytes) (point : Nat) (bigendian : Bool) (layout : PointLayout) :
    Checked Color :=
  if layout.colorEncoding = .packed then do
    let packed ← readUint32 data (← fieldAddress point layout.packedColor) bigendian
    pure ⟨(packed >>> 16).toUInt8, (packed >>> 8).toUInt8, packed.toUInt8,
      (packed >>> 24).toUInt8⟩
  else do
    let red ← readAt data (← fieldAddress point layout.red)
    let green ← readAt data (← fieldAddress point layout.green)
    let blue ← readAt data (← fieldAddress point layout.blue)
    let alpha ←
      match layout.alpha with
      | none => pure 255
      | some e => readAt data (point + e.field.offset.toNat)
    pure ⟨red, green, blue, alpha⟩

/-- The packed word of a colour. -/
def Color.packed (color : Color) : UInt32 :=
  color.alpha.toUInt32 <<< 24 ||| color.red.toUInt32 <<< 16 ||| color.green.toUInt32 <<< 8 |||
    color.blue.toUInt32

/-- `WriteColor`; `draco_pointcloud_codec.cpp:301–320`. -/
def writeColor (color : Color) (bigendian : Bool) (layout : PointLayout) (data : Bytes)
    (point : Nat) : Checked Bytes :=
  if layout.colorEncoding = .packed then do
    writeUint32 color.packed bigendian data (← fieldAddress point layout.packedColor)
  else do
    let data ← writeAt data (← fieldAddress point layout.red) color.red
    let data ← writeAt data (← fieldAddress point layout.green) color.green
    let data ← writeAt data (← fieldAddress point layout.blue) color.blue
    match layout.alpha with
    | none => pure data
    | some e => writeAt data (point + e.field.offset.toNat) color.alpha

/-- `UnencodedBytesPerPoint`; `draco_pointcloud_codec.cpp:322–325`. -/
def unencodedBytesPerPoint (layout : PointLayout) : UInt64 :=
  UInt64.ofNat (layout.encodedByteMask.count false)

/-- `row_padding`; `draco_pointcloud_codec.cpp:334–335,370–371`. -/
def rowPadding (message : PointCloud2) : UInt64 :=
  (message.rowStep - message.width * message.pointStep).toUInt64

/-- `expected`; `draco_pointcloud_codec.cpp:336–338,372–374`. -/
def sidecarSize (message : PointCloud2) (layout : PointLayout) : UInt64 :=
  unencodedBytesPerPoint layout * message.width.toUInt64 * message.height.toUInt64 +
    rowPadding message * message.height.toUInt64

/-- `row_offset`; `draco_pointcloud_codec.cpp:345,381`. -/
def rowOffset (message : PointCloud2) (row : Nat) : UInt64 :=
  UInt64.ofNat row * message.rowStep.toUInt64

/-- `point_offset`; `draco_pointcloud_codec.cpp:347–348,383–384`. -/
def pointOffset (message : PointCloud2) (row column : Nat) : UInt64 :=
  rowOffset message row + UInt64.ofNat column * message.pointStep.toUInt64

/-- The first byte behind the points of a row. -/
def paddingOffset (message : PointCloud2) (row : Nat) : UInt64 :=
  rowOffset message row + (message.width * message.pointStep).toUInt64

/-- One byte of a point in `ExtractSidecar`; `draco_pointcloud_codec.cpp:349–353`. -/
def extractByte (message : PointCloud2) (layout : PointLayout) (point : UInt64) (byte : Nat)
    (sidecar : Bytes) : Checked Bytes := do
  if ← readAt layout.encodedByteMask byte then pure sidecar
  else
    let value ← readAt message.data (point + UInt64.ofNat byte).toNat
    pure (sidecar ++ [value])

/-- One byte of a row's padding; `draco_pointcloud_codec.cpp:355–358`. -/
def extractPadding (message : PointCloud2) (row k : Nat) (sidecar : Bytes) : Checked Bytes := do
  let value ← readAt message.data ((paddingOffset message row).toNat + k)
  pure (sidecar ++ [value])

/-- `ExtractSidecar`; `draco_pointcloud_codec.cpp:327–361`. -/
def extractSidecar (message : PointCloud2) (layout : PointLayout) : Checked Bytes := do
  let sidecar ← forRange message.height.toNat (fun row sidecar ↦ do
    let sidecar ← forRange message.width.toNat (fun column sidecar ↦
      forRange message.pointStep.toNat
        (extractByte message layout (pointOffset message row column)) sidecar) sidecar
    forRange (rowPadding message).toNat (extractPadding message row) sidecar) []
  require (sidecar.length = (sidecarSize message layout).toNat)
  pure sidecar

/-- One byte of a point in `RestoreSidecar`; `draco_pointcloud_codec.cpp:385–389`. The state is
the data and the cursor. -/
def restoreByte (sidecar : Bytes) (layout : PointLayout) (point : UInt64) (byte : Nat)
    (s : Bytes × Nat) : Checked (Bytes × Nat) := do
  if ← readAt layout.encodedByteMask byte then pure s
  else
    let value ← readAt sidecar s.2
    let data ← writeAt s.1 (point + UInt64.ofNat byte).toNat value
    pure (data, s.2 + 1)

/-- One byte of a row's padding; `draco_pointcloud_codec.cpp:391–395`. -/
def restorePadding (sidecar : Bytes) (message : PointCloud2) (row k : Nat) (s : Bytes × Nat) :
    Checked (Bytes × Nat) := do
  let value ← readAt sidecar s.2
  let data ← writeAt s.1 ((paddingOffset message row).toNat + k) value
  pure (data, s.2 + 1)

/-- `RestoreSidecar`; `draco_pointcloud_codec.cpp:363–398`. -/
def restoreSidecar (sidecar : Bytes) (layout : PointLayout) (message : PointCloud2) :
    Checked PointCloud2 := do
  require ((sidecarSize message layout).toNat = sidecar.length)
  let (data, cursor) ← forRange message.height.toNat (fun row s ↦ do
    let s ← forRange message.width.toNat (fun column s ↦
      forRange message.pointStep.toNat
        (restoreByte sidecar layout (pointOffset message row column)) s) s
    forRange (rowPadding message).toNat (restorePadding sidecar message row) s) (message.data, 0)
  require (cursor = sidecar.length)
  pure { message with data }

/-- `PointDataOffset`; `draco_pointcloud_codec.cpp:400–406`. -/
def pointDataOffset (message : PointCloud2) (pointIndex : UInt32) : Checked UInt64 :=
  if message.width = 0 then .error (.fault .divisionByZero)
  else
    let row := pointIndex / message.width
    let column := pointIndex % message.width
    .ok (row.toUInt64 * message.rowStep.toUInt64 + column.toUInt64 * message.pointStep.toUInt64)

end NetBridge.Cloud
