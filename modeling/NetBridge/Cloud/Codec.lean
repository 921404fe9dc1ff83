import NetBridge.Cloud.Storage

/-!
# The Draco point cloud codec

`DracoPointCloudCodec::Encode` and `Decode`,
`src/swarm_ros_bridge/src/transport/draco_pointcloud_codec.cpp:412–601`, and the branches of
`ptCloudProcess` and `deserializePub` that carry their results through a `PtCloudCompress`
message (`src/topic_factory.cpp:259–283,381–405`). The Draco library is a parameter: an encoder
of the clouds that the builder makes, and a decoder that may return any cloud for a payload.
Memory is little-endian, as on the platforms the bridge is built for.
-/

namespace NetBridge.Cloud

open NetBridge.Base

/-- `kLayoutFormatVersion`; `draco_pointcloud_codec.cpp:24`. -/
def kLayoutFormatVersion : UInt8 := 2

/-- `kPointTypeXyz`; `draco_pointcloud_codec.cpp:25`. -/
def kPointTypeXyz : Bytes := ascii "xyz"

/-- `kPointTypeXyzRgb`; `draco_pointcloud_codec.cpp:26`. -/
def kPointTypeXyzRgb : Bytes := ascii "xyzrgb"

/-! ## Draco clouds -/

/-- `GeometryAttribute::Type`. -/
inductive AttributeType where
  | position
  | normal
  | color
  | texCoord
  | generic
deriving DecidableEq

/-- A `PointAttribute` as `GetMappedValue` shows it: `byte_stride` bytes for each point. -/
structure PointAttribute where
  byteStride : Nat
  value : Nat → Bytes
  length_value : ∀ i, (value i).length = byteStride

/-- A `draco::PointCloud`. -/
structure DracoCloud where
  numPoints : UInt32
  attributes : List (AttributeType × PointAttribute)

/-- `GetNamedAttribute`: the first attribute of a type. -/
def DracoCloud.getNamedAttribute (cloud : DracoCloud) (type : AttributeType) :
    Option PointAttribute :=
  (cloud.attributes.find? fun a ↦ a.1 = type).map Prod.snd

/-- The bits of `std::array<float, 3>`. -/
structure Position where
  x : UInt32
  y : UInt32
  z : UInt32
deriving DecidableEq

/-- The memory of a 32-bit word. -/
def hostBytes (value : UInt32) : Bytes := uint32Bytes value false

/-- The 32-bit word in memory at `offset`. -/
def hostWord (memory : Bytes) (offset : Nat) : UInt32 :=
  uint32OfBytes false (memory.getD offset 0) (memory.getD (offset + 1) 0)
    (memory.getD (offset + 2) 0) (memory.getD (offset + 3) 0)

/-- The memory of a position. -/
def Position.bytes (position : Position) : Bytes :=
  hostBytes position.x ++ hostBytes position.y ++ hostBytes position.z

/-- The values that `SetAttributeValueForPoint` has stored in a `PointCloudBuilder`: POSITION of
three floats, GENERIC of one `uint32`, and COLOR of four bytes if it was added. -/
structure PointCloudBuilder where
  numPoints : UInt32
  position : Nat → Position
  pointIndex : Nat → UInt32
  color : Option (Nat → Color)

/-- `Start` and the `AddAttribute` calls; `draco_pointcloud_codec.cpp:454–464`. -/
def PointCloudBuilder.start (pointCount : UInt32) (layout : PointLayout) :
    PointCloudBuilder where
  numPoints := pointCount
  position := fun _ ↦ ⟨0, 0, 0⟩
  pointIndex := fun _ ↦ 0
  color := if layout.colorEncoding = .none then none else some fun _ ↦ ⟨0, 0, 0, 0⟩

/-- `Finalize(false)`. -/
def PointCloudBuilder.finalize (builder : PointCloudBuilder) : DracoCloud where
  numPoints := builder.numPoints
  attributes :=
    [(.position, ⟨12, fun i ↦ (builder.position i).bytes, fun _ ↦ rfl⟩),
      (.generic, ⟨4, fun i ↦ hostBytes (builder.pointIndex i), fun _ ↦ rfl⟩)] ++
    (builder.color.map fun color ↦
      (AttributeType.color, PointAttribute.mk 4 (fun i ↦ (color i).bytes) fun _ ↦ rfl)).toList

/-- The Draco library: `EncodePointCloudToBuffer` with the options of the codec, and
`DecodePointCloudFromBuffer`. -/
structure Draco where
  encode : DracoCloud → Option Bytes
  decode : Bytes → Option DracoCloud

/-- What the callers of the codec see: the returned flag and the output, or a fault. -/
def finish {α : Type} (result : Checked α) (output : Option α) : Except Fault (Bool × Option α) :=
  match result with
  | .ok value => .ok (true, some value)
  | .error .rejected => .ok (false, output)
  | .error (.fault fault) => .error fault

/-! ## Encoding -/

/-- The position of the point at `point`; `draco_pointcloud_codec.cpp:472–474`. -/
def readPosition (data : Bytes) (point : Nat) (bigendian : Bool) (layout : PointLayout) :
    Checked Position := do
  let x ← readFloat32 data (← fieldAddress point layout.x) bigendian
  let y ← readFloat32 data (← fieldAddress point layout.y) bigendian
  let z ← readFloat32 data (← fieldAddress point layout.z) bigendian
  pure ⟨x, y, z⟩

/-- One round of the encoding loop; `draco_pointcloud_codec.cpp:469–483`. -/
def encodePoint (message : PointCloud2) (layout : PointLayout) (index : Nat)
    (builder : PointCloudBuilder) : Checked PointCloudBuilder := do
  let offset ← pointDataOffset message (UInt32.ofNat index)
  let position ← readPosition message.data offset.toNat (toBool message.isBigendian) layout
  let builder := { builder with
    position := fun i ↦ if i = index then position else builder.position i
    pointIndex := fun i ↦ if i = index then UInt32.ofNat index else builder.pointIndex i }
  match builder.color with
  | none => pure builder
  | some values => do
    let color ← readColor message.data offset.toNat (toBool message.isBigendian) layout
    pure { builder with color := some fun i ↦ if i = index then color else values i }

/-- The metadata of `Encode`; `draco_pointcloud_codec.cpp:425–440`. -/
def encodedMetadata (message : PointCloud2) (layout : PointLayout) : EncodedPointCloud where
  codec := ascii "draco"
  formatVersion := kLayoutFormatVersion
  pointType := if layout.colorEncoding = .none then kPointTypeXyz else kPointTypeXyzRgb
  originalHeader := message.header
  originalWidth := message.width
  originalHeight := message.height
  originalFields := message.fields
  originalIsBigendian := toBool message.isBigendian
  originalPointStep := message.pointStep
  originalRowStep := message.rowStep
  originalIsDense := toBool message.isDense
  sourceStamp := message.header.stamp
  frameId := message.header.frameId

/-- `Encode` behind the test of its output pointer; `draco_pointcloud_codec.cpp:417–498`. -/
def encodeCloud (draco : Draco) (message : PointCloud2) : Checked EncodedPointCloud := do
  let pointCount ← orReject (validateMessageStorage message)
  if pointCount = 0 then
    pure { encodedMetadata message {} with sidecarBytes := message.data }
  else
    let layout ← orReject (parseLayout message.fields message.pointStep)
    let sidecarBytes ← extractSidecar message layout
    let builder ← forRange pointCount.toNat (encodePoint message layout)
      (PointCloudBuilder.start pointCount.toUInt32 layout)
    let payload ← orReject (draco.encode builder.finalize)
    pure { encodedMetadata message layout with sidecarBytes, payload }

/-- `DracoPointCloudCodec::Encode`; `draco_pointcloud_codec.cpp:412–499`. -/
def encode (draco : Draco) (message : PointCloud2) (output : Option EncodedPointCloud) :
    Except Fault (Bool × Option EncodedPointCloud) :=
  match output with
  | none => .ok (false, none)
  | some _ => finish (encodeCloud draco message) output

/-! ## Decoding -/

/-- `std::vector<std::uint8_t>::max_size()`. -/
def maxVectorSize : Nat := 9223372036854775807

/-- `data.assign(size, 0)`. -/
def assignZero (size : UInt64) : Checked Bytes :=
  if size.toNat > maxVectorSize then .error (.fault .lengthError)
  else .ok (List.replicate size.toNat 0)

/-- The colour in the memory of `color_value`. -/
def colorOfMemory (memory : Bytes) : Color :=
  ⟨memory.getD 0 0, memory.getD 1 0, memory.getD 2 0, memory.getD 3 0⟩

/-- The locals that live across the rounds of the decoding loop, and `decoded.data`. -/
structure DecodeState where
  restored : List Bool
  positionValue : Bytes
  colorValue : Bytes
  data : Bytes

/-- The three writes of a position; `draco_pointcloud_codec.cpp:582–587`. -/
def writePosition (positionValue : Bytes) (bigendian : Bool) (layout : PointLayout)
    (data : Bytes) (point : Nat) : Checked Bytes := do
  let data ← writeFloat32 (hostWord positionValue 0) bigendian data
    (← fieldAddress point layout.x)
  let data ← writeFloat32 (hostWord positionValue 4) bigendian data
    (← fieldAddress point layout.y)
  writeFloat32 (hostWord positionValue 8) bigendian data (← fieldAddress point layout.z)

/-- The attributes that the decoding loop reads. -/
structure DecodeAttributes where
  position : PointAttribute
  pointIndex : PointAttribute
  color : Option PointAttribute

/-- The writes of a decoding round to the point it names; `draco_pointcloud_codec.cpp:579–591`. -/
def storePoint (decoded : PointCloud2) (layout : PointLayout) (attributes : DecodeAttributes)
    (index : Nat) (originalIndex : UInt32) (s : DecodeState) : Checked DecodeState := do
  let positionValue ← copyInto s.positionValue (attributes.position.value index)
  let offset ← pointDataOffset decoded originalIndex
  let data ← writePosition positionValue (toBool decoded.isBigendian) layout s.data offset.toNat
  match attributes.color with
  | none => pure { s with positionValue, data }
  | some color =>
    let colorValue ← copyInto s.colorValue (color.value index)
    let data ← writeColor (colorOfMemory colorValue) (toBool decoded.isBigendian) layout data
      offset.toNat
    pure { s with positionValue, colorValue, data }

/-- One round of the decoding loop; `draco_pointcloud_codec.cpp:571–592`. -/
def restorePoint (decoded : PointCloud2) (pointCount : UInt64) (layout : PointLayout)
    (attributes : DecodeAttributes) (index : Nat) (s : DecodeState) : Checked DecodeState := do
  let memory ← copyInto [0, 0, 0, 0] (attributes.pointIndex.value index)
  let originalIndex := hostWord memory 0
  require (originalIndex.toUInt64 < pointCount)
  let seen ← readAt s.restored originalIndex.toNat
  require (!seen)
  let restored ← writeAt s.restored originalIndex.toNat true
  storePoint decoded layout attributes index originalIndex { s with restored }

/-- The message that `Decode` starts from; `draco_pointcloud_codec.cpp:507–519`. -/
def decodedMetadata (input : EncodedPointCloud) (data : Bytes) : PointCloud2 where
  header := input.originalHeader
  width := input.originalWidth
  height := input.originalHeight
  fields := input.originalFields
  isBigendian := ofBool input.originalIsBigendian
  pointStep := input.originalPointStep
  rowStep := input.originalRowStep
  isDense := ofBool input.originalIsDense
  data := data

/-- The checks of the decoded attributes; `draco_pointcloud_codec.cpp:554–566`. -/
def namedAttributes (cloud : DracoCloud) (pointCount : UInt64) (layout : PointLayout) :
    Checked DecodeAttributes := do
  require (cloud.numPoints.toUInt64 = pointCount)
  let position ← orReject (cloud.getNamedAttribute .position)
  let pointIndex ← orReject (cloud.getNamedAttribute .generic)
  let color := cloud.getNamedAttribute .color
  require (layout.colorEncoding = .none || color.isSome)
  pure ⟨position, pointIndex, color⟩

/-- The loop of `Decode` and the test that follows it; `draco_pointcloud_codec.cpp:568–599`. -/
def restorePoints (decoded : PointCloud2) (pointCount : UInt64) (layout : PointLayout)
    (numPoints : UInt32) (attributes : DecodeAttributes) : Checked PointCloud2 := do
  let s ← forRange numPoints.toNat (restorePoint decoded pointCount layout attributes)
    ⟨List.replicate pointCount.toNat false, List.replicate 12 0, List.replicate 4 0,
      decoded.data⟩
  require (!s.restored.contains false)
  pure { decoded with data := s.data }

/-- The part of `Decode` for a cloud with points; `draco_pointcloud_codec.cpp:533–600`. -/
def decodePoints (draco : Draco) (input : EncodedPointCloud) (decoded : PointCloud2)
    (pointCount : UInt64) : Checked PointCloud2 := do
  let layout ← orReject (parseLayout decoded.fields decoded.pointStep)
  require (input.pointType = kPointTypeXyz || input.pointType = kPointTypeXyzRgb)
  require ((input.pointType = kPointTypeXyzRgb : Bool) == (layout.colorEncoding ≠ .none : Bool))
  let decoded ← restoreSidecar input.sidecarBytes layout decoded
  require (input.payload ≠ [])
  let cloud ← orReject (draco.decode input.payload)
  let attributes ← namedAttributes cloud pointCount layout
  restorePoints decoded pointCount layout cloud.numPoints attributes

/-- `Decode` behind the test of its output pointer; `draco_pointcloud_codec.cpp:503–600`. -/
def decodeCloud (draco : Draco) (input : EncodedPointCloud) : Checked PointCloud2 := do
  require (input.formatVersion = kLayoutFormatVersion)
  let data ← assignZero (input.originalRowStep.toUInt64 * input.originalHeight.toUInt64)
  let decoded := decodedMetadata input data
  let pointCount ← orReject (validateMessageStorage decoded)
  if pointCount = 0 then
    require (input.payload = [] && input.sidecarBytes.length = decoded.data.length)
    pure { decoded with data := input.sidecarBytes }
  else decodePoints draco input decoded pointCount

/-- `DracoPointCloudCodec::Decode`; `draco_pointcloud_codec.cpp:501–601`. -/
def decode (draco : Draco) (input : EncodedPointCloud) (message : Option PointCloud2) :
    Except Fault (Bool × Option PointCloud2) :=
  match message with
  | none => .ok (false, none)
  | some _ => finish (decodeCloud draco input) message

/-! ## The compressed message -/

/-- The draco branch of `ptCloudProcess`; `topic_factory.cpp:259–283`. The header is that of the
received message, the dimensions those of the cloud after down-sampling. -/
def toPtCloudCompress (header : Header) (cloud : PointCloud2) (voxelLeafSize : UInt32)
    (encoded : EncodedPointCloud) : PtCloudCompress where
  originalHeader := header
  senderStamp := header.stamp
  originalWidth := cloud.width
  originalHeight := cloud.height
  originalFrameId := header.frameId
  voxelLeafSize := voxelLeafSize
  receiverStamp := 1
  codec := ascii "draco"
  compressedBytes := encoded.payload
  formatVersion := encoded.formatVersion
  pointType := encoded.pointType
  originalFields := encoded.originalFields
  originalIsBigendian := ofBool encoded.originalIsBigendian
  originalPointStep := encoded.originalPointStep
  originalRowStep := encoded.originalRowStep
  originalIsDense := ofBool encoded.originalIsDense
  sidecarBytes := encoded.sidecarBytes

/-- The draco branch of `deserializePub` up to `Decode`; `topic_factory.cpp:385–400`. -/
def ofPtCloudCompress (compressed : PtCloudCompress) (now : RosTime) : EncodedPointCloud where
  codec := compressed.codec
  formatVersion := compressed.formatVersion
  pointType := compressed.pointType
  originalHeader := compressed.originalHeader
  originalWidth := compressed.originalWidth
  originalHeight := compressed.originalHeight
  originalFields := compressed.originalFields
  originalIsBigendian := toBool compressed.originalIsBigendian
  originalPointStep := compressed.originalPointStep
  originalRowStep := compressed.originalRowStep
  originalIsDense := toBool compressed.originalIsDense
  sourceStamp := compressed.senderStamp
  receiveStamp := now
  frameId := compressed.originalFrameId
  payload := compressed.compressedBytes
  sidecarBytes := compressed.sidecarBytes

/-- The message that `deserializePub` publishes, or `none` when it throws;
`topic_factory.cpp:401–405`. -/
def deserializeDraco (draco : Draco) (compressed : PtCloudCompress) (now : RosTime)
    (message : PointCloud2) : Except Fault (Option PointCloud2) :=
  match decode draco (ofPtCloudCompress compressed now) (some message) with
  | .ok (true, some message) => .ok (some { message with header := compressed.originalHeader })
  | .ok _ => .ok none
  | .error fault => .error fault

end NetBridge.Cloud
