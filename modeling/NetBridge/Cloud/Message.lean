import NetBridge.Base.Bytes
import NetBridge.Base.RosTime

/-!
# Point cloud messages

`sensor_msgs/PointCloud2` with its parts, the codec's `EncodedPointCloud`
(`src/swarm_ros_bridge/include/transport/pointcloud_codec.hpp:13–30`) and the bridge's own
`PtCloudCompress` message (`src/swarm_ros_bridge/msg/PtCloudCompress.msg`). A ROS `bool` is a
byte in generated C++, so `is_bigendian` and `is_dense` are bytes of which any but zero is true.
-/

namespace NetBridge.Cloud

open NetBridge.Base

/-- `std_msgs::Header`. -/
structure Header where
  seq : UInt32 := 0
  stamp : RosTime := {}
  frameId : Bytes := []
deriving DecidableEq

/-- `sensor_msgs::PointField`. -/
structure PointField where
  name : Bytes := []
  offset : UInt32 := 0
  datatype : UInt8 := 0
  count : UInt32 := 0
deriving DecidableEq

/-- `sensor_msgs::PointCloud2`. -/
structure PointCloud2 where
  header : Header := {}
  height : UInt32 := 0
  width : UInt32 := 0
  fields : List PointField := []
  isBigendian : UInt8 := 0
  pointStep : UInt32 := 0
  rowStep : UInt32 := 0
  data : Bytes := []
  isDense : UInt8 := 0
deriving DecidableEq

/-- Conversion of a ROS `bool` to a C++ one. -/
def toBool (b : UInt8) : Bool := b != 0

/-- Conversion of a C++ `bool` to a ROS one. -/
def ofBool (b : Bool) : UInt8 := if b then 1 else 0

/-- A Boolean survives the wire. -/
@[simp] theorem toBool_ofBool (b : Bool) : toBool (ofBool b) = b := by
  cases b <;> rfl

/-- `EncodedPointCloud`; `pointcloud_codec.hpp:13–30`. -/
structure EncodedPointCloud where
  codec : Bytes := []
  formatVersion : UInt8 := 0
  pointType : Bytes := []
  originalHeader : Header := {}
  originalWidth : UInt32 := 0
  originalHeight : UInt32 := 0
  originalFields : List PointField := []
  originalIsBigendian : Bool := false
  originalPointStep : UInt32 := 0
  originalRowStep : UInt32 := 0
  originalIsDense : Bool := false
  sourceStamp : RosTime := {}
  receiveStamp : RosTime := {}
  frameId : Bytes := []
  payload : Bytes := []
  sidecarBytes : Bytes := []
deriving DecidableEq

/-- `PtCloudCompress`; `PtCloudCompress.msg`. The leaf size is kept as the bits of its
`float32`. -/
structure PtCloudCompress where
  originalHeader : Header := {}
  senderStamp : RosTime := {}
  compressedBytes : Bytes := []
  originalWidth : UInt32 := 0
  originalHeight : UInt32 := 0
  originalFrameId : Bytes := []
  codec : Bytes := []
  voxelLeafSize : UInt32 := 0
  receiverStamp : UInt8 := 0
  formatVersion : UInt8 := 0
  pointType : Bytes := []
  originalFields : List PointField := []
  originalIsBigendian : UInt8 := 0
  originalPointStep : UInt32 := 0
  originalRowStep : UInt32 := 0
  originalIsDense : UInt8 := 0
  sidecarBytes : Bytes := []
deriving DecidableEq

end NetBridge.Cloud
