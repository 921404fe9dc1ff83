/-!
# The time of ROS

`ros::Time` and the differences of two. Readings of the clock lie less than `2 ^ 31` s apart, so
that none of these is out of range.
-/

namespace NetBridge.Base

/-- `ros::Time`. -/
structure RosTime where
  sec : UInt32 := 0
  nsec : UInt32 := 0
deriving DecidableEq

namespace RosTime

/-- `isZero`. -/
def isZero (time : RosTime) : Bool := time.sec = 0 && time.nsec = 0

/-- `toNSec`. -/
def toNSec (time : RosTime) : UInt64 := time.sec.toUInt64 * 1000000000 + time.nsec.toUInt64

/-- The difference of two times, a `ros::Duration`, in nanoseconds. -/
def since (now before : RosTime) : Int := now.toNSec.toNat - before.toNSec.toNat

end RosTime

end NetBridge.Base
