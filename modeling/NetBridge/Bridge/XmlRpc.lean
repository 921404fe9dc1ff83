import NetBridge.Base.Bytes

/-!
# Parameter values

`XmlRpc::XmlRpcValue`, as the ROS parameter server delivers it, and the conversions of
`src/swarm_ros_bridge/src/bridge_factory.cpp:13–60`. An exception ends the constructor of the
bridge, so everything that reads parameters returns a rejection instead.
-/

namespace NetBridge.Bridge

open NetBridge.Base

/-- Why the constructor of the bridge ends with an exception. -/
inductive Rejection where
  /-- `std::invalid_argument` with its text. -/
  | invalidArgument (what : Bytes)
  /-- `std::runtime_error` with its text. -/
  | runtimeError (what : Bytes)
  /-- `XmlRpc::XmlRpcException`: a value of another type. -/
  | xmlRpc
  /-- `std::stoi` on a text that is not an `int`. -/
  | stoi
  /-- `std::map::at` on a missing key. -/
  | outOfRange
  /-- An exception of ROS or Zenoh. -/
  | platform
deriving DecidableEq

/-- A value, unless the constructor ends. -/
abbrev Accepted (α : Type) : Type := Except Rejection α

/-- What was accepted. -/
def accepted {α : Type} [Inhabited α] (result : Accepted α) : α := result.toOption.getD default

/-- An accepted result is its value. -/
theorem eq_ok_accepted {α : Type} [Inhabited α] {result : Accepted α}
    (h : result.isOk = true) : result = .ok (accepted result) := by
  cases result with
  | ok _ => rfl
  | error _ => cases h

/-- `XmlRpc::XmlRpcValue`. A missing member of a struct reads as an invalid value. -/
inductive XmlRpcValue where
  | invalid
  | boolean (value : Bool)
  | int (value : Int32)
  | double (value : Float)
  | string (value : Bytes)
  | dateTime (value : Bytes)
  | base64 (value : Bytes)
  | array (items : List XmlRpcValue)
  | struct (members : List (Bytes × XmlRpcValue))

namespace XmlRpcValue

/-- `static_cast<std::string>` of a value that may be written: an invalid value becomes an empty
string. -/
def asString : XmlRpcValue → Accepted Bytes
  | string value => .ok value
  | invalid => .ok []
  | _ => .error .xmlRpc

/-- `static_cast<std::string>` of a constant value. -/
def asConstString : XmlRpcValue → Accepted Bytes
  | string value => .ok value
  | _ => .error .xmlRpc

/-- `XmlRpcToDouble`; `bridge_factory.cpp:13–21`. -/
def toDouble (value : XmlRpcValue) (fallback : Float) : Float :=
  match value with
  | int value => Float.ofInt value.toInt
  | double value => value
  | _ => fallback

/-- `XmlRpcToInt`; `bridge_factory.cpp:23–31`. A double outside of `int`, whose cast is undefined,
is taken to the nearest `int`, and one that is no number to 0. -/
def toInt (value : XmlRpcValue) (fallback : Int32) : Int32 :=
  match value with
  | int value => value
  | double value => value.toInt32
  | _ => fallback

/-- `XmlRpcToBool`; `bridge_factory.cpp:33–37`. -/
def toBool (value : XmlRpcValue) (fallback : Bool) : Bool :=
  match value with
  | boolean value => value
  | _ => fallback

/-- `XmlRpcToString`; `bridge_factory.cpp:39–44`. -/
def toString (value : XmlRpcValue) (fallback : Bytes) : Bytes :=
  match value with
  | string value => value
  | _ => fallback

end XmlRpcValue

/-- The members of a struct. -/
abbrev Members : Type := List (Bytes × XmlRpcValue)

namespace Members

/-- `hasMember(name)`. -/
def has (members : Members) (name : String) : Bool := members.any fun m ↦ m.1 = ascii name

/-- `value[name]` of a struct. -/
def get (members : Members) (name : String) : XmlRpcValue :=
  ((members.find? fun m ↦ m.1 = ascii name).map Prod.snd).getD .invalid

end Members

/-- The members that `value[name]` looks at: an invalid value becomes an empty struct. -/
def XmlRpcValue.members : XmlRpcValue → Accepted Members
  | struct members => .ok members
  | invalid => .ok []
  | _ => .error .xmlRpc

end NetBridge.Bridge
