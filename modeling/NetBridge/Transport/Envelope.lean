import NetBridge.Base.BigEndian
import NetBridge.Base.Bytes

/-!
# The `NBZ1` envelope codec

`src/swarm_ros_bridge/src/transport/bridge_transport.cpp:12–194` over the types of
`include/transport/bridge_transport.hpp:15–59`. Every frame is a magic, six fixed-width
big-endian words, four length-prefixed strings and a length-prefixed payload.
-/

namespace NetBridge.Transport

open NetBridge.Base

/-- `kBridgeProtocolVersion`; `bridge_transport.hpp:15`. -/
def kBridgeProtocolVersion : UInt16 := 1

/-- `kMaxEnvelopePayloadBytes`; `bridge_transport.hpp:16`. -/
def kMaxEnvelopePayloadBytes : Nat := 512 * 1024 * 1024

/-- `PayloadKind`; `bridge_transport.hpp:18–24`. -/
inductive PayloadKind where
  | rosSerialized
  | jpeg
  | pointCloudCompressed
  | serviceRequest
  | serviceResponse
deriving DecidableEq, Repr

/-- The underlying byte of a payload kind. -/
def PayloadKind.toUInt8 : PayloadKind → UInt8
  | rosSerialized => 0
  | jpeg => 1
  | pointCloudCompressed => 2
  | serviceRequest => 3
  | serviceResponse => 4

/-- `static_cast<PayloadKind>` of a byte that passed the range check. -/
def PayloadKind.ofUInt8 : UInt8 → PayloadKind
  | 0 => rosSerialized
  | 1 => jpeg
  | 2 => pointCloudCompressed
  | 3 => serviceRequest
  | _ => serviceResponse

/-- `TransportEnvelope`; `bridge_transport.hpp:48–59`. -/
structure TransportEnvelope where
  protocolVersion : UInt16 := kBridgeProtocolVersion
  payloadKind : PayloadKind := .rosSerialized
  sequence : UInt64 := 0
  sourceTimeNs : Int64 := 0
  sourceHeaderSequence : UInt32 := 0
  sourceHost : Bytes := []
  rosType : Bytes := []
  rosMd5 : Bytes := []
  frameId : Bytes := []
  payload : Bytes := []
deriving DecidableEq

/-- `kMagic`; `bridge_transport.cpp:12`. -/
def kMagic : Bytes := ascii "NBZ1"

/-- `SetError`; `bridge_transport.cpp:14–18`. -/
def setError (value : String) (error : Option Bytes) : Option Bytes :=
  writePointer (ascii value) error

/-- `AppendUnsigned<T>` for a `T` of `size` bytes; `bridge_transport.cpp:20–26`. -/
def appendUnsigned (size value : Nat) (output : Bytes) : Bytes :=
  (List.range size).foldl
    (fun output i ↦ output ++ [UInt8.ofNat (value >>> ((size - i - 1) * 8) &&& 0xff)]) output

/-- `ReadUnsigned<T>` for a `T` of `size` bytes; `bridge_transport.cpp:28–40`. The cursor is
the list of bytes between `*cursor` and `end`. -/
def readUnsigned (size : Nat) (cursor : Bytes) : Option (Nat × Bytes) :=
  if cursor.length < size then none
  else
    some ((cursor.take size).foldl
        (fun result byte ↦ (result <<< 8 ||| byte.toNat) % 2 ^ (8 * size)) 0,
      cursor.drop size)

/-- `AppendString`; `bridge_transport.cpp:42–52`. The result is the returned flag, `*output`
and `*error`. -/
def appendString (value output : Bytes) (error : Option Bytes) : Bool × Bytes × Option Bytes :=
  if value.length > 65535 then
    (false, output, setError "envelope string exceeds uint16 length" error)
  else (true, appendUnsigned 2 value.length output ++ value, error)

/-- `ReadString`; `bridge_transport.cpp:54–65`. -/
def readString (cursor : Bytes) : Option (Bytes × Bytes) :=
  match readUnsigned 2 cursor with
  | none => none
  | some (length, cursor) =>
    if cursor.length < length then none else some (cursor.take length, cursor.drop length)

/-- The chain of `AppendString` calls of `EncodeEnvelope`; `bridge_transport.cpp:118–121`. -/
def appendStrings (values : List Bytes) (output : Bytes) (error : Option Bytes) :
    Bool × Bytes × Option Bytes :=
  match values with
  | [] => (true, output, error)
  | value :: values =>
    match appendString value output error with
    | (true, output, error) => appendStrings values output error
    | failed => failed

/-- `EncodeEnvelope`; `bridge_transport.cpp:90–128`. Both pointers may be `nullptr`; the result
is the returned flag, `*output` and `*error`. -/
def encodeEnvelope (envelope : TransportEnvelope) (output error : Option Bytes) :
    Bool × Option Bytes × Option Bytes :=
  match output with
  | none => (false, none, setError "output is null" error)
  | some output =>
    if envelope.protocolVersion ≠ kBridgeProtocolVersion then
      (false, some output, setError "unsupported envelope protocol version" error)
    else if envelope.payload.length > kMaxEnvelopePayloadBytes ∨
        envelope.payload.length > 4294967295 then
      (false, some output, setError "envelope payload exceeds configured limit" error)
    else
      let header := kMagic
      let header := appendUnsigned 2 envelope.protocolVersion.toNat header
      let header := header ++ [envelope.payloadKind.toUInt8]
      let header := header ++ [0]  -- Reserved flags.
      let header := appendUnsigned 8 envelope.sequence.toNat header
      let header := appendUnsigned 8 envelope.sourceTimeNs.toUInt64.toNat header
      let header := appendUnsigned 4 envelope.sourceHeaderSequence.toNat header
      match appendStrings [envelope.sourceHost, envelope.rosType, envelope.rosMd5,
          envelope.frameId] header error with
      | (false, _, error) => (false, some [], error)
      | (true, wire, error) =>
        (true, some (appendUnsigned 4 envelope.payload.length wire ++ envelope.payload), error)

/-- The fixed-width words behind the magic, and the bytes after them;
`bridge_transport.cpp:145–156`. -/
def readHeader (cursor : Bytes) : Option ((Nat × Nat × Nat × Nat × Nat × Nat) × Bytes) := do
  let (version, cursor) ← readUnsigned 2 cursor
  let (payloadKind, cursor) ← readUnsigned 1 cursor
  let (flags, cursor) ← readUnsigned 1 cursor
  let (sequence, cursor) ← readUnsigned 8 cursor
  let (sourceTimeNs, cursor) ← readUnsigned 8 cursor
  let (sourceHeaderSequence, cursor) ← readUnsigned 4 cursor
  some ((version, payloadKind, flags, sequence, sourceTimeNs, sourceHeaderSequence), cursor)

/-- The four metadata strings, and the bytes after them; `bridge_transport.cpp:176–179`. -/
def readMetadata (cursor : Bytes) : Option ((Bytes × Bytes × Bytes × Bytes) × Bytes) := do
  let (sourceHost, cursor) ← readString cursor
  let (rosType, cursor) ← readString cursor
  let (rosMd5, cursor) ← readString cursor
  let (frameId, cursor) ← readString cursor
  some ((sourceHost, rosType, rosMd5, frameId), cursor)

/-- `DecodeEnvelope`; `bridge_transport.cpp:130–194`. The input is the byte range, or `none`
for a null `data`; the result is the returned flag, `*envelope` and `*error`. -/
def decodeEnvelope (data : Option Bytes) (envelope : Option TransportEnvelope)
    (error : Option Bytes) : Bool × Option TransportEnvelope × Option Bytes :=
  match data, envelope with
  | some data, some prior =>
    if data.length < kMagic.length ∨ data.take kMagic.length ≠ kMagic then
      (false, some prior, setError "invalid envelope magic" error)
    else
      match readHeader (data.drop kMagic.length) with
      | none => (false, some prior, setError "truncated envelope header" error)
      | some ((version, payloadKind, _, sequence, sourceTimeNs, sourceHeaderSequence), cursor) =>
        if UInt16.ofNat version ≠ kBridgeProtocolVersion then
          (false, some prior, setError "unsupported envelope protocol version" error)
        else if payloadKind > PayloadKind.serviceResponse.toUInt8.toNat then
          (false, some prior, setError "invalid envelope payload kind" error)
        else
          match readMetadata cursor with
          | none => (false, some prior, setError "truncated envelope metadata" error)
          | some ((sourceHost, rosType, rosMd5, frameId), cursor) =>
            match readUnsigned 4 cursor with
            | none => (false, some prior, setError "invalid or truncated envelope payload" error)
            | some (payloadLength, cursor) =>
              if payloadLength > kMaxEnvelopePayloadBytes ∨ cursor.length ≠ payloadLength then
                (false, some prior, setError "invalid or truncated envelope payload" error)
              else
                let decoded : TransportEnvelope := {
                  protocolVersion := UInt16.ofNat version
                  payloadKind := PayloadKind.ofUInt8 (UInt8.ofNat payloadKind)
                  sequence := UInt64.ofNat sequence
                  sourceTimeNs := (UInt64.ofNat sourceTimeNs).toInt64
                  sourceHeaderSequence := UInt32.ofNat sourceHeaderSequence
                  sourceHost, rosType, rosMd5, frameId
                  payload := cursor }
                (true, some decoded, error)
  | _, envelope => (false, envelope, setError "input or envelope is null" error)

end NetBridge.Transport
