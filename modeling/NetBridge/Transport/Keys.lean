import NetBridge.Transport.Envelope

/-!
# Keys and envelope metadata

The key expressions of topics and services and the metadata check of received envelopes,
`src/swarm_ros_bridge/src/transport/bridge_transport.cpp:67–86,196–215,284–316`.
-/

namespace NetBridge.Transport

open NetBridge.Base

/-- One character of `NormalizeRosName`, over the output and `previous_slash`;
`bridge_transport.cpp:71–81`. -/
def normalizeChar (state : Bytes × Bool) (ch : UInt8) : Bytes × Bool :=
  if ch = slash then (if !state.2 then state.1 ++ [slash] else state.1, true)
  else (state.1 ++ [ch], false)

/-- `NormalizeRosName`; `bridge_transport.cpp:67–86`. -/
def normalizeRosName (name : Bytes) : Bytes :=
  let normalized := (name.foldl normalizeChar ([], true)).1
  (normalized.reverse.dropWhile fun ch ↦ ch == slash).reverse

/-- `TopicFanoutKey`; `bridge_transport.cpp:284–287`. -/
def topicFanoutKey (sourceHost rosTopic : Bytes) : Bytes :=
  ascii "netbridge/v1/topic/" ++ sourceHost ++ ascii "/fanout/" ++ normalizeRosName rosTopic

/-- `TopicDirectedKey`; `bridge_transport.cpp:289–294`. -/
def topicDirectedKey (sourceHost destinationHost rosTopic : Bytes) : Bytes :=
  ascii "netbridge/v1/topic/" ++ sourceHost ++ ascii "/dst/" ++ destinationHost ++ ascii "/" ++
    normalizeRosName rosTopic

/-- `ServiceKey`; `bridge_transport.cpp:296–299`. -/
def serviceKey (serverHost rosService : Bytes) : Bytes :=
  ascii "netbridge/v1/service/" ++ serverHost ++ ascii "/" ++ normalizeRosName rosService

/-- `AliveKey`; `bridge_transport.cpp:301–303`. -/
def aliveKey (hostname : Bytes) : Bytes := ascii "netbridge/v1/alive/" ++ hostname

/-- `ParseAliveKey`; `bridge_transport.cpp:305–316`. The result is the returned flag and
`*hostname`. -/
def parseAliveKey (key : Bytes) (hostname : Option Bytes) : Bool × Option Bytes :=
  let kPrefix := ascii "netbridge/v1/alive/"
  if hostname = none ∨ startsWith key kPrefix = false then (false, hostname)
  else
    let parsed := key.drop kPrefix.length
    if parsed = [] ∨ slash ∈ parsed then (false, hostname)
    else (true, writePointer parsed hostname)

/-- `ValidateEnvelopeMetadata`; `bridge_transport.cpp:196–215`. The result is the returned flag
and `*error`. -/
def validateEnvelopeMetadata (envelope : TransportEnvelope) (expectedRosType : Bytes)
    (expectedRosMd5 : Bytes) (error : Option Bytes) : Bool × Option Bytes :=
  if envelope.protocolVersion ≠ kBridgeProtocolVersion then
    (false, setError "envelope protocol version mismatch" error)
  else if envelope.rosType ≠ expectedRosType then
    (false, writePointer (ascii "ROS type mismatch: expected " ++ expectedRosType ++
      ascii ", got " ++ envelope.rosType) error)
  else if envelope.rosMd5 ≠ expectedRosMd5 then
    (false, writePointer (ascii "ROS MD5 mismatch for " ++ expectedRosType) error)
  else (true, error)

/-- Fan-out keys of one host agree exactly when the normalised names do. -/
theorem topicFanoutKey_inj {sourceHost name name' : Bytes} :
    topicFanoutKey sourceHost name = topicFanoutKey sourceHost name' ↔
      normalizeRosName name = normalizeRosName name' :=
  List.append_right_inj _

/-- The metadata of an envelope are accepted exactly when version, type and MD5 are the expected
ones. -/
theorem validateEnvelopeMetadata_iff (envelope : TransportEnvelope)
    (expectedRosType expectedRosMd5 : Bytes) (error : Option Bytes) :
    (validateEnvelopeMetadata envelope expectedRosType expectedRosMd5 error).1 = true ↔
      envelope.protocolVersion = kBridgeProtocolVersion ∧
        envelope.rosType = expectedRosType ∧ envelope.rosMd5 = expectedRosMd5 := by
  unfold validateEnvelopeMetadata
  split
  · next h => exact ⟨fun hf ↦ (by cases hf), fun he ↦ absurd he.1 h⟩
  · next h1 =>
    split
    · next h => exact ⟨fun hf ↦ (by cases hf), fun he ↦ absurd he.2.1 h⟩
    · next h2 =>
      split
      · next h => exact ⟨fun hf ↦ (by cases hf), fun he ↦ absurd he.2.2 h⟩
      · next h3 =>
        exact ⟨fun _ ↦ ⟨Classical.not_not.mp h1, Classical.not_not.mp h2,
          Classical.not_not.mp h3⟩, fun _ ↦ rfl⟩

end NetBridge.Transport
