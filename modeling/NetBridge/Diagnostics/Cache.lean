import NetBridge.Base.Bytes
import NetBridge.Base.Index

/-!
# The diagnostics cache

`DiagnosticsCache`, `src/swarm_ros_bridge/src/diagnostics/diagnostics_cache.cpp`, over the message
types `msg/NetworkInfo.msg` and `msg/NetworkArray.msg`. Every method holds `mutex_`, so it is one
step. The cache never looks at the floating-point members, and their type is a parameter; readings
of the steady clock are nanoseconds.
-/

namespace NetBridge.Diagnostics

open NetBridge.Base

/-- `NetworkInfo`; `msg/NetworkInfo.msg`. -/
structure NetworkInfo (β : Type) where
  name : Bytes
  msgType : Bytes
  direction : Bytes
  codec : Bytes
  transport : Bytes
  qosClass : Bytes
  configuredRateHz : β
  sendRateHz : β
  recvRateHz : β
  bandwidthKbps : β
  effectiveRecvBandwidthKbps : β
  imageLossRatePct : β
  completeFrameSuccessRatePct : β
  avgLatencyMs : β
  jitterMs : β
  stabilityScore : β
  lastRecvAgeMs : β
  adaptiveQualityEnabled : Bool
  configuredJpegQuality : UInt32
  currentJpegQuality : UInt32
  targetBandwidthKbps : β
  packetSize : UInt32
  totalMessages : UInt32
  droppedMessages : UInt32
  sessionConnected : Bool
  linkConnected : Bool
  connectedPeerCount : UInt64
  connectedRouterCount : UInt64
  reconnectCount : UInt64
  transportQueueDrops : UInt64
  expectedFrames : UInt64
  transportCompleteFrames : UInt64
  decodedFrames : UInt64
  inferredLostFrames : UInt64
  sequenceResets : UInt64
  serviceTimeouts : UInt64
  decodeErrors : UInt64
  nodeHostname : Bytes
  nodeOnline : Bool
  nodeStateAgeMs : UInt64
  nodeOnlineTransitions : UInt64

/-- A message as its constructor leaves it: ROS sets every member to zero. -/
def NetworkInfo.zeroed (β : Type) [OfNat β 0] : NetworkInfo β :=
  ⟨[], [], [], [], [], [], 0, 0, 0, 0, 0, 0, 0, 0, 0, 0, 0, false, 0, 0, 0, 0, 0, 0, false, false,
    0, 0, 0, 0, 0, 0, 0, 0, 0, 0, 0, [], false, 0, 0⟩

variable {β : Type}

/-- `DiagnosticsCache`; `diagnostics_cache.hpp:17–40`. -/
structure DiagnosticsCache (β : Type) where
  latest : Std.ExtTreeMap Bytes (NetworkInfo β) := ∅
  lastUpdateAt : Int := 0
  hasUpdate : Bool := false

namespace DiagnosticsCache

/-- `Update` with the rows of a message; `diagnostics_cache.cpp:6–14`. -/
def update (_cache : DiagnosticsCache β) (info : List (NetworkInfo β)) (now : Int) :
    DiagnosticsCache β where
  latest := indexBy NetworkInfo.name info
  lastUpdateAt := now
  hasUpdate := true

/-- `IsFreshLocked`; `diagnostics_cache.cpp:26–29`. -/
def isFreshLocked (cache : DiagnosticsCache β) (maxAge now : Int) : Bool :=
  cache.hasUpdate && now - cache.lastUpdateAt ≤ maxAge

/-- `Snapshot`; `diagnostics_cache.cpp:31–39`. -/
def snapshot (cache : DiagnosticsCache β) : List (NetworkInfo β) :=
  cache.latest.toList.map Prod.snd

/-- The age up to which rows are shown, 2500 ms. -/
def shownAge : Int := 2500000000

/-- `LookupDirected` with a place for the row; `diagnostics_cache.cpp:84–103`. -/
def lookupDirected (cache : DiagnosticsCache β) (topicNames : List Bytes) (direction : Bytes)
    (now : Int) : Option (NetworkInfo β) :=
  if !cache.isFreshLocked shownAge now then none
  else topicNames.findSome? fun topicName ↦
    match cache.latest[topicName]? with
    | some item => if item.direction = direction then some item else none
    | none => none

/-- `IsFresh` with the age of the screens; `diagnostics_cache.cpp:16–19`. -/
def isFresh (cache : DiagnosticsCache β) (now : Int) : Bool := cache.isFreshLocked shownAge now

/-- `NodeSnapshot`; `diagnostics_cache.cpp:41–50`. -/
def nodeSnapshot (cache : DiagnosticsCache β) : List (NetworkInfo β) :=
  cache.snapshot.filter fun item ↦ item.msgType = ascii "presence"

/-- `LookupNode` with a place for the row; `diagnostics_cache.cpp:52–68`. -/
def lookupNode (cache : DiagnosticsCache β) (hostname : Bytes) (now : Int) :
    Option (NetworkInfo β) :=
  if !cache.isFreshLocked shownAge now then none
  else
    match cache.latest[ascii "@zenoh/node/" ++ hostname]? with
    | some item => if item.msgType = ascii "presence" then some item else none
    | none => none

/-- `LookupAny` with a place for the row; `diagnostics_cache.cpp:105–122`. -/
def lookupAny (cache : DiagnosticsCache β) (topicNames : List Bytes) (now : Int) :
    Option (NetworkInfo β) :=
  if !cache.isFreshLocked shownAge now then none
  else topicNames.findSome? fun topicName ↦ cache.latest[topicName]?

/-- The row that is found is that of the first name that has one. -/
theorem lookupAny_eq_some_iff {cache : DiagnosticsCache β} {topicNames : List Bytes} {now : Int}
    {row : NetworkInfo β} : cache.lookupAny topicNames now = some row ↔
      cache.isFresh now = true ∧ ∃ before topicName after,
        topicNames = before ++ topicName :: after ∧ cache.latest[topicName]? = some row ∧
        ∀ other ∈ before, cache.latest[other]? = none := by
  rw [lookupAny, isFresh]
  cases cache.isFreshLocked shownAge now with
  | false => simp
  | true => simp [List.findSome?_eq_some_iff]

/-- A row is found exactly if a name has one. -/
theorem isSome_lookupAny {cache : DiagnosticsCache β} {topicNames : List Bytes} {now : Int} :
    (cache.lookupAny topicNames now).isSome = true ↔
      cache.isFresh now = true ∧ ∃ topicName ∈ topicNames,
        (cache.latest[topicName]?).isSome = true := by
  rw [lookupAny, isFresh]
  cases cache.isFreshLocked shownAge now with
  | false => simp
  | true => simp

/-- A row is found exactly if a name has one of this direction. -/
theorem isSome_lookupDirected {cache : DiagnosticsCache β} {topicNames : List Bytes}
    {direction : Bytes} {now : Int} :
    (cache.lookupDirected topicNames direction now).isSome = true ↔
      cache.isFresh now = true ∧ ∃ topicName ∈ topicNames, ∃ row,
        cache.latest[topicName]? = some row ∧ row.direction = direction := by
  rw [lookupDirected, isFresh]
  cases cache.isFreshLocked shownAge now with
  | false => simp
  | true =>
    rw [Bool.not_true, if_neg Bool.false_ne_true, List.findSome?_isSome_iff]
    simp only [true_and]
    refine exists_congr fun topicName ↦ and_congr_right fun _ ↦ ?_
    cases cache.latest[topicName]? with
    | none => simp
    | some row => simp

/-- A row is shown: it is found by its name and direction, and the snapshot contains it. -/
structure Shows (cache : DiagnosticsCache β) (now : Int) (row : NetworkInfo β) : Prop where
  found : cache.lookupDirected [row.name] row.direction now = some row
  listed : row ∈ cache.snapshot

/-- A fresh cache shows the rows that their names find. -/
theorem shows_iff {cache : DiagnosticsCache β} {info : List (NetworkInfo β)} {at' now : Int}
    (hfresh : now - at' ≤ shownAge) {row : NetworkInfo β} :
    (cache.update info at').Shows now row ↔
      (indexBy NetworkInfo.name info)[row.name]? = some row := by
  have hlocked : (cache.update info at').isFreshLocked shownAge now = true :=
    decide_eq_true hfresh
  constructor
  · intro h
    exact mem_values_indexBy.mp h.listed
  · intro h
    constructor
    · have hlatest : (cache.update info at').latest[row.name]? = some row := h
      rw [lookupDirected, hlocked]
      simp [hlatest]
    · exact mem_values_indexBy.mpr h

/-- A fresh cache shows every row of the last message exactly when no two rows of it share a
name. -/
theorem shows_all_iff (cache : DiagnosticsCache β) {info : List (NetworkInfo β)} {at' now : Int}
    (hfresh : now - at' ≤ shownAge) :
    (∀ row ∈ info, (cache.update info at').Shows now row) ↔
      Determines NetworkInfo.name info := by
  rw [← indexBy_lossless]
  exact forall₂_congr fun row _ ↦ shows_iff hfresh

/-- The names of a snapshot are distinct. -/
theorem nodup_snapshot (cache : DiagnosticsCache β) (info : List (NetworkInfo β)) (now : Int) :
    ((cache.update info now).snapshot.map NetworkInfo.name).Nodup :=
  nodup_values_indexBy NetworkInfo.name info

end DiagnosticsCache

end NetBridge.Diagnostics
