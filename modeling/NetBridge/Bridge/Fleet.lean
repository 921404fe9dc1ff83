import NetBridge.Base.Names
import NetBridge.Bridge.Topics

/-!
# Fleets

The bridges of all hosts, after each of them has been constructed from the shared parameters.
-/

namespace NetBridge.Bridge

open NetBridge.Base NetBridge.Transport NetBridge.Topic

/-- What the documentation of ROS and Zenoh promises: a global name is only cleaned, as nothing is
remapped, and no key with an empty chunk is declared. -/
structure Documented (platform : Platform) : Prop where
  resolves : ∀ {name topic : Bytes}, name.head? = some slash →
    platform.resolveName name = some topic → topic = cleanName name
  declares : ∀ {session : Session} {key : Bytes} {qosClass : QosClass},
    platform.declares session key qosClass = true → hasEmptyChunk key = false

/-- ROS and Zenoh as documented, refusing nothing else. -/
def documentedPlatform : Platform where
  resolveName name := some (cleanName name)
  declares _ key _ := !hasEmptyChunk key
  subscribes _ _ := true
  advertises _ _ := true

/-- The platform of the examples behaves as documented. -/
theorem documentedPlatform_documented : Documented documentedPlatform where
  resolves _ h := (Option.some.inj h).symm
  declares h := (Bool.not_eq_true' _).mp h

/-- `std_msgs/String` with its `MD5Sum`. -/
def stringMessages : List MessageType :=
  [⟨ascii "std_msgs/String", ascii "992ce8a1687cec8c8bd883ec73ca41d1", false⟩]

/-- Bridges that all hosts of the inventory have constructed from the same parameters. ROS and
Zenoh may behave differently on each host. -/
structure Fleet (msgs : List MessageType) (params : Parameters) where
  platform : Bytes → Platform
  hostMap : Inventory
  rules : List TopicCfg
  bridge : Bytes → BridgeFactory
  inventory : hostInventory params = .ok hostMap
  parsed : topicRules msgs params hostMap = .ok rules
  started : ∀ host, host ∈ hostMap → (bridge host).me.hostname = host ∧
    ∃ hostname droneId,
      constructBridge (platform host) msgs params hostname droneId = .ok (bridge host)

/-- A host that a rule selects is one of the rule's hosts. -/
theorem mem_of_selected {map : HostMap} {host : Bytes}
    (h : map[host]? = some true) : host ∈ map :=
  Std.ExtTreeMap.mem_iff_isSome_getElem?.mpr (by rw [h]; rfl)

namespace Fleet

variable {msgs : List MessageType} {params : Parameters} {fleet : Fleet msgs params}

/-- What the constructor has left on a host of the fleet. -/
theorem bridge_spec {host : Bytes} (hm : host ∈ fleet.hostMap) :
    (fleet.bridge host).me.hostname = host ∧ (fleet.bridge host).hostMap = fleet.hostMap ∧
      (fleet.rules.map (onHost host)).foldlM
        (assign (sendEntry (fleet.platform host) msgs params (fleet.bridge host).me)) ∅ =
          .ok (fleet.bridge host).sendTopics ∧
      (fleet.rules.map (onHost host)).foldlM
        (recvRound (fleet.platform host) msgs params (fleet.bridge host).me
          fleet.hostMap.keys) ∅ = .ok (fleet.bridge host).recvTopics := by
  obtain ⟨hname, hostname, droneId, hb⟩ := fleet.started host hm
  obtain ⟨hhosts, rules, hrules, hcfgs, hsend, hrecv⟩ := constructBridge_eq_ok hb
  rw [fleet.inventory] at hhosts
  have hmap : (fleet.bridge host).hostMap = fleet.hostMap := (Except.ok.inj hhosts).symm
  rw [hmap, fleet.parsed] at hrules
  cases hrules
  rw [hcfgs, hname] at hsend hrecv
  rw [hmap] at hrecv
  exact ⟨hname, hmap, hsend, hrecv⟩

/-! ## Starting a fleet -/

/-- The bridge of a host whose parameter `hostname` is its name in the inventory. -/
def startHost (platform : Platform) (msgs : List MessageType) (params : Parameters)
    (host : Bytes) : Accepted BridgeFactory :=
  constructBridge platform msgs params (some host) none

/-- Whether the bridge of every host starts. -/
def starts (platform : Platform) (msgs : List MessageType) (params : Parameters) : Bool :=
  (hostInventory params).isOk &&
    (topicRules msgs params (accepted (hostInventory params))).isOk &&
    (accepted (hostInventory params)).keys.all fun host ↦
      (startHost platform msgs params host).isOk &&
        (accepted (startHost platform msgs params host)).me.hostname = host

/-- The fleet of bridges that start. -/
def ofStarts (platform : Platform) (msgs : List MessageType) (params : Parameters)
    (h : starts platform msgs params = true) : Fleet msgs params where
  platform _ := platform
  hostMap := accepted (hostInventory params)
  rules := accepted (topicRules msgs params (accepted (hostInventory params)))
  bridge host := accepted (startHost platform msgs params host)
  inventory := by
    rw [starts, Bool.and_eq_true, Bool.and_eq_true] at h
    exact eq_ok_accepted h.1.1
  parsed := by
    rw [starts, Bool.and_eq_true, Bool.and_eq_true] at h
    exact eq_ok_accepted h.1.2
  started host hm := by
    rw [starts, Bool.and_eq_true] at h
    have hhost := List.all_eq_true.mp h.2 host (Std.ExtTreeMap.mem_keys.mpr hm)
    rw [Bool.and_eq_true, decide_eq_true_eq] at hhost
    exact ⟨hhost.2, some host, none, eq_ok_accepted hhost.1⟩

end Fleet

end NetBridge.Bridge
