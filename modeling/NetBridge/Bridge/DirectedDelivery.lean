import NetBridge.Bridge.Routing
import NetBridge.Topic.Sender
import NetBridge.Transport.WireFormat

/-!
# Directed delivery

Messages with `to_drone_ids` go to the drones they name. The publishers of a dynamic rule come from
its `dstIP` (`src/swarm_ros_bridge/src/topic_factory.cpp:100–113`,
`src/bridge_factory.cpp:553–561`), and each entry of the list is looked up by itself
(`src/topic_factory.cpp:206–222`).
-/

namespace NetBridge.Topic

open NetBridge.Base NetBridge.Diagnostics NetBridge.Transport

namespace Sender

/-- From one state to another the envelope has been published on the keys, in their order, and so
many drops have been counted. -/
structure Delivers (envelope : TransportEnvelope) (keys : List Bytes) (drops : Nat)
    (s s' : Sender) : Prop where
  factory : s'.factory = s.factory
  publications : s'.publications = s.publications ++ keys.map fun key ↦ (key, envelope)
  sent : s'.metrics.totalSent = s.metrics.totalSent + UInt64.ofNat keys.length
  dropped : s'.metrics.droppedMessages = s.metrics.droppedMessages + UInt64.ofNat drops

variable {envelope : TransportEnvelope} {s : Sender}

/-- Without ids nothing is delivered. -/
theorem delivers_nil (envelope : TransportEnvelope) (s : Sender) : Delivers envelope [] 0 s s := by
  constructor <;> simp

/-- Deliveries one after the other. -/
theorem Delivers.trans {keys keys' : List Bytes} {drops drops' : Nat} {s' s'' : Sender}
    (h : Delivers envelope keys drops s s') (h' : Delivers envelope keys' drops' s' s'') :
    Delivers envelope (keys ++ keys') (drops + drops') s s'' := by
  constructor
  · rw [h'.factory, h.factory]
  · rw [h'.publications, h.publications, List.map_append, List.append_assoc]
  · rw [h'.sent, h.sent, List.length_append, UInt64.ofNat_add, UInt64.add_assoc]
  · rw [h'.dropped, h.dropped, UInt64.ofNat_add, UInt64.add_assoc]

/-- The keys that the entries of `to_drone_ids` are published on. -/
def directedKeys (factory : TopicFactory) (ids : List UInt8) : List Bytes :=
  ids.filterMap fun id ↦ factory.dynamicSenders[droneHost id]?.map Publisher.key

/-- The number of entries of `to_drone_ids` that have no publisher. -/
def unconfigured (factory : TopicFactory) (ids : List UInt8) : Nat :=
  ids.countP fun id ↦ factory.dynamicSenders[droneHost id]?.isNone

variable {c : Callback}

/-- One entry of the list is published once, or dropped. -/
theorem delivers_publishDirected (hfits : envelope.Fits) (hputs : ∀ i, c.puts i = true)
    (s : Sender) (id : UInt8 × Nat) :
    Delivers envelope (directedKeys s.factory [id.1]) (unconfigured s.factory [id.1]) s
      (s.publishDirected envelope c id) := by
  unfold publishDirected directedKeys unconfigured
  cases hpublisher : s.factory.dynamicSenders[droneHost id.1]? with
  | none => constructor <;> simp [drop, publications, hpublisher]
  | some publisher =>
    have hencode := (encodeEnvelope_ok_iff envelope [] (some [])).mpr hfits
    dsimp only
    rw [publish, hencode, hputs]
    constructor
    · rfl
    · simp [publications, hpublisher]
    · simp [hpublisher]
    · simp [hpublisher]

/-- The list is handled entry by entry. -/
theorem delivers_foldl_publishDirected (hfits : envelope.Fits) (hputs : ∀ i, c.puts i = true)
    (ids : List (UInt8 × Nat)) (s : Sender) :
    Delivers envelope (directedKeys s.factory (ids.map Prod.fst))
      (unconfigured s.factory (ids.map Prod.fst)) s (ids.foldl (publishDirected envelope c) s) := by
  induction ids generalizing s with
  | nil => exact delivers_nil envelope s
  | cons id ids ih =>
    have hfirst := delivers_publishDirected hfits hputs s id
    have hrest := ih (s.publishDirected envelope c id)
    rw [hfirst.factory] at hrest
    have hall := hfirst.trans hrest
    rw [List.foldl_cons, List.map_cons]
    unfold directedKeys unconfigured at hall ⊢
    rwa [← List.filterMap_append, ← List.countP_append] at hall

/-- A message that passes the limiter and is encoded goes to the publishers of its entries. -/
theorem delivers_subCallback {msgs : List MessageType}
    (hids : hasToDroneIds msgs s.factory.topicCfg.type = true)
    (hpasses : (s.sendFreqControl c.now).1 = false) {payload : Bytes}
    (hencoded : c.message.encoded = some payload)
    (hfits : (c.envelope msgs s.factory.topicCfg (s.sequence + 1) payload).Fits)
    (hputs : ∀ i, c.puts i = true) :
    Delivers (c.envelope msgs s.factory.topicCfg (s.sequence + 1) payload)
      (directedKeys s.factory c.message.toDroneIds) (unconfigured s.factory c.message.toDroneIds)
      s (s.subCallback msgs c) := by
  rcases s.sendFreqControl_cases c.now with ⟨subLastTime, hcontrol⟩ | hcontrol
  · have hloop := delivers_foldl_publishDirected hfits hputs c.message.toDroneIds.zipIdx
      { s with subLastTime, sequence := s.sequence + 1 }
    rw [List.zipIdx_map_fst] at hloop
    unfold subCallback
    rw [hcontrol, hencoded]
    dsimp only
    rw [if_pos hids]
    exact ⟨hloop.factory, hloop.publications, hloop.sent, hloop.dropped⟩
  · rw [hcontrol] at hpasses
    cases hpasses

end Sender

/-- Different identifiers are different hosts. -/
theorem droneHost_inj {id id' : UInt8} (h : droneHost id = droneHost id') : id = id' := by
  have hprinted : ∀ i : UInt8, droneHost i = ascii "drone" ++ decimal i.toNat := by
    simp [droneHost, ascii, decimal, toString, Nat.repr]
  rw [hprinted, hprinted, List.append_cancel_left_eq] at h
  exact UInt8.toNat_inj.mp (decimal_inj h)

end NetBridge.Topic

namespace NetBridge.Bridge

open NetBridge.Base NetBridge.Transport NetBridge.Topic

/-- A host that a rule directs to: a selected destination that is not the own host. -/
def Reaches (me : Identity) (rule : TopicCfg) (target : Bytes) : Prop :=
  rule.dstHostnameMap[target]? = some true ∧ target ≠ me.hostname

instance (me : Identity) (rule : TopicCfg) (target : Bytes) : Decidable (Reaches me rule target) :=
  inferInstanceAs (Decidable (_ ∧ _))

section

variable {platform : Platform} {msgs : List MessageType} {params : Parameters} {me : Identity}

/-- The sender of a dynamic rule has a publisher for each host that the rule reaches. -/
theorem getElem?_dynamicSenders_of_sendEntry {rule : TopicCfg} {name : Bytes}
    {factory : TopicFactory}
    (h : sendEntry platform msgs params me rule = .ok (some (name, factory)))
    (hhost : rule.myHostname = me.hostname) (hdynamic : rule.dynamicDst = true) (target : Bytes) :
    (factory.dynamicSenders[target]?).map Publisher.key =
      if Reaches me rule target then some (topicDirectedKey me.hostname target rule.wireName)
      else none := by
  unfold sendEntry at h
  split at h
  · rcases bind_eq_ok.mp h with ⟨topic, hcfg, h⟩
    rcases bind_eq_ok.mp hcfg with ⟨rawName, _, hcfg⟩
    rcases bind_eq_ok.mp h with ⟨made, hmade, h⟩
    cases hcfg
    cases h
    rw [getElem?_dynamicSenders (ofFactory_eq_ok hmade) hdynamic]
    dsimp only
    rw [hhost]
    by_cases hreach : Reaches me rule target
    · rw [if_pos hreach, if_pos (show _ ∧ _ from hreach)]
      rfl
    · rw [if_neg hreach, if_neg (show ¬(_ ∧ _) from hreach)]
      rfl
  · cases h

/-- A registered type with `to_drone_ids` makes a rule dynamic. -/
theorem dynamicDst_of_hasToDroneIds {hostMap : Inventory} {rule : TopicCfg}
    (hrule : RuleOf msgs hostMap rule) (h : hasToDroneIds msgs rule.type = true) :
    rule.dynamicDst = true := by
  rw [hrule.dynamicDst, List.any_eq_true]
  unfold hasToDroneIds at h
  cases hfind : msgs.find? fun m ↦ m.name = rule.type with
  | none => simp [hfind] at h
  | some m =>
    have hname := List.find?_some hfind
    rw [hfind] at h
    refine ⟨m, List.mem_of_find?_eq_some hfind, ?_⟩
    simpa [hname] using h

end

private theorem directedKeys_eq {factory : TopicFactory} {me : Identity} {rule : TopicCfg}
    (h : ∀ target : Bytes, (factory.dynamicSenders[target]?).map Publisher.key =
      if Reaches me rule target then some (topicDirectedKey me.hostname target rule.wireName)
      else none) (ids : List UInt8) :
    Sender.directedKeys factory ids =
        (ids.filter fun id ↦ Reaches me rule (droneHost id)).map
          (fun id ↦ topicDirectedKey me.hostname (droneHost id) rule.wireName) ∧
      Sender.unconfigured factory ids =
        ids.countP fun id ↦ ¬ Reaches me rule (droneHost id) := by
  unfold Sender.directedKeys Sender.unconfigured
  simp only [h]
  constructor
  · induction ids with
    | nil => rfl
    | cons id ids ih =>
      by_cases hreach : Reaches me rule (droneHost id) <;> simp [hreach, ih]
  · apply List.countP_congr
    intro id _
    have hid := h (droneHost id)
    by_cases hreach : Reaches me rule (droneHost id)
    · rw [if_pos hreach, Option.map_eq_some_iff] at hid
      rcases hid with ⟨publisher, hpublisher, -⟩
      simp [hreach, hpublisher]
    · rw [if_neg hreach, Option.map_eq_none_iff] at hid
      simp [hreach, hid]

/-- The sender that a bridge keeps for a topic with `to_drone_ids` publishes a message once for
each entry that names a host it reaches, on that host's key, and counts the others as drops. -/
theorem directed_delivery {platform : Platform} {msgs : List MessageType} {params : Parameters}
    {hostname droneId : Option Bytes} {bridge : BridgeFactory}
    (hb : constructBridge platform msgs params hostname droneId = .ok bridge) {name : Bytes}
    {rule : TopicCfg} (hlast : lastSending bridge.topicCfgs bridge.me name = some rule)
    (hids : hasToDroneIds msgs rule.type = true) :
    (∀ id id', topicDirectedKey bridge.me.hostname (droneHost id) rule.wireName =
      topicDirectedKey bridge.me.hostname (droneHost id') rule.wireName → id = id') ∧
    ∃ factory, bridge.sendTopics[name]? = some factory ∧
      ∀ (s : Sender) (c : Callback) (payload : Bytes), s.factory = factory →
        (s.sendFreqControl c.now).1 = false → c.message.encoded = some payload →
        (c.envelope msgs factory.topicCfg (s.sequence + 1) payload).Fits →
        (∀ i, c.puts i = true) →
        Sender.Delivers (c.envelope msgs factory.topicCfg (s.sequence + 1) payload)
          ((c.message.toDroneIds.filter fun id ↦ Reaches bridge.me rule (droneHost id)).map
            fun id ↦ topicDirectedKey bridge.me.hostname (droneHost id) rule.wireName)
          (c.message.toDroneIds.countP fun id ↦ ¬ Reaches bridge.me rule (droneHost id))
          s (s.subCallback msgs c) := by
  rcases constructBridge_eq_ok hb with ⟨_, rules, hrules, hcfgs, hsend, -⟩
  rcases entry_of_lastSending (entry_of_assigns hsend) hlast with ⟨factory, hassigned, hentry⟩
  have hmem := mem_of_lastSending hlast
  rw [hcfgs] at hmem
  rcases List.mem_map.mp hmem with ⟨shared, hshared, rfl⟩
  have hdynamic := dynamicDst_of_hasToDroneIds (topicRules_eq_ok hrules shared hshared) hids
  have hpublishers := getElem?_dynamicSenders_of_sendEntry hentry rfl hdynamic
  have htype : factory.topicCfg.type = shared.type := by
    rcases sendEntry_eq_ok hentry with ⟨_, made, he, hsender⟩ | ⟨_, hnone⟩
    · cases he
      exact hsender.type
    · cases hnone
  refine ⟨?_, factory, ?_, ?_⟩
  · intro id id' hkey
    apply droneHost_inj
    unfold topicDirectedKey at hkey
    simpa [List.append_assoc] using hkey
  · rw [getElem?_of_assigns hsend, hassigned]
    rfl
  · rintro s c payload rfl hpasses hencoded hfits hputs
    have hids : hasToDroneIds msgs s.factory.topicCfg.type = true := by
      rw [htype]
      exact hids
    have hdelivers := Sender.delivers_subCallback hids hpasses hencoded hfits hputs
    rcases directedKeys_eq hpublishers c.message.toDroneIds with ⟨hkeys, hdrops⟩
    rwa [hkeys, hdrops] at hdelivers

/-! ## A repeated identifier -/

/-- A message type with `to_drone_ids`. -/
def goalMessages : List MessageType :=
  [⟨ascii "swarm_msgs/Goal", ascii "0d91f2a3c8b74e5f96a1b2c3d4e5f607", true⟩]

/-- Some hosts may send goals to all drones. -/
def goalParamsFrom (sources : List String) : Parameters where
  hosts := some (.array [.string (ascii "drone1"), .string (ascii "drone2"),
    .string (ascii "groundStation0")])
  topics := some (.array [.struct [
    (ascii "topic_name", .string (ascii "/goal")),
    (ascii "msg_type", .string (ascii "swarm_msgs/Goal")),
    (ascii "qos_class", .string (ascii "command")),
    (ascii "srcIP", .array (sources.map fun source ↦ .string (ascii source))),
    (ascii "dstIP", .array [.string (ascii "all_drone")])]])

/-- The ground station may send goals to all drones. -/
def goalParams : Parameters := goalParamsFrom ["groundStation0"]

/-- What the constructor makes of these parameters on the ground station. -/
def goalResult : Accepted BridgeFactory :=
  constructBridge documentedPlatform goalMessages goalParams (some (ascii "groundStation0")) none

private theorem goalResult_isOk : goalResult.isOk = true := by decide +kernel

private theorem goalSender_isSome :
    ((accepted goalResult).sendTopics[ascii "/goal"]?).isSome = true := by decide +kernel

/-- The ground station's sender of goals. -/
def goalSender : TopicFactory :=
  ((accepted goalResult).sendTopics[ascii "/goal"]?).get goalSender_isSome

private theorem getElem?_goalSender :
    (accepted goalResult).sendTopics[ascii "/goal"]? = some goalSender :=
  (Option.some_get goalSender_isSome).symm

/-- A goal for `drone1`, which is named twice, and for `drone9`, which does not exist. -/
def goalCallback : Callback where
  message := { encoded := some [1], toDroneIds := [1, 9, 1] }

private theorem goalSender_config : goalSender.topicCfg.type = ascii "swarm_msgs/Goal" ∧
    goalSender.topicCfg.myHostname = ascii "groundStation0" := by
  decide +kernel

private theorem goalCallback_fits (sequence : UInt64) :
    (goalCallback.envelope goalMessages goalSender.topicCfg sequence [1]).Fits := by
  have henvelope : goalCallback.envelope goalMessages goalSender.topicCfg sequence [1] =
    buildEnvelope goalMessages goalSender.topicCfg sequence (rosTimeToNs {}) 0 [] [1] := rfl
  rw [henvelope]
  unfold buildEnvelope
  rw [goalSender_config.1, goalSender_config.2]
  constructor <;> dsimp only <;> decide

private theorem goalRule_isSome : (lastSending (accepted goalResult).topicCfgs
    (accepted goalResult).me (ascii "/goal")).isSome = true := by decide +kernel

/-- The rule of that sender. -/
def goalRule : TopicCfg := (lastSending (accepted goalResult).topicCfgs
  (accepted goalResult).me (ascii "/goal")).get goalRule_isSome

/-- The goal is published for `drone1` and dropped for `drone9`, entry by entry. -/
theorem directed_delivery_goal :
    Sender.Delivers (goalCallback.envelope goalMessages goalSender.topicCfg 1 [1])
      [topicDirectedKey (ascii "groundStation0") (ascii "drone1") (ascii "/goal"),
        topicDirectedKey (ascii "groundStation0") (ascii "drone1") (ascii "/goal")] 1
      (Sender.start goalSender)
      ((Sender.start goalSender).subCallback goalMessages goalCallback) := by
  have hrule : lastSending (accepted goalResult).topicCfgs (accepted goalResult).me
      (ascii "/goal") = some goalRule := (Option.some_get goalRule_isSome).symm
  obtain ⟨hids, hkeys, hdrops⟩ : hasToDroneIds goalMessages goalRule.type = true ∧
      ((goalCallback.message.toDroneIds.filter fun id ↦
        Reaches (accepted goalResult).me goalRule (droneHost id)).map fun id ↦
          topicDirectedKey (accepted goalResult).me.hostname (droneHost id) goalRule.wireName) =
        [topicDirectedKey (ascii "groundStation0") (ascii "drone1") (ascii "/goal"),
          topicDirectedKey (ascii "groundStation0") (ascii "drone1") (ascii "/goal")] ∧
      (goalCallback.message.toDroneIds.countP fun id ↦
        ¬ Reaches (accepted goalResult).me goalRule (droneHost id)) = 1 := by
    decide +kernel
  have hok : constructBridge documentedPlatform goalMessages goalParams
      (some (ascii "groundStation0")) none = .ok (accepted goalResult) :=
    eq_ok_accepted goalResult_isOk
  rcases (directed_delivery hok hrule hids).2 with ⟨factory, hfactory, hdelivers⟩
  have hsender : goalSender = factory :=
    Option.some.inj (getElem?_goalSender.symm.trans hfactory)
  have hgoal := hdelivers (.start goalSender) goalCallback [1] hsender
    (by rw [goalCallback, Sender.sendFreqControl_zero rfl]) rfl
    (by rw [← hsender]; exact goalCallback_fits _) fun _ ↦ rfl
  rw [hkeys, hdrops, ← hsender] at hgoal
  exact hgoal

/-- One identifier that occurs twice in a message is published twice. -/
theorem repeated_identifier_published_twice :
    goalResult = .ok (accepted goalResult) ∧
      (accepted goalResult).sendTopics[ascii "/goal"]? = some goalSender ∧
      goalCallback.message.toDroneIds = [1, 9, 1] ∧ (∀ i, goalCallback.puts i = true) ∧
      ((Sender.start goalSender).subCallback goalMessages goalCallback).publications.map
          Prod.fst =
        [topicDirectedKey (ascii "groundStation0") (ascii "drone1") (ascii "/goal"),
          topicDirectedKey (ascii "groundStation0") (ascii "drone1") (ascii "/goal")] := by
  have hids : hasToDroneIds goalMessages goalSender.topicCfg.type = true := by
    rw [goalSender_config.1]
    decide
  have hpasses : ((Sender.start goalSender).sendFreqControl goalCallback.now).1 = false := by
    rw [goalCallback, Sender.sendFreqControl_zero rfl]
  have hkeys : Sender.directedKeys goalSender goalCallback.message.toDroneIds =
      [topicDirectedKey (ascii "groundStation0") (ascii "drone1") (ascii "/goal"),
        topicDirectedKey (ascii "groundStation0") (ascii "drone1") (ascii "/goal")] := by
    decide +kernel
  have hdelivers := Sender.delivers_subCallback (s := .start goalSender) hids hpasses rfl
    (goalCallback_fits _) fun _ ↦ rfl
  refine ⟨eq_ok_accepted goalResult_isOk, getElem?_goalSender, rfl, fun _ ↦ rfl, ?_⟩
  rw [hdelivers.publications, List.map_append, List.map_map]
  simpa [Function.comp_def, Sender.start, Sender.publications] using hkeys

end NetBridge.Bridge
