import NetBridge.Bridge.Fleet
import NetBridge.Bridge.Receivers

/-!
# Topic routing

What the bridges of all hosts hold after they have been constructed from the same parameters.
Receivers of different rules never share a name, but the sender of a rule is replaced by that of
a later rule with the same topic name, whatever its type and compression.
-/

namespace NetBridge.Bridge

open NetBridge.Base NetBridge.Transport NetBridge.Topic

/-! ## Senders -/

section

variable {platform : Platform} {msgs : List MessageType} {params : Parameters} {me : Identity}

/-- The sender of a rule: the name of its subscription is the expanded topic name, and its key
and its envelopes are those of the rule. -/
structure SenderOf (params : Parameters) (me : Identity) (rule : TopicCfg)
    (factory : TopicFactory) : Prop where
  sub : factory.sub = some (sendName me rule.name)
  transport : factory.transport = transportForTopic params rule.type
  sender : factory.sender = if rule.dynamicDst then none
    else some ⟨transportForTopic params rule.type, topicFanoutKey me.hostname rule.wireName,
      rule.qosClass⟩
  type : factory.topicCfg.type = rule.type
  cloudCompress : factory.topicCfg.cloudCompress = rule.cloudCompress
  myHostname : factory.topicCfg.myHostname = rule.myHostname

/-- A rule whose source is the own host has an entry under its expanded topic name, and no other
rule has one. -/
theorem sendEntry_eq_ok {rule : TopicCfg} {e : Option (Bytes × TopicFactory)}
    (h : sendEntry platform msgs params me rule = .ok e) :
    (rule.srcHostnameMap[me.hostname]? = some true ∧ ∃ factory,
      e = some (sendName me rule.name, factory) ∧ SenderOf params me rule factory) ∨
    (rule.srcHostnameMap[me.hostname]? ≠ some true ∧ e = none) := by
  unfold sendEntry at h
  split at h
  · next hsel =>
    apply Or.inl
    obtain ⟨topic, hcfg, h⟩ := bind_eq_ok.mp h
    obtain ⟨rawName, _, hcfg⟩ := bind_eq_ok.mp hcfg
    obtain ⟨factory, hmade, h⟩ := bind_eq_ok.mp h
    obtain ⟨hc, ht, hs, hp⟩ := makeSender_eq_ok (ofFactory_eq_ok hmade)
    cases hcfg
    cases h
    refine ⟨hsel, factory, rfl, hs, ht, hp, ?_, ?_, ?_⟩
    · rw [hc]
    · rw [hc]
    · rw [hc]
  · next hsel =>
    cases h
    exact Or.inr ⟨hsel, rfl⟩

/-- The last rule that sends a topic on a host. -/
def lastSending (rules : List TopicCfg) (me : Identity) (name : Bytes) : Option TopicCfg :=
  rules.reverse.find? fun rule ↦
    rule.srcHostnameMap[me.hostname]? = some true && sendName me rule.name = name

/-- The last rule that sends a topic is one of the rules. -/
theorem mem_of_lastSending {rules : List TopicCfg} {name : Bytes} {last : TopicCfg}
    (h : lastSending rules me name = some last) : last ∈ rules :=
  List.mem_reverse.mp (List.mem_of_find?_eq_some h)

/-- The topic of a rule that sends it has a last rule. -/
theorem exists_lastSending {rules : List TopicCfg} {rule : TopicCfg} (hm : rule ∈ rules)
    (hsel : rule.srcHostnameMap[me.hostname]? = some true) :
    ∃ last, lastSending rules me (sendName me rule.name) = some last := by
  obtain ⟨last, -, -, hlast⟩ := exists_find?_reverse (p := fun other ↦
    other.srcHostnameMap[me.hostname]? = some true &&
      sendName me other.name = sendName me rule.name) hm
    (by simp only [hsel, decide_true, Bool.and_self])
  exact ⟨last, hlast⟩

/-- The last rule that sends a topic is the last one with an entry under its name. -/
theorem entry_of_lastSending {rules : List TopicCfg}
    (hok : ∀ rule ∈ rules, ∃ e, sendEntry platform msgs params me rule = .ok e)
    {name : Bytes} {last : TopicCfg} (h : lastSending rules me name = some last) :
    ∃ factory, lastAssigned (sendEntry platform msgs params me) name rules = some factory ∧
      sendEntry platform msgs params me last = .ok (some (name, factory)) := by
  apply lastAssigned_of_find? _ h
  intro rule hm
  rw [Bool.and_eq_true, decide_eq_true_eq, decide_eq_true_eq]
  constructor
  · rintro ⟨hsel, hname⟩
    rcases hok rule hm with ⟨e, he⟩
    rcases sendEntry_eq_ok he with ⟨_, factory, hf, -⟩ | ⟨hn, -⟩
    · rw [hf, hname] at he
      exact ⟨factory, he⟩
    · exact absurd hsel hn
  · rintro ⟨factory, he⟩
    rcases sendEntry_eq_ok he with ⟨hsel, _, hf, -⟩ | ⟨_, hn⟩
    · exact ⟨hsel, (Prod.mk.inj (Option.some.inj hf)).1.symm⟩
    · cases hn

/-- After the first loop a topic has the sender of the last rule that sends it. -/
theorem sender_of_lastSending {rules : List TopicCfg}
    (hok : ∀ rule ∈ rules, ∃ e, sendEntry platform msgs params me rule = .ok e)
    {name : Bytes} {last : TopicCfg} (h : lastSending rules me name = some last) :
    ∃ factory, lastAssigned (sendEntry platform msgs params me) name rules = some factory ∧
      SenderOf params me last factory := by
  rcases entry_of_lastSending hok h with ⟨factory, hassigned, he⟩
  rcases sendEntry_eq_ok he with ⟨_, factory', hf, hs⟩ | ⟨_, hn⟩
  · cases hf
    exact ⟨factory, hassigned, hs⟩
  · cases hn

end

/-! ## All hosts together -/

namespace Fleet

variable {msgs : List MessageType} {params : Parameters} (fleet : Fleet msgs params)

/-- A rule has a live sender on `s` and a receiver made for it and `s` on `d`, on the same key
and session, and the receiver admits every envelope that the sender builds. -/
structure Routes (rule : TopicCfg) (s d : Bytes) (sender receiver : TopicFactory) : Prop where
  sends : (fleet.bridge s).sendTopics[sendName (fleet.bridge s).me rule.name]? = some sender
  receives : ∃ name : Bytes, (fleet.bridge d).recvTopics[name]? = some receiver
  created : recvCfg (fleet.platform d) params (fleet.bridge d).me (onHost d rule) s =
    .ok receiver.topicCfg
  live : ∃ publisher, sender.sender = some publisher ∧
    publisher.key = receiver.subscribeKey ∧ publisher.session = receiver.transport
  admitted : ∀ sequence sourceTimeNs sourceHeaderSequence frameId payload,
    admits msgs receiver.topicCfg (buildEnvelope msgs sender.topicCfg sequence sourceTimeNs
      sourceHeaderSequence frameId payload) = true

/-- `s` and `d` are different hosts that a fixed-route rule connects. -/
structure Connects (rule : TopicCfg) (s d : Bytes) : Prop where
  mem : rule ∈ fleet.rules
  fixed : rule.dynamicDst = false
  src : rule.srcHostnameMap[s]? = some true
  dst : rule.dstHostnameMap[d]? = some true
  distinct : d ≠ s

/-- Every fixed-route rule routes between all hosts that it connects. -/
def RoutingComplete : Prop :=
  ∀ rule s d, fleet.Connects rule s d → ∃ sender receiver, fleet.Routes rule s d sender receiver

/-- Where rules send the same topic from one host, the last of them agrees with each of them in
type, payload kind and wire name. -/
def SendersAgree : Prop :=
  ∀ rule s d, fleet.Connects rule s d → ∀ last,
    lastSending fleet.rules (fleet.bridge s).me
      (sendName (fleet.bridge s).me rule.name) = some last →
    last.type = rule.type ∧ expectedPayloadKind last = expectedPayloadKind rule ∧
      normalizeRosName last.wireName = normalizeRosName rule.wireName

variable {fleet}

/-- The last sender among the rules of a host is that of the shared rules. -/
theorem lastSending_onHost (rules : List TopicCfg) (host : Bytes) (me : Identity)
    (name : Bytes) : lastSending (rules.map (onHost host)) me name =
      (lastSending rules me name).map (onHost host) := by
  unfold lastSending
  rw [← List.map_reverse, List.find?_map]
  rfl

private theorem exists_sender {rule : TopicCfg} {s d : Bytes} (h : fleet.Connects rule s d) :
    ∃ last sender,
      lastSending fleet.rules (fleet.bridge s).me
        (sendName (fleet.bridge s).me rule.name) = some last ∧
      (fleet.bridge s).sendTopics[sendName (fleet.bridge s).me rule.name]? = some sender ∧
      SenderOf params (fleet.bridge s).me (onHost s last) sender := by
  have hs : s ∈ fleet.hostMap :=
    ((topicRules_eq_ok fleet.parsed rule h.mem).src s).mp (mem_of_selected h.src)
  obtain ⟨hname, -, hsend, -⟩ := bridge_spec hs
  obtain ⟨last, hlast⟩ := exists_lastSending h.mem (hname.symm ▸ h.src)
  have hmapped := lastSending_onHost fleet.rules s (fleet.bridge s).me
    (sendName (fleet.bridge s).me rule.name)
  rw [hlast] at hmapped
  obtain ⟨sender, hassigned, hsender⟩ := sender_of_lastSending (entry_of_assigns hsend) hmapped
  refine ⟨last, sender, hlast, ?_, hsender⟩
  rw [getElem?_of_assigns hsend, hassigned]
  rfl

private theorem exists_receiver {rule : TopicCfg} {s d : Bytes} (h : fleet.Connects rule s d) :
    ∃ (name : Bytes) (receiver : TopicFactory),
      (fleet.bridge d).recvTopics[name]? = some receiver ∧
      ReceiverOf (fleet.platform d) params (fleet.bridge d).me (onHost d rule) s receiver := by
  have hrule := topicRules_eq_ok fleet.parsed rule h.mem
  have hs : s ∈ fleet.hostMap := (hrule.src s).mp (mem_of_selected h.src)
  have hd : d ∈ fleet.hostMap := (hrule.dst d).mp (mem_of_selected h.dst)
  obtain ⟨hname, -, -, hrecv⟩ := bridge_spec hd
  apply receiver_of_rule hrecv (List.mem_map.mpr ⟨rule, h.mem, rfl⟩) h.fixed
  · rw [hname]
    exact h.dst
  · exact Std.ExtTreeMap.mem_keys.mpr hs
  · rw [hname]
    exact h.distinct.symm
  · exact h.src

private theorem hostname_eq {rule : TopicCfg} {s d : Bytes} (h : fleet.Connects rule s d) :
    (fleet.bridge s).me.hostname = s := by
  have hs : s ∈ fleet.hostMap :=
    ((topicRules_eq_ok fleet.parsed rule h.mem).src s).mp (mem_of_selected h.src)
  exact (bridge_spec hs).1

private theorem subscribeKey_eq {rule : TopicCfg} {s d : Bytes} (h : fleet.Connects rule s d)
    {receiver : TopicFactory}
    (hcfg : recvCfg (fleet.platform d) params (fleet.bridge d).me (onHost d rule) s =
      .ok receiver.topicCfg) : receiver.subscribeKey = topicFanoutKey s rule.wireName := by
  obtain ⟨hwire, -, hsrc, -, -, hdynamic⟩ := recvCfg_eq_ok hcfg
  have hfixed : receiver.topicCfg.dynamicDst = false := hdynamic.trans h.fixed
  unfold TopicFactory.subscribeKey
  dsimp only
  rw [hfixed, if_neg Bool.false_ne_true, hsrc, hwire]
  rfl

private theorem admits_iff {rule last : TopicCfg} {s d : Bytes} (h : fleet.Connects rule s d)
    {sender receiver : TopicFactory}
    (hsender : SenderOf params (fleet.bridge s).me (onHost s last) sender)
    (hcfg : recvCfg (fleet.platform d) params (fleet.bridge d).me (onHost d rule) s =
      .ok receiver.topicCfg)
    (sequence : UInt64) (sourceTimeNs : Int64) (sourceHeaderSequence : UInt32)
    (frameId payload : Bytes) :
    admits msgs receiver.topicCfg (buildEnvelope msgs sender.topicCfg sequence sourceTimeNs
        sourceHeaderSequence frameId payload) = true ↔
      last.type = rule.type ∧ expectedPayloadKind last = expectedPayloadKind rule := by
  obtain ⟨-, htype, hsrc, hsrcMap, hcompress, -⟩ := recvCfg_eq_ok hcfg
  -- `onHost` leaves the types and the selections alone.
  have htype : receiver.topicCfg.type = rule.type := htype
  have hsrcMap : receiver.topicCfg.srcHostnameMap = rule.srcHostnameMap := hsrcMap
  have hstype : sender.topicCfg.type = last.type := hsender.type
  have hhost : sender.topicCfg.myHostname = s := hsender.myHostname
  have hexpected : expectedPayloadKind receiver.topicCfg = expectedPayloadKind rule := by
    unfold expectedPayloadKind
    rw [htype, hcompress]
    rfl
  have hbuilt : builtPayloadKind sender.topicCfg = expectedPayloadKind last := by
    rw [builtPayloadKind_eq]
    unfold expectedPayloadKind
    rw [hstype, hsender.cloudCompress]
    rfl
  simp only [admits, buildEnvelope, Bool.and_eq_true, decide_eq_true_eq,
    validateEnvelopeMetadata_iff, hbuilt, hexpected, hstype, htype, hhost, hsrc, hsrcMap,
    h.src, decide_true, Bool.or_true, and_true, true_and]
  constructor
  · intro ha
    exact ⟨ha.2.1, ha.1⟩
  · intro ha
    refine ⟨ha.2, ha.1, ?_⟩
    rw [ha.1]

/-- Complete routing needs agreeing senders. -/
theorem agree_of_complete (h : fleet.RoutingComplete) : fleet.SendersAgree := by
  intro rule s d hc last hlast
  obtain ⟨sender, receiver, hr⟩ := h rule s d hc
  obtain ⟨last', sender', hlast', hsends, hsender⟩ := exists_sender hc
  rw [hlast] at hlast'
  cases hlast'
  rw [hr.sends] at hsends
  cases hsends
  obtain ⟨htype, hkind⟩ := (admits_iff hc hsender hr.created 0 0 0 [] []).mp
    (hr.admitted 0 0 0 [] [])
  refine ⟨htype, hkind, ?_⟩
  obtain ⟨publisher, hp, hkey, -⟩ := hr.live
  rw [hsender.sender] at hp
  split at hp
  · cases hp
  · cases hp
    rw [subscribeKey_eq hc hr.created, hostname_eq hc] at hkey
    exact topicFanoutKey_inj.mp hkey

/-- Agreeing senders make the routing complete. -/
theorem complete_of_agree (h : fleet.SendersAgree) : fleet.RoutingComplete := by
  intro rule s d hc
  obtain ⟨last, sender, hlast, hsends, hsender⟩ := exists_sender hc
  obtain ⟨name, receiver, hreceives, hreceiver⟩ := exists_receiver hc
  obtain ⟨htype, hkind, hwires⟩ := h rule s d hc last hlast
  have hrule := topicRules_eq_ok fleet.parsed rule hc.mem
  have hlastRule := topicRules_eq_ok fleet.parsed last (mem_of_lastSending hlast)
  have hfixed : (onHost s last).dynamicDst = false := by
    show last.dynamicDst = false
    rw [hlastRule.dynamicDst, htype, ← hrule.dynamicDst]
    exact hc.fixed
  have hlive := hsender.sender
  rw [hfixed, if_neg Bool.false_ne_true] at hlive
  refine ⟨sender, receiver, hsends, ⟨name, hreceives⟩, hreceiver.created, ⟨_, hlive, ?_, ?_⟩, ?_⟩
  · rw [subscribeKey_eq hc hreceiver.created, hostname_eq hc]
    exact topicFanoutKey_inj.mpr hwires
  · rw [hreceiver.transport]
    show transportForTopic params last.type = transportForTopic params rule.type
    rw [htype]
  · intro sequence sourceTimeNs sourceHeaderSequence frameId payload
    exact (admits_iff hc hsender hreceiver.created _ _ _ _ _).mpr ⟨htype, hkind⟩

/-- The routing of a configuration is complete exactly when its senders agree. -/
theorem routing_complete_iff (fleet : Fleet msgs params) :
    fleet.RoutingComplete ↔ fleet.SendersAgree := by
  constructor
  · exact agree_of_complete
  · exact complete_of_agree

/-! ### Two rules for one topic -/

/-- `sensor_msgs/PointCloud2` with its `MD5Sum`. -/
def cloudMessages : List MessageType :=
  [⟨pointCloudType, ascii "1158d486dd51d683ce2f1be655c3c181", false⟩]

/-- An entry that routes `/lidar` from `drone1` to a host. -/
def lidarEntry (destination : String) (settings : Members) : XmlRpcValue := .struct ([
  (ascii "topic_name", .string (ascii "/lidar")),
  (ascii "msg_type", .string pointCloudType),
  (ascii "qos_class", .string (ascii "bulk")),
  (ascii "srcIP", .array [.string (ascii "drone1")]),
  (ascii "dstIP", .array [.string (ascii destination)])] ++ settings)

/-- `/lidar` goes to the ground station compressed, and to the other drone as it is. -/
def lidarParams : Parameters where
  hosts := some (.array [.string (ascii "drone1"), .string (ascii "drone2"),
    .string (ascii "groundStation0")])
  topics := some (.array [
    lidarEntry "groundStation0" [(ascii "cloudCompress", .boolean true),
      (ascii "cloudCodec", .string (ascii "draco"))],
    lidarEntry "drone2" []])

/-- Every host starts with these parameters. -/
theorem lidar_starts : starts documentedPlatform cloudMessages lidarParams = true := by
  decide +kernel

/-- The bridges of the three hosts. -/
def lidarFleet : Fleet cloudMessages lidarParams :=
  ofStarts documentedPlatform cloudMessages lidarParams lidar_starts

private theorem lidar_rules_ne_nil : lidarFleet.rules ≠ [] := by
  apply List.ne_nil_of_length_pos
  decide +kernel

/-- The rule for the ground station. -/
def lidarRule : TopicCfg := lidarFleet.rules.head lidar_rules_ne_nil

private theorem lidar_connects :
    lidarFleet.Connects lidarRule (ascii "drone1") (ascii "groundStation0") := by
  obtain ⟨hfixed, hsrc, hdst⟩ : lidarRule.dynamicDst = false ∧
      lidarRule.srcHostnameMap[ascii "drone1"]? = some true ∧
      lidarRule.dstHostnameMap[ascii "groundStation0"]? = some true := by
    decide +kernel
  exact ⟨List.head_mem lidar_rules_ne_nil, hfixed, hsrc, hdst, by decide⟩

/-- The drone's only sender is the uncompressed one, whose envelopes the ground station drops. -/
theorem routing_loses_sender : ¬ lidarFleet.RoutingComplete := by
  intro h
  obtain ⟨hsent, hexpected⟩ :
      (lastSending lidarFleet.rules (lidarFleet.bridge (ascii "drone1")).me
        (sendName (lidarFleet.bridge (ascii "drone1")).me lidarRule.name)).map
          expectedPayloadKind = some .rosSerialized ∧
      expectedPayloadKind lidarRule = .pointCloudCompressed := by
    decide +kernel
  obtain ⟨last, hlast, hkind⟩ := Option.map_eq_some_iff.mp hsent
  have hagree := (agree_of_complete h _ _ _ lidar_connects last hlast).2.1
  rw [hkind, hexpected] at hagree
  cases hagree

end Fleet

end NetBridge.Bridge
