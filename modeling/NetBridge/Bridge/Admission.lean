import NetBridge.Bridge.Forwarding
import NetBridge.Topic.Intake
import NetBridge.Transport.KeySpace

/-!
# Admission of topics

What a host publishes for a rule, whatever arrives. The subscription callback decodes
(`src/swarm_ros_bridge/src/transport/zenoh_transport.cpp:404–428`), `enqueueEnvelope` checks
(`src/topic_factory.cpp:433–491`), and the duplicate test of `topicOperatorInit` keeps the names of
receivers apart (`src/bridge_factory.cpp:585–626`), as they are written: ROS resolves them only
when they are advertised.
-/

namespace NetBridge.Bridge

open NetBridge.Base NetBridge.Transport NetBridge.Topic

/-- ROS as documented also resolves each name that it advertises. -/
structure ResolvesAdvertised (platform : Platform) : Prop where
  documented : Documented platform
  advertises : ∀ {name type : Bytes}, platform.advertises name type = true →
    ∃ topic, platform.resolveName name = some topic

/-- The pairs of a rule and a source that a host has receivers for. -/
def BridgeFactory.pairs (params : Parameters) (bridge : BridgeFactory) :
    List (TopicCfg × Bytes) :=
  receivedPairs params bridge.me bridge.hostMap.keys bridge.topicCfgs

/-- The ROS topic that the receiver of a pair publishes. -/
def ReceiveTopic (platform : Platform) (me : Identity) (pair : TopicCfg × Bytes)
    (topic : Bytes) : Prop :=
  ∃ name, recvName me pair.1 pair.2 = .ok name ∧ platform.resolveName name = some topic

/-- The receiver under a name publishes a ROS topic. -/
def PublishesOn (platform : Platform) (bridge : BridgeFactory) (name topic : Bytes) : Prop :=
  ∃ factory advertised, bridge.recvTopics[name]? = some factory ∧
    factory.pub = some advertised ∧ platform.resolveName advertised = some topic

/-- An envelope whose message may be published for a rule and a source. -/
structure MayPublish (msgs : List MessageType) (me : Identity) (rule : TopicCfg) (source : Bytes)
    (s : Intake) (envelope : TransportEnvelope) : Prop where
  decoded : ∃ name bytes, (name, bytes) ∈ s.samples ∧ Intake.decode bytes = some envelope
  sourceHost : envelope.sourceHost = source
  src : rule.srcHostnameMap[source]? = some true
  dst : rule.dstHostnameMap[me.hostname]? = some true
  rosType : envelope.rosType = rule.type
  rosMd5 : envelope.rosMd5 = rosTypeMd5 msgs rule.type
  payloadKind : envelope.payloadKind = expectedPayloadKind rule

/-- Whatever arrives, a host publishes on the topic of a fixed-route rule and a source only what
may be published for them, and no two pairs share a topic. -/
structure AdmissionSound (platform : Platform) (msgs : List MessageType) (params : Parameters)
    (bridge : BridgeFactory) : Prop where
  publications : ∀ s, (intake msgs bridge.recvTopics).Reachable s → ∀ pair ∈ bridge.pairs params,
    pair.1.dynamicDst = false → ∀ topic, ReceiveTopic platform bridge.me pair topic →
      ∀ name envelope, (name, envelope) ∈ s.publications →
        PublishesOn platform bridge name topic →
          MayPublish msgs bridge.me pair.1 pair.2 s envelope
  apart : (bridge.pairs params).Pairwise fun pair pair' ↦
    ∀ topic, ReceiveTopic platform bridge.me pair topic →
      ¬ ReceiveTopic platform bridge.me pair' topic

/-- No two names of receivers differ in redundant slashes only. -/
def NamesNormal (params : Parameters) (bridge : BridgeFactory) : Prop :=
  ∀ pair ∈ bridge.pairs params, ∀ pair' ∈ bridge.pairs params, ∀ name name',
    recvName bridge.me pair.1 pair.2 = .ok name → recvName bridge.me pair'.1 pair'.2 = .ok name' →
    normalizeRosName name = normalizeRosName name' → name = name'

section

variable {platform : Platform} {msgs : List MessageType} {params : Parameters}
  {hostname droneId : Option Bytes} {bridge : BridgeFactory}

/-- The receivers of a bridge are those of its pairs. -/
theorem filled_of_construct
    (hb : constructBridge platform msgs params hostname droneId = .ok bridge) :
    Filled (ReceiverEntry platform params bridge.me) (bridge.pairs params) bridge.recvTopics := by
  rcases constructBridge_eq_ok hb with ⟨_, _, _, _, _, hrecv⟩
  exact receivers_filled hrecv

/-- Names of receivers are global. -/
theorem recvName_isGlobal
    (hb : constructBridge platform msgs params hostname droneId = .ok bridge)
    {pair : TopicCfg × Bytes} (hpair : pair ∈ bridge.pairs params) {name : Bytes}
    (hname : recvName bridge.me pair.1 pair.2 = .ok name) : name.head? = some slash := by
  rcases constructBridge_eq_ok hb with ⟨_, rules, hrules, hcfgs, _, _⟩
  have hrule := (mem_receivedPairs.mp hpair).1
  rw [hcfgs] at hrule
  rcases List.mem_map.mp hrule with ⟨shared, hshared, hpair⟩
  have hglobal : pair.1.name.head? = some slash := by
    rw [← hpair]
    exact (topicRules_eq_ok hrules shared hshared).isGlobal
  exact (segments_recvName hglobal hname).1

/-- Two names of receivers resolve alike exactly when they are normalised alike. -/
theorem resolves_alike_iff (hros : ResolvesAdvertised platform)
    (hb : constructBridge platform msgs params hostname droneId = .ok bridge)
    {pair pair' : TopicCfg × Bytes} (hpair : pair ∈ bridge.pairs params)
    (hpair' : pair' ∈ bridge.pairs params) {name name' topic topic' : Bytes}
    (hname : recvName bridge.me pair.1 pair.2 = .ok name)
    (hname' : recvName bridge.me pair'.1 pair'.2 = .ok name')
    (htopic : platform.resolveName name = some topic)
    (htopic' : platform.resolveName name' = some topic') :
    topic = topic' ↔ normalizeRosName name = normalizeRosName name' := by
  have hglobal := recvName_isGlobal hb hpair hname
  have hglobal' := recvName_isGlobal hb hpair' hname'
  rw [hros.documented.resolves hglobal htopic, hros.documented.resolves hglobal' htopic',
    cleanName_inj hglobal hglobal', normalizeRosName_inj]

/-- Pairs whose receivers have one name are one pair. -/
theorem pair_eq_of_name
    (hb : constructBridge platform msgs params hostname droneId = .ok bridge)
    {pair pair' : TopicCfg × Bytes} (hpair : pair ∈ bridge.pairs params)
    (hpair' : pair' ∈ bridge.pairs params) {name : Bytes}
    (hname : recvName bridge.me pair.1 pair.2 = .ok name)
    (hname' : recvName bridge.me pair'.1 pair'.2 = .ok name) : pair = pair' := by
  by_contra hne
  have hsymm : Std.Symm fun pair pair' ↦ ∃ name factory name' factory',
      ReceiverEntry platform params bridge.me pair name factory ∧
        ReceiverEntry platform params bridge.me pair' name' factory' ∧ name ≠ name' := by
    constructor
    rintro _ _ ⟨name, factory, name', factory', h, h', hn⟩
    exact ⟨name', factory', name, factory, h', h, hn.symm⟩
  rcases (filled_of_construct hb).apart.forall hpair hpair' hne with
    ⟨n, _, n', _, hentry, hentry', hn⟩
  apply hn
  have h := hentry.named.symm.trans hname
  have h' := hentry'.named.symm.trans hname'
  rw [Except.ok.inj h, Except.ok.inj h']

/-- The receiver of a pair has a topic. -/
theorem exists_receiveTopic (hros : ResolvesAdvertised platform)
    (hb : constructBridge platform msgs params hostname droneId = .ok bridge)
    {pair : TopicCfg × Bytes} (hpair : pair ∈ bridge.pairs params) {name : Bytes}
    (hname : recvName bridge.me pair.1 pair.2 = .ok name) :
    ∃ topic, platform.resolveName name = some topic := by
  rcases (filled_of_construct hb).complete pair hpair with ⟨n, factory, hentry, _⟩
  have hn := Except.ok.inj (hentry.named.symm.trans hname)
  rw [← hn]
  exact hros.advertises hentry.advertised

/-- Sound admission needs names that differ in more than slashes. -/
theorem namesNormal_of_sound (hros : ResolvesAdvertised platform)
    (hb : constructBridge platform msgs params hostname droneId = .ok bridge)
    (h : AdmissionSound platform msgs params bridge) : NamesNormal params bridge := by
  intro pair hpair pair' hpair' name name' hname hname' hnormal
  by_cases hpairs : pair = pair'
  · rw [hpairs] at hname
    exact Except.ok.inj (hname.symm.trans hname')
  · have hsymm : Std.Symm fun pair pair' ↦ ∀ topic,
        ReceiveTopic platform bridge.me pair topic →
          ¬ ReceiveTopic platform bridge.me pair' topic := by
      constructor
      intro _ _ hapart topic ht ht'
      exact hapart topic ht' ht
    rcases exists_receiveTopic hros hb hpair hname with ⟨topic, htopic⟩
    rcases exists_receiveTopic hros hb hpair' hname' with ⟨topic', htopic'⟩
    have hsame := (resolves_alike_iff hros hb hpair hpair' hname hname' htopic htopic').mpr hnormal
    rw [← hsame] at htopic'
    exact absurd ⟨name', hname', htopic'⟩
      (h.apart.forall hpair hpair' hpairs topic ⟨name, hname, htopic⟩)

/-- What is published on the topic of a fixed-route pair may be published for it. -/
theorem mayPublish_of_namesNormal (hros : ResolvesAdvertised platform)
    (hb : constructBridge platform msgs params hostname droneId = .ok bridge)
    (hnormal : NamesNormal params bridge) {s : Intake}
    (hs : (intake msgs bridge.recvTopics).Reachable s) {pair : TopicCfg × Bytes}
    (hpair : pair ∈ bridge.pairs params) (hfixed : pair.1.dynamicDst = false) {topic : Bytes}
    (htopic : ReceiveTopic platform bridge.me pair topic) {name : Bytes}
    {envelope : TransportEnvelope} (hpublished : (name, envelope) ∈ s.publications)
    (hon : PublishesOn platform bridge name topic) :
    MayPublish msgs bridge.me pair.1 pair.2 s envelope := by
  rcases htopic with ⟨own, hown, hresolves⟩
  rcases hon with ⟨factory, advertised, hfactory, hpub, hadvertised⟩
  rcases (filled_of_construct hb).sound name factory hfactory with ⟨other, hother, hentry⟩
  have hname : name = advertised := Option.some.inj (hentry.pub.symm.trans hpub)
  rw [← hname] at hadvertised
  -- The receiver that published has the topic of the pair, so its name, so it is the pair's own.
  have halike := (resolves_alike_iff hros hb hpair hother hown hentry.named hresolves
    hadvertised).mp rfl
  have hsame := hnormal pair hpair other hother own name hown hentry.named halike
  rw [hsame] at hown
  have hpairs := pair_eq_of_name hb hpair hother hown hentry.named
  rw [← hpairs] at hentry
  have horigin := Intake.traced_of_reachable hs name envelope (Or.inr hpublished)
  rcases horigin.admitted with ⟨factory', hfactory', hadmits⟩
  rw [hfactory] at hfactory'
  cases hfactory'
  have hadmitted := (admits_iff_admitted msgs factory.topicCfg envelope).mp hadmits
  rcases recvCfg_eq_ok hentry.receiver.created with
    ⟨_, htype, hsrc, hsrcMap, hcompress, hdynamic⟩
  rcases mem_receivedSources (mem_receivedPairs.mp hpair).2 with ⟨hdst, _, _⟩
  have hsource : envelope.sourceHost = pair.2 := by
    rcases hadmitted.source with hd | hsame
    · rw [hdynamic, hfixed] at hd
      cases hd
    · rw [hsame, hsrc]
  have hselected := hadmitted.selected
  rw [hsource, hsrcMap] at hselected
  refine ⟨⟨name, horigin.decoded⟩, hsource, hselected, hdst, ?_, ?_, ?_⟩
  · rw [hadmitted.rosType, htype]
  · rw [hadmitted.rosMd5, htype]
  · rw [hadmitted.payloadKind]
    unfold expectedPayloadKind
    rw [htype, hcompress]

/-- The admission of a host is sound exactly when no two names of its receivers differ in
redundant slashes only. -/
theorem admission_sound_iff (hros : ResolvesAdvertised platform)
    (hb : constructBridge platform msgs params hostname droneId = .ok bridge) :
    AdmissionSound platform msgs params bridge ↔ NamesNormal params bridge := by
  constructor
  · exact namesNormal_of_sound hros hb
  · intro hnormal
    constructor
    · intro s hs pair hpair hfixed topic htopic name envelope hpublished hon
      exact mayPublish_of_namesNormal hros hb hnormal hs hpair hfixed htopic hpublished hon
    · apply (filled_of_construct hb).apart.imp_of_mem
      rintro pair pair' hpair hpair' ⟨n, _, n', _, hentry, hentry', hne⟩
      rintro topic ⟨name, hname, htopic⟩ ⟨name', hname', htopic'⟩
      have halike :=
        (resolves_alike_iff hros hb hpair hpair' hname hname' htopic htopic').mp rfl
      have hsame := hnormal pair hpair pair' hpair' name name' hname hname' halike
      apply hne
      rw [Except.ok.inj (hentry.named.symm.trans hname),
        Except.ok.inj (hentry'.named.symm.trans hname'), hsame]

end

/-! ## Names that differ in a slash -/

/-- An entry that takes a topic from a drone to the ground station without a prefix. -/
def chatEntry (topic source : String) : XmlRpcValue := .struct [
  (ascii "topic_name", .string (ascii topic)),
  (ascii "msg_type", .string (ascii "std_msgs/String")),
  (ascii "qos_class", .string (ascii "command")),
  (ascii "prefix", .boolean false),
  (ascii "srcIP", .array [.string (ascii source)]),
  (ascii "dstIP", .array [.string (ascii "groundStation0")])]

/-- `/chat` comes from one drone and a second topic from another one. -/
def chatParams (second : String) : Parameters where
  hosts := some (.array [.string (ascii "drone1"), .string (ascii "drone2"),
    .string (ascii "groundStation0")])
  topics := some (.array [chatEntry "/chat" "drone1", chatEntry second "drone2"])

/-- What the constructor makes of these parameters on the ground station. -/
def chatResult (second : String) : Accepted BridgeFactory :=
  constructBridge documentedPlatform stringMessages (chatParams second)
    (some (ascii "groundStation0")) none

private theorem chatResult_eq {second : String} (h : (chatResult second).isOk = true) :
    constructBridge documentedPlatform stringMessages (chatParams second)
      (some (ascii "groundStation0")) none = .ok (accepted (chatResult second)) :=
  eq_ok_accepted h

private theorem documented_resolvesAdvertised : ResolvesAdvertised documentedPlatform :=
  ⟨documentedPlatform_documented, fun _ ↦ ⟨_, rfl⟩⟩

/-- Two topics with different names are kept apart. -/
theorem admission_sound_chat :
    AdmissionSound documentedPlatform stringMessages (chatParams "/talk")
      (accepted (chatResult "/talk")) := by
  have hok : (chatResult "/talk").isOk = true := by decide +kernel
  have hnames : ∀ pair ∈ (accepted (chatResult "/talk")).pairs (chatParams "/talk"),
      (recvName (accepted (chatResult "/talk")).me pair.1 pair.2).toOption ∈
        [some (ascii "/chat"), some (ascii "/talk")] := by
    decide +kernel
  apply (admission_sound_iff documented_resolvesAdvertised (chatResult_eq hok)).mpr
  intro pair hpair pair' hpair' name name' hname hname' hnormal
  have hmem := hnames pair hpair
  have hmem' := hnames pair' hpair'
  have htalk : normalizeRosName (ascii "/chat") ≠ normalizeRosName (ascii "/talk") := by decide
  rw [hname] at hmem
  rw [hname'] at hmem'
  simp only [Except.toOption, List.mem_cons, Option.some.injEq, List.not_mem_nil, or_false]
    at hmem hmem'
  rcases hmem with rfl | rfl
  · rcases hmem' with rfl | rfl
    · rfl
    · exact absurd hnormal htalk
  · rcases hmem' with rfl | rfl
    · exact absurd hnormal htalk.symm
    · rfl

/-- `/chat` and `/chat/` are accepted side by side and are one topic. -/
theorem chat_shares_topic :
    ¬ AdmissionSound documentedPlatform stringMessages (chatParams "/chat/")
      (accepted (chatResult "/chat/")) := by
  intro hsound
  have hok : (chatResult "/chat/").isOk = true := by decide +kernel
  have hnormal := namesNormal_of_sound documented_resolvesAdvertised (chatResult_eq hok) hsound
  have hnames : ∃ pair ∈ (accepted (chatResult "/chat/")).pairs (chatParams "/chat/"),
      ∃ pair' ∈ (accepted (chatResult "/chat/")).pairs (chatParams "/chat/"),
        recvName (accepted (chatResult "/chat/")).me pair.1 pair.2 = .ok (ascii "/chat") ∧
        recvName (accepted (chatResult "/chat/")).me pair'.1 pair'.2 = .ok (ascii "/chat/") := by
    decide +kernel
  rcases hnames with ⟨pair, hpair, pair', hpair', hname, hname'⟩
  have hsame := hnormal pair hpair pair' hpair' _ _ hname hname' (by decide)
  exact absurd hsame (by decide)

end NetBridge.Bridge
