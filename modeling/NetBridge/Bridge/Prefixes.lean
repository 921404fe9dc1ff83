import NetBridge.Bridge.DirectedDelivery
import NetBridge.Bridge.Receivers

/-!
# Source prefixes

With `prefix` and without `same_prefix` a receiver publishes below the name of a source. The name
is that of the source it was created for (`src/swarm_ros_bridge/src/bridge_factory.cpp:585–626`),
which only fixed-route receivers compare with the source of an envelope
(`src/topic_factory.cpp:458–466`).
-/

namespace NetBridge.Bridge

open NetBridge.Base NetBridge.Transport NetBridge.Topic

/-- A rule whose receivers add the prefix of the source; `bridge_factory.cpp:609–611`. -/
structure AddsSource (rule : TopicCfg) : Prop where
  hasPrefix : rule.hasPrefix = true
  samePrefix : rule.samePrefix = false

/-- A receiver that the second loop has made for a rule and a source. -/
structure Receives (platform : Platform) (params : Parameters) (bridge : BridgeFactory)
    (rule : TopicCfg) (source : Bytes) (factory : TopicFactory) : Prop where
  mem : (rule, source) ∈ receivedPairs params bridge.me bridge.hostMap.keys bridge.topicCfgs
  entry : ∃ name : Bytes, bridge.recvTopics[name]? = some factory ∧
    ReceiverEntry platform params bridge.me (rule, source) name factory

/-- Receivers with a source prefix publish below the name of the host that an envelope comes from,
so two sources are never published below one prefix. -/
structure PrefixesTruthful (platform : Platform) (msgs : List MessageType) (params : Parameters)
    (bridge : BridgeFactory) : Prop where
  tells : ∀ rule source factory, AddsSource rule →
    Receives platform params bridge rule source factory → ∀ envelope,
      admits msgs factory.topicCfg envelope = true →
      ∃ expanded, expandedName bridge.me rule source = .ok expanded ∧
        factory.pub = some (ascii "/" ++ envelope.sourceHost ++ expanded)
  apart : ∀ rule rule' source factory factory', AddsSource rule → AddsSource rule' →
    Receives platform params bridge rule source factory →
    Receives platform params bridge rule' source factory' → ∀ envelope envelope',
      admits msgs factory.topicCfg envelope = true →
      admits msgs factory'.topicCfg envelope' = true →
      envelope.sourceHost = envelope'.sourceHost

/-- A dynamic rule with a source prefix that has a receiver on this host selects one source. -/
def SingleSources (params : Parameters) (bridge : BridgeFactory) : Prop :=
  ∀ rule ∈ bridge.topicCfgs, rule.dynamicDst = true → AddsSource rule →
    rule.dstHostnameMap[bridge.me.hostname]? = some true →
    ∀ source other, isReceived params bridge.me rule source = true →
      rule.srcHostnameMap[other]? = some true → other = source

section

variable {platform : Platform} {msgs : List MessageType} {params : Parameters}
  {hostname droneId : Option Bytes} {bridge : BridgeFactory}

/-- A receiver with a source prefix publishes below the name of the source it was made for. -/
theorem pub_of_receives {rule : TopicCfg} {source : Bytes} {factory : TopicFactory}
    (hadds : AddsSource rule) (h : Receives platform params bridge rule source factory) :
    ∃ expanded, expandedName bridge.me rule source = .ok expanded ∧
      factory.pub = some (ascii "/" ++ source ++ expanded) := by
  rcases h.entry with ⟨name, _, hentry⟩
  rcases bind_eq_ok.mp hentry.named with ⟨expanded, hexpanded, hname⟩
  refine ⟨expanded, hexpanded, ?_⟩
  rw [prefixedName, if_pos ⟨hadds.hasPrefix, by rw [hadds.samePrefix]; rfl⟩] at hname
  cases hname
  exact hentry.pub

/-- Where dynamic rules select one source, an admitted envelope comes from the source that its
receiver was made for. -/
theorem sourceHost_of_single (hsingle : SingleSources params bridge) {rule : TopicCfg}
    {source : Bytes} {factory : TopicFactory} (hadds : AddsSource rule)
    (h : Receives platform params bridge rule source factory) {envelope : TransportEnvelope}
    (hadmits : admits msgs factory.topicCfg envelope = true) : envelope.sourceHost = source := by
  have hadmitted := (admits_iff_admitted msgs factory.topicCfg envelope).mp hadmits
  rcases mem_receivedPairs.mp h.mem with ⟨hrule, hsource⟩
  rcases mem_receivedSources hsource with ⟨hdst, _, hreceived⟩
  rcases h.entry with ⟨name, _, hentry⟩
  rcases recvCfg_eq_ok hentry.receiver.created with ⟨_, _, hsrc, hsrcMap, _, hdynamic⟩
  have hselected := hadmitted.selected
  rw [hsrcMap] at hselected
  rcases hadmitted.source with hd | hsame
  · rw [hdynamic] at hd
    exact hsingle rule hrule hd hadds hdst source _ hreceived hselected
  · rw [hsame, hsrc]

private theorem exists_admitted (msgs : List MessageType) {topicCfg : TopicCfg}
    (hdynamic : topicCfg.dynamicDst = true) {host : Bytes}
    (hselected : topicCfg.srcHostnameMap[host]? = some true) :
    ∃ envelope : TransportEnvelope, envelope.sourceHost = host ∧
      admits msgs topicCfg envelope = true := by
  refine ⟨{
    payloadKind := expectedPayloadKind topicCfg
    sourceHost := host
    rosType := topicCfg.type
    rosMd5 := rosTypeMd5 msgs topicCfg.type }, rfl, ?_⟩
  rw [admits_iff_admitted]
  exact ⟨rfl, rfl, rfl, rfl, Or.inl hdynamic, hselected⟩

/-- A rule that reaches this host from a source has a receiver. -/
theorem exists_receives
    (hb : constructBridge platform msgs params hostname droneId = .ok bridge) {rule : TopicCfg}
    (hrule : rule ∈ bridge.topicCfgs)
    (hdst : rule.dstHostnameMap[bridge.me.hostname]? = some true) {source : Bytes}
    (hreceived : isReceived params bridge.me rule source = true) :
    ∃ first factory, Receives platform params bridge rule first factory := by
  rcases constructBridge_eq_ok hb with ⟨_, rules, hrules, hcfgs, _, hrecv⟩
  have hhost : source ∈ bridge.hostMap.keys := by
    rw [hcfgs] at hrule
    rcases List.mem_map.mp hrule with ⟨shared, hshared, rfl⟩
    have hselected : shared.srcHostnameMap[source]? = some true := by
      simp only [isReceived, Bool.and_eq_true, decide_eq_true_eq] at hreceived
      exact hreceived.2
    rw [Std.ExtTreeMap.mem_keys]
    exact ((topicRules_eq_ok hrules shared hshared).src source).mp (mem_of_selected hselected)
  have hfirst : ∃ first, first ∈ receivedSources params bridge.me bridge.hostMap.keys rule := by
    have hmem := List.mem_filter.mpr ⟨hhost, hreceived⟩
    rw [receivedSources, if_pos hdst]
    dsimp only
    split
    · cases hsources : bridge.hostMap.keys.filter (isReceived params bridge.me rule) with
      | nil =>
        rw [hsources] at hmem
        cases hmem
      | cons first rest => exact ⟨first, by simp⟩
    · exact ⟨source, hmem⟩
  rcases hfirst with ⟨first, hfirst⟩
  have hpair : (rule, first) ∈
      receivedPairs params bridge.me bridge.hostMap.keys bridge.topicCfgs :=
    mem_receivedPairs.mpr ⟨hrule, hfirst⟩
  rcases (receivers_filled hrecv).complete _ hpair with ⟨name, factory, hentry, hname⟩
  exact ⟨first, factory, hpair, name, hname, hentry⟩

/-- Truthful prefixes need single sources. -/
theorem single_of_truthful
    (hb : constructBridge platform msgs params hostname droneId = .ok bridge)
    (h : PrefixesTruthful platform msgs params bridge) : SingleSources params bridge := by
  intro rule hrule hdynamic hadds hdst source other hreceived hother
  rcases exists_receives hb hrule hdst hreceived with ⟨first, factory, hreceives⟩
  rcases hreceives.entry with ⟨_, _, hentry⟩
  rcases recvCfg_eq_ok hentry.receiver.created with ⟨_, _, _, hsrcMap, _, hd⟩
  rcases pub_of_receives hadds hreceives with ⟨expanded, hexpanded, hpub⟩
  have hfirst : ∀ host, rule.srcHostnameMap[host]? = some true → host = first := by
    intro host hselected
    rw [← hsrcMap] at hselected
    rcases exists_admitted msgs (hd.trans hdynamic) hselected with ⟨envelope, rfl, hadmits⟩
    rcases h.tells rule first factory hadds hreceives envelope hadmits with
      ⟨expanded', hexpanded', htells⟩
    rw [hexpanded] at hexpanded'
    cases hexpanded'
    rw [hpub] at htells
    simpa using htells.symm
  have hsource : rule.srcHostnameMap[source]? = some true := by
    simp only [isReceived, Bool.and_eq_true, decide_eq_true_eq] at hreceived
    exact hreceived.2
  rw [hfirst other hother, hfirst source hsource]

/-- The prefixes on a host are truthful exactly when no dynamic rule that adds them there selects
two sources. -/
theorem prefixes_truthful_iff
    (hb : constructBridge platform msgs params hostname droneId = .ok bridge) :
    PrefixesTruthful platform msgs params bridge ↔ SingleSources params bridge := by
  constructor
  · exact single_of_truthful hb
  · intro hsingle
    constructor
    · intro rule source factory hadds h envelope hadmits
      rw [sourceHost_of_single hsingle hadds h hadmits]
      exact pub_of_receives hadds h
    · intro rule rule' source factory factory' hadds hadds' h h' envelope envelope' ha ha'
      rw [sourceHost_of_single hsingle hadds h ha, sourceHost_of_single hsingle hadds' h' ha']

end

/-- What the constructor makes on `drone2` where these hosts send goals to the drones. -/
def goalReceiver (sources : List String) : Accepted BridgeFactory :=
  constructBridge documentedPlatform goalMessages (goalParamsFrom sources)
    (some (ascii "drone2")) none

/-- With the ground station as the only source the prefixes are truthful. -/
theorem prefixes_truthful_goal :
    PrefixesTruthful documentedPlatform goalMessages (goalParamsFrom ["groundStation0"])
      (accepted (goalReceiver ["groundStation0"])) := by
  have hok : (goalReceiver ["groundStation0"]).isOk = true := by decide +kernel
  have hselected : ∀ rule ∈ (accepted (goalReceiver ["groundStation0"])).topicCfgs,
      rule.srcHostnameMap.toList.filter Prod.snd = [(ascii "groundStation0", true)] := by
    decide +kernel
  apply (prefixes_truthful_iff (eq_ok_accepted hok)).mpr
  intro rule hrule _ _ _ source other hreceived hother
  have hstation : ∀ host : Bytes, rule.srcHostnameMap[host]? = some true →
      host = ascii "groundStation0" := by
    intro host hhost
    have hmem : (host, true) ∈ rule.srcHostnameMap.toList.filter Prod.snd :=
      List.mem_filter.mpr ⟨Std.ExtTreeMap.mem_toList_iff_getElem?_eq_some.mpr hhost, rfl⟩
    rw [hselected rule hrule] at hmem
    simpa using hmem
  simp only [isReceived, Bool.and_eq_true, decide_eq_true_eq] at hreceived
  rw [hstation other hother, hstation source hreceived.2]

/-- With two sources the goals of the ground station come below the name of `drone1`. -/
theorem goal_of_other_source :
    ¬ PrefixesTruthful documentedPlatform goalMessages (goalParamsFrom ["drone1", "groundStation0"])
      (accepted (goalReceiver ["drone1", "groundStation0"])) := by
  intro htruthful
  have hok : (goalReceiver ["drone1", "groundStation0"]).isOk = true := by decide +kernel
  have hsingle := single_of_truthful (eq_ok_accepted hok) htruthful
  have hrule : ∃ rule ∈ (accepted (goalReceiver ["drone1", "groundStation0"])).topicCfgs,
      rule.dynamicDst = true ∧ rule.hasPrefix = true ∧ rule.samePrefix = false ∧
        rule.dstHostnameMap[(accepted (goalReceiver ["drone1", "groundStation0"])).me.hostname]? =
          some true ∧
        isReceived (goalParamsFrom ["drone1", "groundStation0"])
          (accepted (goalReceiver ["drone1", "groundStation0"])).me rule (ascii "drone1") = true ∧
        rule.srcHostnameMap[ascii "groundStation0"]? = some true := by
    decide +kernel
  rcases hrule with ⟨rule, hmem, hdynamic, hadds, hsame, hdst, hreceived, hselected⟩
  have hhost := hsingle rule hmem hdynamic ⟨hadds, hsame⟩ hdst _ _ hreceived hselected
  exact absurd hhost (by decide)

end NetBridge.Bridge
