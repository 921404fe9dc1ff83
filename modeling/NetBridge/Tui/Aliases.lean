import NetBridge.Bridge.Diagnostics
import NetBridge.Config.Agreement

/-!
# Topic aliases

`TopicAliases`, `src/swarm_ros_bridge/src/tui/topics_screen.cpp:155–166`: the names under which the
screens look for the live rows of a loaded rule. The screen works from the selectors as they are
written, the bridge from the hosts that they select.
-/

namespace NetBridge.Tui

open NetBridge.Base NetBridge.Bridge NetBridge.Topic NetBridge.Config

/-- `TopicAliases`; `topics_screen.cpp:155–166`. -/
def topicAliases (topic : TopicRule) : List Bytes :=
  topic.topicName ::
    if topic.samePrefix then [ascii "/bridge" ++ topic.topicName]
    else if topic.hasPrefix then topic.srcHosts.map fun host ↦ ascii "/" ++ host ++ topic.topicName
    else []

/-- The names that `topicOperatorInit` registers for a rule: that of its sender, and those of its
receivers. -/
inductive Registers (params : Parameters) (bridge : BridgeFactory) (topic : TopicCfg) : Bytes → Prop
  | sent (hselected : topic.srcHostnameMap[bridge.me.hostname]? = some true) :
    Registers params bridge topic (sendName bridge.me topic.name)
  | received {source name : Bytes}
    (hsource : source ∈ receivedSources params bridge.me bridge.hostMap.keys topic)
    (hname : recvName bridge.me topic source = .ok name) : Registers params bridge topic name

/-- Every name that is registered for a rule is an alias of the rule that is loaded at its
place. -/
def AliasesCover (params : Parameters) (bridge : BridgeFactory) (entries : List XmlRpcValue)
    (configured : List TopicRule) : Prop :=
  LoadedAs (fun topic rule ↦ ∀ name, Registers params bridge topic name → name ∈ topicAliases rule)
    entries configured bridge.topicCfgs

/-- A host stands literally among the sources of an entry. -/
def NamesSource (topicXml : Members) (source : Bytes) : Prop :=
  ∃ items, topicXml.get "srcIP" = .array items ∧ XmlRpcValue.string source ∈ items

/-- An entry and its rule whose names on this host are aliases: the entry can be loaded, no
`{id}` is expanded, and a source that stands before the name is not selected by a keyword alone. -/
structure Literal (params : Parameters) (bridge : BridgeFactory) (topicXml : Members)
    (topic : TopicCfg) : Prop where
  typed : Typed topicXml
  sent : topic.srcHostnameMap[bridge.me.hostname]? = some true →
    startsWith topic.name dronePrefix = true → bridge.me.droneId = DRONE_ID_NULL
  received : ∀ source ∈ receivedSources params bridge.me bridge.hostMap.keys topic,
    startsWith topic.name dronePrefix = false ∧
      (topic.hasPrefix = true → topic.samePrefix = false → NamesSource topicXml source)

/-- `Literal` of an entry of the list. -/
def LiteralEntry (params : Parameters) (bridge : BridgeFactory) (entry : XmlRpcValue)
    (topic : TopicCfg) : Prop :=
  match entry with
  | .struct topicXml => Literal params bridge topicXml topic
  | _ => False

/-! ## Names -/

/-- An expanded name does not end with the name that it came from. -/
theorem append_expandId_ne {name : Bytes} (h : startsWith name dronePrefix = true)
    (droneId : Int) (before before' : Bytes) :
    before ++ expandId name droneId ≠ before' ++ name := by
  obtain ⟨rest, rfl⟩ := (startsWith_iff _ _).mp h
  intro he
  rw [expandId, List.drop_left, ← List.append_assoc, ← List.append_assoc before'] at he
  -- behind the number stands a digit, behind the placeholder a brace
  have hlast := congrArg List.getLast? (List.append_cancel_right he)
  obtain ⟨digit, hdigit, hbounds⟩ := exists_getLast?_intToString droneId
  have hbrace : dronePrefix.getLast? = some 125 := by decide
  rw [List.getLast?_append, List.getLast?_append, List.getLast?_append, hdigit, hbrace] at hlast
  have hsame : digit = 125 := Option.some.inj hlast
  rw [hsame] at hbounds
  exact absurd hbounds.2 (by decide)

/-- The aliases of a rule. -/
theorem mem_topicAliases {rule : TopicRule} {name : Bytes} :
    name ∈ topicAliases rule ↔ name = rule.topicName ∨
      (rule.samePrefix = true ∧ name = ascii "/bridge" ++ rule.topicName) ∨
      (rule.samePrefix = false ∧ rule.hasPrefix = true ∧
        ∃ host ∈ rule.srcHosts, name = ascii "/" ++ host ++ rule.topicName) := by
  unfold topicAliases
  cases rule.samePrefix <;> cases rule.hasPrefix <;> simp [eq_comm]

/-- Every alias ends with the name of the rule. -/
theorem exists_append_of_mem_topicAliases {rule : TopicRule} {name : Bytes}
    (h : name ∈ topicAliases rule) : ∃ before, name = before ++ rule.topicName := by
  rcases mem_topicAliases.mp h with h | ⟨-, h⟩ | ⟨-, -, host, -, h⟩
  · exact ⟨[], h⟩
  · exact ⟨_, h⟩
  · exact ⟨_, h⟩

/-- The hosts of an entry that is loaded stand among its sources. -/
theorem mem_srcHosts {topicXml : Members} {rule : TopicRule} (h : Loads topicXml rule)
    (source : Bytes) : source ∈ rule.srcHosts ↔ NamesSource topicXml source := by
  have hload := h.srcHosts
  unfold NamesSource
  cases hvalue : topicXml.get "srcIP" with
  | array items =>
    rw [hvalue, loadHosts_array] at hload
    rw [hload]
    constructor
    · intro hsource
      exact ⟨_, rfl, List.mem_map_of_mem hsource⟩
    · rintro ⟨_, hitems, hsource⟩
      cases hitems
      obtain ⟨host, hhost, he⟩ := List.mem_map.mp hsource
      cases he
      exact hhost
  | _ =>
    rw [hvalue] at hload
    have hnone : rule.srcHosts = [] := (Except.ok.inj hload).symm
    rw [hnone]
    constructor
    · intro hsource
      exact absurd hsource List.not_mem_nil
    · rintro ⟨_, hitems, -⟩
      cases hitems

/-- The name of a sender is an alias exactly when no `{id}` is expanded in it. -/
theorem sendName_mem_iff {rule : TopicRule} {me : Identity} {name : Bytes}
    (hname : rule.topicName = name) : sendName me name ∈ topicAliases rule ↔
      (startsWith name dronePrefix = true → me.droneId = DRONE_ID_NULL) := by
  unfold sendName
  split
  · next hexpanded =>
    apply iff_of_false
    · intro hmem
      obtain ⟨before, he⟩ := exists_append_of_mem_topicAliases hmem
      rw [hname] at he
      exact append_expandId_ne hexpanded.1 _ [] before he
    · intro hnull
      exact hexpanded.2 (hnull hexpanded.1)
  · next hkept =>
    apply iff_of_true
    · exact mem_topicAliases.mpr (Or.inl hname.symm)
    · intro hstarts
      by_contra hne
      exact hkept ⟨hstarts, hne⟩

/-- What stands before the name of a receiver. -/
theorem exists_append_prefixedName (topic : TopicCfg) (source name : Bytes) :
    ∃ before, prefixedName topic source name = before ++ name := by
  unfold prefixedName
  split
  · exact ⟨_, rfl⟩
  · split
    · exact ⟨_, rfl⟩
    · exact ⟨[], rfl⟩

/-- The name of a receiver is an alias exactly when no `{id}` is expanded in it and a source that
stands before it is one that is loaded. -/
theorem recvName_mem_iff {rule : TopicRule} {me : Identity} {topic : TopicCfg}
    {source name : Bytes} (htopic : rule.topicName = topic.name)
    (hprefixed : rule.hasPrefix = topic.hasPrefix) (hsame : rule.samePrefix = topic.samePrefix)
    (h : recvName me topic source = .ok name) : name ∈ topicAliases rule ↔
      startsWith topic.name dronePrefix = false ∧
        (topic.hasPrefix = true → topic.samePrefix = false → source ∈ rule.srcHosts) := by
  obtain ⟨expanded, hexpanded, h⟩ := bind_eq_ok.mp h
  cases h
  unfold expandedName at hexpanded
  split at hexpanded
  · next hstarts =>
    obtain ⟨_, -, hexpanded⟩ := bind_eq_ok.mp hexpanded
    obtain ⟨droneId, -, hexpanded⟩ := bind_eq_ok.mp hexpanded
    cases hexpanded
    apply iff_of_false
    · intro hmem
      obtain ⟨before, hbefore⟩ :=
        exists_append_prefixedName topic source (expandId topic.name droneId)
      obtain ⟨before', halias⟩ := exists_append_of_mem_topicAliases hmem
      rw [hbefore, htopic] at halias
      exact append_expandId_ne hstarts droneId before before' halias
    · intro hliteral
      rw [hstarts] at hliteral
      cases hliteral.1
  · next hplain =>
    cases hexpanded
    have hlonger : ascii "/" ++ (source ++ topic.name) ≠ topic.name := by
      intro he
      have hlength := congrArg List.length he
      have hone : (ascii "/").length = 1 := rfl
      rw [List.length_append, List.length_append, hone] at hlength
      omega
    rw [mem_topicAliases, htopic, hprefixed, hsame]
    unfold prefixedName
    cases topic.samePrefix <;> cases topic.hasPrefix <;> simp [hplain, hlonger]

/-! ## Rules and aliases -/

section

variable {platform : Platform} {msgs : List MessageType} {params : Parameters}
  {hostname droneId : Option Bytes} {bridge : BridgeFactory}

/-- What stands in `send_topics_` and `recv_topics_` of a bridge are the names of its rules. -/
theorem registered_iff
    (hb : constructBridge platform msgs params hostname droneId = .ok bridge) (name : Bytes) :
    (name ∈ bridge.sendTopics ∨ name ∈ bridge.recvTopics) ↔
      ∃ topic ∈ bridge.topicCfgs, Registers params bridge topic name := by
  simp only [Std.ExtTreeMap.mem_iff_isSome_getElem?, Option.isSome_iff_exists]
  constructor
  · rintro (⟨factory, hfactory⟩ | ⟨factory, hfactory⟩)
    · obtain ⟨rule, hrule, hselected, rfl⟩ := (senderUnder hb hfactory).rule
      exact ⟨rule, hrule, .sent hselected⟩
    · obtain ⟨pair, hpair, hname⟩ := (receiverUnder hb hfactory).pair
      obtain ⟨hrule, hsource⟩ := mem_receivedPairs.mp hpair
      exact ⟨pair.1, hrule, .received hsource hname⟩
  · rintro ⟨rule, hrule, hregisters⟩
    cases hregisters with
    | sent hselected => exact Or.inl (exists_sender hb hrule hselected)
    | @received source _ hsource hname =>
      have hpair : (rule, source) ∈ bridge.pairs params :=
        mem_receivedPairs.mpr ⟨hrule, hsource⟩
      exact Or.inr (exists_receiver hb hpair hname)

/-- Every source that a rule is received from has a name. -/
theorem exists_recvName
    (hb : constructBridge platform msgs params hostname droneId = .ok bridge) {rule : TopicCfg}
    (hrule : rule ∈ bridge.topicCfgs) {source : Bytes}
    (hsource : source ∈ receivedSources params bridge.me bridge.hostMap.keys rule) :
    ∃ name, recvName bridge.me rule source = .ok name := by
  obtain ⟨name, factory, hentry, -⟩ :=
    (filled_of_construct hb).complete (rule, source) (mem_receivedPairs.mpr ⟨hrule, hsource⟩)
  exact ⟨name, hentry.named⟩

/-- The names of a rule are aliases of what is loaded for it exactly when the entry is literal. -/
theorem covers_iff {rule : TopicRule} {topic : TopicCfg} {topicXml : Members}
    (hruns : RunsWith topicXml topic) (hloads : Loads topicXml rule) (htyped : Typed topicXml)
    (hnamed : ∀ source ∈ receivedSources params bridge.me bridge.hostMap.keys topic,
      ∃ name, recvName bridge.me topic source = .ok name) :
    (∀ name, Registers params bridge topic name → name ∈ topicAliases rule) ↔
      Literal params bridge topicXml topic := by
  have htopic : rule.topicName = topic.name :=
    XmlRpcValue.string.inj (hloads.topicName.symm.trans hruns.topicName)
  have hprefixed : rule.hasPrefix = topic.hasPrefix := by
    rw [flag_eq hloads.hasPrefix, hruns.hasPrefix]
  have hsame : rule.samePrefix = topic.samePrefix := by
    rw [flag_eq hloads.samePrefix, hruns.samePrefix]
  constructor
  · intro hcovers
    refine ⟨htyped, ?_, ?_⟩
    · intro hselected
      exact (sendName_mem_iff htopic).mp (hcovers _ (.sent hselected))
    · intro source hsource
      obtain ⟨name, hname⟩ := hnamed source hsource
      rw [← mem_srcHosts hloads]
      exact (recvName_mem_iff htopic hprefixed hsame hname).mp (hcovers _ (.received hsource hname))
  · intro hliteral name hregisters
    cases hregisters with
    | sent hselected => exact (sendName_mem_iff htopic).mpr (hliteral.sent hselected)
    | @received source _ hsource hname =>
      have hreceived := hliteral.received source hsource
      rw [← mem_srcHosts hloads] at hreceived
      exact (recvName_mem_iff htopic hprefixed hsame hname).mpr hreceived

/-- `covers_iff` of an entry that a bridge has accepted. -/
theorem covers_entry_iff {hostMap : Inventory} {myHostname : Bytes} {entry : XmlRpcValue}
    {rule : TopicCfg} (h : topicRule msgs hostMap entry = .ok rule)
    (hnamed : ∀ source ∈
        receivedSources params bridge.me bridge.hostMap.keys (onHost myHostname rule),
      ∃ name, recvName bridge.me (onHost myHostname rule) source = .ok name) :
    (∃ loaded, loadTopicRule entry = .ok loaded ∧ ∀ name,
        Registers params bridge (onHost myHostname rule) name → name ∈ topicAliases loaded) ↔
      LiteralEntry params bridge entry (onHost myHostname rule) := by
  unfold topicRule at h
  split at h
  · next topicXml =>
    have hruns : RunsWith topicXml rule := runsWith_of_topicRule h
    have hruns : RunsWith topicXml (onHost myHostname rule) :=
      ⟨hruns.topicName, hruns.msgType, hruns.qosClass, hruns.srcHosts, hruns.dstHosts,
        hruns.maxFreq, hruns.hasPrefix, hruns.samePrefix, hruns.cloud, hruns.image⟩
    constructor
    · rintro ⟨loaded, hloaded, hcovers⟩
      have htyped := exists_loadTopicRule.mp ⟨loaded, hloaded⟩
      exact (covers_iff hruns (loads_of_eq_ok hloaded) htyped hnamed).mp hcovers
    · intro hliteral
      have hliteral : Literal params bridge topicXml (onHost myHostname rule) := hliteral
      obtain ⟨loaded, hloaded⟩ := exists_loadTopicRule.mpr hliteral.typed
      exact ⟨loaded, hloaded,
        (covers_iff hruns (loads_of_eq_ok hloaded) hliteral.typed hnamed).mpr hliteral⟩
  · cases h

/-- `covers_iff` of the entries that a bridge has accepted. -/
theorem covers_entries_iff {hostMap : Inventory} {myHostname : Bytes} {entries : List XmlRpcValue}
    {topics : List TopicCfg}
    (h : List.Forall₂ (fun entry topic ↦ ∃ rule, topicRule msgs hostMap entry = .ok rule ∧
      topic = onHost myHostname rule) entries topics)
    (hnamed : ∀ topic ∈ topics,
      ∀ source ∈ receivedSources params bridge.me bridge.hostMap.keys topic,
        ∃ name, recvName bridge.me topic source = .ok name) (configured : List TopicRule) :
    LoadedAs (fun topic rule ↦ ∀ name, Registers params bridge topic name →
        name ∈ topicAliases rule) entries configured topics ↔
      List.Forall₂ (LiteralEntry params bridge) entries topics := by
  rw [loadedAs_iff]
  induction h with
  | nil => exact iff_of_true .nil .nil
  | cons hentry _ ih =>
    obtain ⟨rule, hrule, rfl⟩ := hentry
    rw [List.forall_mem_cons] at hnamed
    rw [List.forall₂_cons, List.forall₂_cons, ih hnamed.2, covers_entry_iff hrule hnamed.1]

/-- On any host of a bridge that starts, every name that is registered for a rule is an alias of
the rule that is loaded at its place, exactly when each entry of the list is literal. -/
theorem aliases_cover_iff
    (hb : constructBridge platform msgs params hostname droneId = .ok bridge)
    {entries : List XmlRpcValue} (hentries : params.topics = some (.array entries))
    (configured : List TopicRule) :
    AliasesCover params bridge entries configured ↔
      List.Forall₂ (LiteralEntry params bridge) entries bridge.topicCfgs := by
  obtain ⟨_, rules, hrules, hcfgs, _, _⟩ := constructBridge_eq_ok hb
  have hread : topicCfgs msgs params bridge.hostMap bridge.me.hostname = .ok bridge.topicCfgs := by
    rw [hcfgs]
    exact bind_eq_ok.mpr ⟨rules, hrules, rfl⟩
  exact covers_entries_iff (topicCfgs_eq_ok hentries hread)
    (fun _ htopic _ hsource ↦ exists_recvName hb htopic hsource) configured

end

/-! ## A keyword among the sources -/

/-- The entries of `exchangeParams`. -/
def exchangeEntries (sourceBefore : Bool) : List XmlRpcValue :=
  match (exchangeParams sourceBefore).topics with
  | some (.array entries) => entries
  | _ => []

private theorem exchange_starts (sourceBefore : Bool) :
    constructBridge documentedPlatform stringMessages (exchangeParams sourceBefore)
      (some (ascii "groundStation0")) none = .ok (accepted (exchangeResult sourceBefore)) ∧
    ∃ topic, (accepted (exchangeResult sourceBefore)).topicCfgs = [topic] := by
  have hruns : (exchangeResult sourceBefore).isOk = true ∧
      (accepted (exchangeResult sourceBefore)).topicCfgs.length = 1 := by
    cases sourceBefore
    · decide +kernel
    · decide +kernel
  exact ⟨eq_ok_accepted hruns.1, List.length_eq_one_iff.mp hruns.2⟩

/-- Without the source before it, `/chat` is its own alias. -/
theorem aliases_cover_exchange :
    AliasesCover (exchangeParams false) (accepted (exchangeResult false)) (exchangeEntries false)
      [] := by
  obtain ⟨hstarts, topic, htopic⟩ := exchange_starts false
  apply (aliases_cover_iff hstarts rfl []).mpr
  have hplain : ∀ topic ∈ (accepted (exchangeResult false)).topicCfgs,
      startsWith topic.name dronePrefix = false ∧ topic.hasPrefix = false := by
    decide +kernel
  rw [htopic] at hplain ⊢
  obtain ⟨hname, hprefixed⟩ := hplain topic List.mem_cons_self
  refine .cons ⟨exists_loadTopicRule.mp ⟨_, rfl⟩, ?_, ?_⟩ .nil
  · intro _ hstarts
    rw [hname] at hstarts
    cases hstarts
  · intro source _
    refine ⟨hname, ?_⟩
    intro hbefore
    rw [hprefixed] at hbefore
    cases hbefore

/-- With the source before it, the ground station publishes `/drone1/chat`, and the aliases are
`/chat` and `/all/chat`. -/
theorem received_name_without_alias :
    ascii "/drone1/chat" ∈ (accepted (exchangeResult true)).recvTopics ∧
    (loadTopicRules (.array (exchangeEntries true)) []).map (·.map topicAliases) =
      .ok [[ascii "/chat", ascii "/all/chat"]] ∧
    ¬AliasesCover (exchangeParams true) (accepted (exchangeResult true)) (exchangeEntries true)
      [] := by
  have hreceived : ascii "/drone1/chat" ∈ (accepted (exchangeResult true)).recvTopics := by
    decide +kernel
  have haliases : (loadTopicRules (.array (exchangeEntries true)) []).map (·.map topicAliases) =
      .ok [[ascii "/chat", ascii "/all/chat"]] := rfl
  refine ⟨hreceived, haliases, ?_⟩
  rintro ⟨rules, hrules, hcovers⟩
  rw [hrules] at haliases
  have haliases : rules.map topicAliases = [[ascii "/chat", ascii "/all/chat"]] :=
    Except.ok.inj haliases
  obtain ⟨hstarts, only, honly⟩ := exchange_starts true
  obtain ⟨topic, hmem, hregisters⟩ :=
    (registered_iff hstarts (ascii "/drone1/chat")).mp (Or.inr hreceived)
  rw [honly] at hmem hcovers
  rw [List.mem_singleton.mp hmem] at hregisters
  cases hcovers with
  | @cons _ rule _ rules hrule _ =>
    have hloaded : topicAliases rule = [ascii "/chat", ascii "/all/chat"] :=
      (List.cons.inj haliases).1
    have halias := hrule _ hregisters
    rw [hloaded] at halias
    exact absurd halias (by decide)

end NetBridge.Tui
