import NetBridge.Tui.Aliases

/-!
# Live rows of the topics screen

What `RenderTopicsScreen`, `src/swarm_ros_bridge/src/tui/topics_screen.cpp:255–271`, finds of a
loaded rule in a message of `publishDiagnostics`. The cache keeps one row for each name: where a
topic is sent and received under one name, that of the receiver.
-/

namespace NetBridge.Tui

open NetBridge.Base NetBridge.Bridge NetBridge.Topic NetBridge.Config NetBridge.Diagnostics

/-- The row that a message leaves under the name of a topic; `bridge_factory.cpp:813–818`. -/
def liveRow (bridge : BridgeFactory) (reading : DiagnosticsReading) (name : Bytes) :
    Option (NetworkInfo Float32) :=
  (bridge.recvTopics[name]?.map fun factory ↦
    metricsRow reading factory (reading.received name)).or
  (bridge.sendTopics[name]?.map fun factory ↦ metricsRow reading factory (reading.sent name))

/-- What the screen finds of a rule in a fresh cache: a live row exactly if the host sends or
receives under one of the aliases, which is that of the first such alias, and rows of one direction
where the cache has not lost them. -/
structure LiveInfo (bridge : BridgeFactory) (reading : DiagnosticsReading)
    (cache : DiagnosticsCache Float32) (now : Int) (rule : TopicRule) : Prop where
  live : ∀ row, cache.lookupAny (topicAliases rule) now = some row ↔ cache.isFresh now = true ∧
    ∃ before name after, topicAliases rule = before ++ name :: after ∧
      liveRow bridge reading name = some row ∧
      ∀ other ∈ before, other ∉ bridge.sendTopics ∧ other ∉ bridge.recvTopics
  found : (cache.lookupAny (topicAliases rule) now).isSome = true ↔ cache.isFresh now = true ∧
    ∃ name ∈ topicAliases rule, name ∈ bridge.sendTopics ∨ name ∈ bridge.recvTopics
  sent : (cache.lookupDirected (topicAliases rule) (ascii "send") now).isSome = true ↔
    cache.isFresh now = true ∧
      ∃ name ∈ topicAliases rule, name ∈ bridge.sendTopics ∧ name ∉ bridge.recvTopics
  received : (cache.lookupDirected (topicAliases rule) (ascii "recv") now).isSome = true ↔
    cache.isFresh now = true ∧ ∃ name ∈ topicAliases rule, name ∈ bridge.recvTopics

/-- The screen finds a row for each direction in which the host has a topic. -/
structure Located (params : Parameters) (bridge : BridgeFactory)
    (cache : DiagnosticsCache Float32) (now : Int) (topic : TopicCfg) (rule : TopicRule) :
    Prop where
  sent : topic.srcHostnameMap[bridge.me.hostname]? = some true →
    ¬SendsWhatItReceives params bridge →
    (cache.lookupDirected (topicAliases rule) (ascii "send") now).isSome = true
  received : receivedSources params bridge.me bridge.hostMap.keys topic ≠ [] →
    (cache.lookupDirected (topicAliases rule) (ascii "recv") now).isSome = true

/-! ## Rows by name -/

section

variable {platform : Platform} {msgs : List MessageType} {params : Parameters}
  {hostname droneId : Option Bytes} {bridge : BridgeFactory}

private theorem getElem?_metricsRows (reading : DiagnosticsReading)
    {topics : Std.ExtTreeMap Bytes TopicFactory}
    (hnamed : ∀ (name : Bytes) (factory : TopicFactory),
      topics[name]? = some factory → factory.topicCfg.name = name)
    (metricsReading : Bytes → MetricsReading) (name : Bytes) :
    (indexBy NetworkInfo.name (topics.toList.map fun item ↦
      metricsRow reading item.2 (metricsReading item.1)))[name]? =
        topics[name]?.map fun factory ↦ metricsRow reading factory (metricsReading name) := by
  cases hfactory : topics[name]? with
  | none =>
    rw [Option.map_none, Option.eq_none_iff_forall_ne_some]
    intro row hrow
    have hmem := of_getElem?_indexBy hrow
    rcases List.mem_map.mp hmem.1 with ⟨item, hitem, rfl⟩
    have hitem := Std.ExtTreeMap.mem_toList_iff_getElem?_eq_some.mp hitem
    have hname : item.1 = name := (hnamed item.1 item.2 hitem).symm.trans hmem.2
    rw [hname, hfactory] at hitem
    cases hitem
  | some factory =>
    have hdetermines := determines_metricsRows reading hnamed metricsReading
    have hmem : metricsRow reading factory (metricsReading name) ∈ topics.toList.map fun item ↦
        metricsRow reading item.2 (metricsReading item.1) :=
      List.mem_map.mpr
        ⟨(name, factory), Std.ExtTreeMap.mem_toList_iff_getElem?_eq_some.mpr hfactory, rfl⟩
    have hfound := indexBy_lossless.mpr hdetermines _ hmem
    rw [(metricsRow_labels reading factory (metricsReading name)).1, hnamed name factory hfactory]
      at hfound
    exact hfound

private theorem getElem?_indexBy_special {rows : List (NetworkInfo Float32)} {name : Bytes}
    (hrows : ∀ row ∈ rows, row.name.head? ≠ some slash) (hname : name.head? = some slash) :
    (indexBy NetworkInfo.name rows)[name]? = none := by
  rw [Option.eq_none_iff_forall_ne_some]
  intro row hrow
  have hmem := of_getElem?_indexBy hrow
  apply hrows row hmem.1
  rw [hmem.2, hname]

/-- What a message leaves under a global name. -/
theorem getElem?_publishDiagnostics_global
    (hb : constructBridge platform msgs params hostname droneId = .ok bridge)
    (reading : DiagnosticsReading) {name : Bytes} (hname : name.head? = some slash) :
    (indexBy NetworkInfo.name (bridge.publishDiagnostics params reading))[name]? =
      liveRow bridge reading name := by
  have hpresence : ∀ row ∈ presenceRows reading, row.name.head? ≠ some slash := by
    intro row hrow
    rcases names_presenceRows hrow with ⟨host, hhost⟩
    rw [hhost, List.head?_append_of_ne_nil _ (by decide)]
    decide
  have hsession : ∀ row ∈ sessionRows params reading, row.name.head? ≠ some slash := by
    intro row hrow
    rcases names_of_mem_sessionRows hrow with ⟨rest, hrest⟩
    rw [hrest, List.head?_append_of_ne_nil _ (by decide)]
    decide
  unfold BridgeFactory.publishDiagnostics
  rw [getElem?_indexBy_append, getElem?_indexBy_special hpresence hname, Option.none_or,
    getElem?_indexBy_append, getElem?_indexBy_special hsession hname, Option.none_or,
    getElem?_indexBy_append,
    getElem?_metricsRows reading (fun _ _ hf ↦ (receiverUnder hb hf).named) reading.received,
    getElem?_metricsRows reading (fun _ _ hf ↦ (senderUnder hb hf).named) reading.sent]
  rfl

/-- A topic has a row exactly if it is sent or received. -/
theorem isSome_liveRow (reading : DiagnosticsReading) (name : Bytes) :
    (liveRow bridge reading name).isSome = true ↔
      name ∈ bridge.sendTopics ∨ name ∈ bridge.recvTopics := by
  rw [liveRow, Option.isSome_or, Option.isSome_map, Option.isSome_map, Bool.or_eq_true,
    Std.ExtTreeMap.mem_iff_isSome_getElem?, Std.ExtTreeMap.mem_iff_isSome_getElem?, or_comm]

/-- The direction of a row: the row of a receiver stands before that of a sender. -/
theorem direction_liveRow
    (hb : constructBridge platform msgs params hostname droneId = .ok bridge)
    {reading : DiagnosticsReading} {name : Bytes} {row : NetworkInfo Float32}
    (h : liveRow bridge reading name = some row) :
    (name ∈ bridge.recvTopics ∧ row.direction = ascii "recv") ∨
      (name ∈ bridge.sendTopics ∧ name ∉ bridge.recvTopics ∧ row.direction = ascii "send") := by
  simp only [Std.ExtTreeMap.mem_iff_isSome_getElem?]
  unfold liveRow at h
  cases hreceiver : bridge.recvTopics[name]? with
  | some factory =>
    rw [hreceiver] at h
    cases h
    rw [(metricsRow_labels reading factory _).2, (receiverUnder hb hreceiver).direction]
    exact Or.inl ⟨rfl, rfl⟩
  | none =>
    rw [hreceiver, Option.map_none, Option.none_or] at h
    rcases Option.map_eq_some_iff.mp h with ⟨factory, hsender, rfl⟩
    rw [(metricsRow_labels reading factory _).2, (senderUnder hb hsender).direction, hsender]
    exact Or.inr ⟨rfl, Bool.false_ne_true, rfl⟩

/-- A row of a receiver is left exactly if something is received. -/
theorem exists_liveRow_recv_iff
    (hb : constructBridge platform msgs params hostname droneId = .ok bridge)
    (reading : DiagnosticsReading) (name : Bytes) :
    (∃ row, liveRow bridge reading name = some row ∧ row.direction = ascii "recv") ↔
      name ∈ bridge.recvTopics := by
  constructor
  · rintro ⟨row, hrow, hdirection⟩
    rcases direction_liveRow hb hrow with ⟨hrecv, -⟩ | ⟨-, -, hsend⟩
    · exact hrecv
    · rw [hsend] at hdirection
      exact absurd hdirection (by decide)
  · intro hrecv
    rcases Option.isSome_iff_exists.mp ((isSome_liveRow reading name).mpr (Or.inr hrecv)) with
      ⟨row, hrow⟩
    rcases direction_liveRow hb hrow with ⟨-, hdirection⟩ | ⟨-, hother, -⟩
    · exact ⟨row, hrow, hdirection⟩
    · exact absurd hrecv hother

/-- A row of a sender is left exactly if something is sent and nothing received. -/
theorem exists_liveRow_send_iff
    (hb : constructBridge platform msgs params hostname droneId = .ok bridge)
    (reading : DiagnosticsReading) (name : Bytes) :
    (∃ row, liveRow bridge reading name = some row ∧ row.direction = ascii "send") ↔
      name ∈ bridge.sendTopics ∧ name ∉ bridge.recvTopics := by
  constructor
  · rintro ⟨row, hrow, hdirection⟩
    rcases direction_liveRow hb hrow with ⟨-, hrecv⟩ | ⟨hsent, hother, -⟩
    · rw [hrecv] at hdirection
      exact absurd hdirection (by decide)
    · exact ⟨hsent, hother⟩
  · rintro ⟨hsent, hother⟩
    rcases Option.isSome_iff_exists.mp ((isSome_liveRow reading name).mpr (Or.inl hsent)) with
      ⟨row, hrow⟩
    rcases direction_liveRow hb hrow with ⟨hrecv, -⟩ | ⟨-, -, hdirection⟩
    · exact absurd hrecv hother
    · exact ⟨row, hrow, hdirection⟩

/-- The aliases of a global name are global. -/
theorem isGlobal_of_mem_topicAliases {rule : TopicRule} (hrule : rule.topicName.head? = some slash)
    {name : Bytes} (hname : name ∈ topicAliases rule) : name.head? = some slash := by
  rcases mem_topicAliases.mp hname with rfl | ⟨-, rfl⟩ | ⟨-, -, host, -, rfl⟩
  · exact hrule
  · rfl
  · rfl

/-! ## What is found -/

/-- What the screen finds of a rule with a global name. -/
theorem liveInfo_of_isGlobal
    (hb : constructBridge platform msgs params hostname droneId = .ok bridge)
    (reading : DiagnosticsReading) (cache : DiagnosticsCache Float32) (updated now : Int)
    {rule : TopicRule} (hrule : rule.topicName.head? = some slash) :
    LiveInfo bridge reading
      (cache.update (bridge.publishDiagnostics params reading) updated) now rule := by
  have hlatest : ∀ name ∈ topicAliases rule,
      (cache.update (bridge.publishDiagnostics params reading) updated).latest[name]? =
        liveRow bridge reading name := fun name hname ↦
    getElem?_publishDiagnostics_global hb reading (isGlobal_of_mem_topicAliases hrule hname)
  constructor
  · intro row
    rw [DiagnosticsCache.lookupAny_eq_some_iff]
    apply and_congr_right
    intro _
    refine exists_congr fun before ↦ exists_congr fun name ↦ exists_congr fun after ↦
      and_congr_right fun hsplit ↦ ?_
    have hname : name ∈ topicAliases rule := by
      rw [hsplit]
      exact List.mem_append_right before List.mem_cons_self
    rw [hlatest name hname]
    apply and_congr_right
    intro _
    refine forall₂_congr fun other hother ↦ ?_
    have hother : other ∈ topicAliases rule := by
      rw [hsplit]
      exact List.mem_append_left _ hother
    rw [hlatest other hother, ← Option.not_isSome_iff_eq_none, isSome_liveRow, not_or]
  · rw [DiagnosticsCache.isSome_lookupAny]
    refine and_congr_right fun _ ↦ exists_congr fun name ↦ and_congr_right fun hname ↦ ?_
    rw [hlatest name hname, isSome_liveRow]
  · rw [DiagnosticsCache.isSome_lookupDirected]
    refine and_congr_right fun _ ↦ exists_congr fun name ↦ and_congr_right fun hname ↦ ?_
    rw [hlatest name hname, exists_liveRow_send_iff hb]
  · rw [DiagnosticsCache.isSome_lookupDirected]
    refine and_congr_right fun _ ↦ exists_congr fun name ↦ and_congr_right fun hname ↦ ?_
    rw [hlatest name hname, exists_liveRow_recv_iff hb]

/-- A topic whose names are aliases is found. -/
theorem located_of_liveInfo
    (hb : constructBridge platform msgs params hostname droneId = .ok bridge)
    {reading : DiagnosticsReading} {cache : DiagnosticsCache Float32} {now : Int}
    {topic : TopicCfg} {rule : TopicRule} (hinfo : LiveInfo bridge reading cache now rule)
    (hfresh : cache.isFresh now = true) (htopic : topic ∈ bridge.topicCfgs)
    (hcovers : ∀ name, Registers params bridge topic name → name ∈ topicAliases rule) :
    Located params bridge cache now topic rule := by
  constructor
  · intro hselected hapart
    rcases exists_sender hb htopic hselected with ⟨sender, hsender⟩
    rw [hinfo.sent]
    refine ⟨hfresh, _, hcovers _ (.sent hselected), ?_, ?_⟩
    · rw [Std.ExtTreeMap.mem_iff_isSome_getElem?, hsender]
      rfl
    · intro hrecv
      rw [Std.ExtTreeMap.mem_iff_isSome_getElem?] at hrecv
      rcases Option.isSome_iff_exists.mp hrecv with ⟨receiver, hreceiver⟩
      rcases (receiverUnder hb hreceiver).pair with ⟨pair, hpair, hname⟩
      exact hapart ⟨topic, htopic, hselected, pair, hpair, hname⟩
  · intro hsources
    rcases List.exists_mem_of_ne_nil _ hsources with ⟨source, hsource⟩
    rcases exists_recvName hb htopic hsource with ⟨name, hname⟩
    have hpair : (topic, source) ∈ bridge.pairs params :=
      mem_receivedPairs.mpr ⟨htopic, hsource⟩
    rcases exists_receiver hb hpair hname with ⟨receiver, hreceiver⟩
    rw [hinfo.received]
    refine ⟨hfresh, name, hcovers _ (.received hsource hname), ?_⟩
    rw [Std.ExtTreeMap.mem_iff_isSome_getElem?, hreceiver]
    rfl

/-- A rule is loaded with the name of the topic at its place. -/
theorem topicNames_of_load
    (hb : constructBridge platform msgs params hostname droneId = .ok bridge)
    {entries : List XmlRpcValue} (hentries : params.topics = some (.array entries))
    {configured rules : List TopicRule}
    (hrules : loadTopicRules (.array entries) configured = .ok rules) :
    List.Forall₂ (fun topic rule ↦ rule.topicName = topic.name) bridge.topicCfgs rules := by
  rcases constructBridge_eq_ok hb with ⟨_, shared, hshared, hcfgs, _, _⟩
  have hread : topicCfgs msgs params bridge.hostMap bridge.me.hostname = .ok bridge.topicCfgs := by
    rw [hcfgs]
    exact bind_eq_ok.mpr ⟨shared, hshared, rfl⟩
  have hbridge := (topicCfgs_eq_ok hentries hread).flip
  have hloader := (mapM_eq_ok.mp hrules).flip
  refine (exists_forall₂_iff.mp ⟨entries, hbridge, hloader⟩).imp ?_
  rintro topic rule ⟨entry, ⟨running, hrunning, rfl⟩, hrule⟩
  unfold loadTopicRule at hrule
  split at hrule
  · next topicXml =>
    have hloads : Loads topicXml rule := loads_of_eq_ok hrule
    have hruns : RunsWith topicXml running := runsWith_of_topicRule hrunning
    exact XmlRpcValue.string.inj (hloads.topicName.symm.trans hruns.topicName)
  · cases hrule

/-- A message of a bridge that starts, in the cache of an interface that has loaded the topic list.
For each rule of the list a live row is found exactly while the cache is fresh and the host sends or
receives under an alias; rows of senders whose names are received too are lost. Where the names of
the topic are aliases, a receive row is found if the host receives the topic at all, and a send row
if it sends it and nothing is sent under the name of a receiver. -/
theorem live_info_found
    (hb : constructBridge platform msgs params hostname droneId = .ok bridge)
    {entries : List XmlRpcValue} (hentries : params.topics = some (.array entries))
    (configured : List TopicRule) {rules : List TopicRule}
    (hrules : loadTopicRules (.array entries) configured = .ok rules)
    (reading : DiagnosticsReading) (cache : DiagnosticsCache Float32) (updated now : Int) :
    List.Forall₂ (fun topic rule ↦
      LiveInfo bridge reading
        (cache.update (bridge.publishDiagnostics params reading) updated) now rule ∧
      (now - updated ≤ DiagnosticsCache.shownAge →
        (∀ name, Registers params bridge topic name → name ∈ topicAliases rule) →
        Located params bridge
          (cache.update (bridge.publishDiagnostics params reading) updated) now topic rule))
      bridge.topicCfgs rules := by
  have hpaired := topicNames_of_load hb hentries hrules
  refine ((List.forall₂_and_left _ _).mpr ⟨fun topic htopic ↦ htopic, hpaired⟩).imp ?_
  rintro topic rule ⟨htopic, hname⟩
  have hinfo := liveInfo_of_isGlobal hb reading cache updated now
    (hname ▸ rule_isGlobal hb htopic)
  refine ⟨hinfo, fun hfresh hcovers ↦ ?_⟩
  exact located_of_liveInfo hb hinfo (decide_eq_true hfresh) htopic hcovers

end

/-- The ground station sends and receives `/chat`: what it receives is found, what it sends is
not. -/
theorem live_info_found_exchange : ∃ (rule : TopicRule) (cache : DiagnosticsCache Float32),
    loadTopicRules (.array (exchangeEntries false)) [] = .ok [rule] ∧
    cache = DiagnosticsCache.update {} ((accepted (exchangeResult false)).publishDiagnostics
      (exchangeParams false) quietReading) 0 ∧
    (cache.lookupDirected (topicAliases rule) (ascii "recv") 0).isSome = true ∧
    ¬(cache.lookupDirected (topicAliases rule) (ascii "send") 0).isSome = true := by
  have hok : (exchangeResult false).isOk = true := by decide +kernel
  have hreceived : ascii "/chat" ∈ (accepted (exchangeResult false)).recvTopics := by
    decide +kernel
  rcases (⟨_, rfl, rfl⟩ : ∃ rule, loadTopicRules (.array (exchangeEntries false)) [] =
    .ok [rule] ∧ topicAliases rule = [ascii "/chat"]) with ⟨rule, hrule, haliases⟩
  have hfound := live_info_found (eq_ok_accepted hok) rfl [] hrule quietReading {} 0 0
  rcases List.forall₂_cons_right_iff.mp hfound with ⟨topic, _, ⟨hinfo, -⟩, -, -⟩
  refine ⟨rule, _, hrule, rfl, hinfo.received.mpr ?_, mt hinfo.sent.mp ?_⟩
  · rw [haliases]
    exact ⟨rfl, ascii "/chat", List.mem_cons_self, hreceived⟩
  · rw [haliases]
    rintro ⟨-, name, hname, -, hother⟩
    rw [List.mem_singleton.mp hname] at hother
    exact hother hreceived

end NetBridge.Tui
