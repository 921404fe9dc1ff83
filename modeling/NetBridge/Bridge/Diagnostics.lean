import NetBridge.Bridge.Admission
import NetBridge.Bridge.Routing
import NetBridge.Topic.Report
import NetBridge.Transport.Presence

/-!
# Diagnostics

`BridgeFactory::publishDiagnostics`, `src/swarm_ros_bridge/src/bridge_factory.cpp:748–879`, and
what the cache keeps of its rows: one row for each sender, receiver, session and node, of which the
cache keeps one for each name.
-/

namespace NetBridge.Bridge

open NetBridge.Base NetBridge.Transport NetBridge.Diagnostics NetBridge.Topic

/-- What a call of `publishDiagnostics` reads: `GetStats` of each session that is not null, the
presence records and the steady clock of the control session, and the metrics of each sender and
receiver. -/
structure DiagnosticsReading where
  controlStats : Option TransportStats
  imageStats : Option TransportStats
  cloudStats : Option TransportStats
  presence : PresenceMap
  steadyNow : Int
  sent : Bytes → MetricsReading
  received : Bytes → MetricsReading

/-- The session of a row, by its name; `bridge_factory.cpp:768–772`. -/
def DiagnosticsReading.statsFor (reading : DiagnosticsReading) (transport : Bytes) :
    TransportStats :=
  if transport = ascii "zenoh-udp" then reading.imageStats.getD {}
  else if transport = ascii "zenoh-cloud-tcp" then reading.cloudStats.getD {}
  else reading.controlStats.getD {}

/-- `append_metrics`; `bridge_factory.cpp:765–812`. -/
def metricsRow (reading : DiagnosticsReading) (factory : TopicFactory)
    (metricsReading : MetricsReading) : NetworkInfo Float32 :=
  let metrics := factory.getMetricsSnapshot metricsReading
  let transportStats := reading.statsFor metrics.transport
  { NetworkInfo.zeroed Float32 with
    name := metrics.topicName
    msgType := metrics.msgType
    direction := metrics.direction
    codec := metrics.codec
    transport := metrics.transport
    qosClass := metrics.qosClass
    configuredRateHz := metrics.configuredRateHz.toFloat32
    sendRateHz := metrics.sendRateHz.toFloat32
    recvRateHz := metrics.recvRateHz.toFloat32
    bandwidthKbps := metrics.bandwidthKbps.toFloat32
    effectiveRecvBandwidthKbps := metrics.effectiveRecvBandwidthKbps.toFloat32
    imageLossRatePct := metrics.imageLossRatePct.toFloat32
    completeFrameSuccessRatePct := metrics.completeFrameSuccessRatePct.toFloat32
    avgLatencyMs := metrics.avgLatencyMs.toFloat32
    jitterMs := metrics.jitterMs.toFloat32
    stabilityScore := metrics.stabilityScore.toFloat32
    lastRecvAgeMs := metrics.lastRecvAgeMs.toFloat32
    adaptiveQualityEnabled := metrics.adaptiveQualityEnabled
    configuredJpegQuality := metrics.configuredJpegQuality
    currentJpegQuality := metrics.currentJpegQuality
    targetBandwidthKbps := metrics.targetBandwidthKbps.toFloat32
    packetSize := metrics.packetSize
    totalMessages := metrics.totalMessages.toUInt32
    droppedMessages := metrics.droppedMessages.toUInt32
    transportQueueDrops := metrics.transportQueueDrops
    expectedFrames := metrics.expectedFrames
    transportCompleteFrames := metrics.transportCompleteFrames
    decodedFrames := metrics.decodedFrames
    inferredLostFrames := metrics.inferredLostFrames
    sequenceResets := metrics.sequenceResets
    sessionConnected := transportStats.sessionOpen
    linkConnected := transportStats.linkConnected
    connectedPeerCount := transportStats.connectedPeerCount
    connectedRouterCount := transportStats.connectedRouterCount }

/-- `append_session`; `bridge_factory.cpp:820–843`. -/
def sessionRow (name direction transportName : Bytes) (stats : TransportStats) :
    NetworkInfo Float32 :=
  { NetworkInfo.zeroed Float32 with
    name
    msgType := ascii "transport"
    direction
    codec := ascii "none"
    transport := transportName
    qosClass :=
      if direction = ascii "image" ∨ direction = ascii "cloud" then ascii "bulk"
      else ascii "service"
    sessionConnected := stats.sessionOpen
    linkConnected := stats.linkConnected
    connectedPeerCount := stats.connectedPeerCount
    connectedRouterCount := stats.connectedRouterCount
    reconnectCount := stats.reconnectCount
    transportQueueDrops := stats.callbackDrops + stats.serviceQueueDrops
    serviceTimeouts := stats.serviceTimeouts
    decodeErrors := stats.receiveDecodeErrors }

/-- The rows of the sessions; `bridge_factory.cpp:845–859`. -/
def sessionRows (params : Parameters) (reading : DiagnosticsReading) :
    List (NetworkInfo Float32) :=
  (reading.controlStats.map (sessionRow (ascii "@zenoh/session/control") (ascii "control")
    (if params.imageSession ∨ params.cloudSession then ascii "zenoh-tcp"
      else ascii "zenoh"))).toList ++
  (reading.imageStats.map (sessionRow (ascii "@zenoh/session/image") (ascii "image")
    (ascii "zenoh-udp"))).toList ++
  (reading.cloudStats.map (sessionRow (ascii "@zenoh/session/cloud") (ascii "cloud")
    (ascii "zenoh-cloud-tcp"))).toList

/-- The row of a node; `bridge_factory.cpp:863–875`. -/
def presenceRow (controlStats : TransportStats) (node : NodePresence) : NetworkInfo Float32 :=
  { NetworkInfo.zeroed Float32 with
    name := ascii "@zenoh/node/" ++ node.hostname
    msgType := ascii "presence"
    direction := if node.online then ascii "online" else ascii "offline"
    codec := ascii "none"
    transport := ascii "zenoh-liveliness"
    nodeHostname := node.hostname
    nodeOnline := node.online
    nodeStateAgeMs := node.stateAgeMs
    nodeOnlineTransitions := node.onlineTransitions
    sessionConnected := controlStats.sessionOpen
    linkConnected := controlStats.linkConnected }

/-- The rows of the nodes; `bridge_factory.cpp:861–877`. -/
def presenceRows (reading : DiagnosticsReading) : List (NetworkInfo Float32) :=
  match reading.controlStats with
  | some controlStats =>
    (nodePresence reading.presence reading.steadyNow).map (presenceRow controlStats)
  | none => []

/-- The rows of the message that `publishDiagnostics` builds; `bridge_factory.cpp:748–879`. -/
def BridgeFactory.publishDiagnostics (bridge : BridgeFactory) (params : Parameters)
    (reading : DiagnosticsReading) : List (NetworkInfo Float32) :=
  (bridge.sendTopics.toList.map fun sender ↦
    metricsRow reading sender.2 (reading.sent sender.1)) ++
  (bridge.recvTopics.toList.map fun receiver ↦
    metricsRow reading receiver.2 (reading.received receiver.1)) ++
  sessionRows params reading ++ presenceRows reading

/-- Some rule is sent from this host under the name of one of its receivers. -/
def SendsWhatItReceives (params : Parameters) (bridge : BridgeFactory) : Prop :=
  ∃ rule ∈ bridge.topicCfgs, rule.srcHostnameMap[bridge.me.hostname]? = some true ∧
    ∃ pair ∈ bridge.pairs params,
      recvName bridge.me pair.1 pair.2 = .ok (sendName bridge.me rule.name)

section

variable {platform : Platform} {msgs : List MessageType} {params : Parameters}
  {hostname droneId : Option Bytes} {bridge : BridgeFactory}

/-! ## Names and directions -/

/-- A sender is there for a rule that is sent from this host, under its name. -/
structure SenderUnder (bridge : BridgeFactory) (name : Bytes) (factory : TopicFactory) : Prop where
  rule : ∃ rule ∈ bridge.topicCfgs,
    rule.srcHostnameMap[bridge.me.hostname]? = some true ∧ sendName bridge.me rule.name = name
  isGlobal : name.head? = some slash
  named : factory.topicCfg.name = name
  direction : factory.sendOrRecv = .send

/-- A receiver is there for a pair of a rule and a source, under its name. -/
structure ReceiverUnder (params : Parameters) (bridge : BridgeFactory) (name : Bytes)
    (factory : TopicFactory) : Prop where
  pair : ∃ pair ∈ bridge.pairs params, recvName bridge.me pair.1 pair.2 = .ok name
  isGlobal : name.head? = some slash
  named : factory.topicCfg.name = name
  direction : factory.sendOrRecv = .recv

/-- The rules of a bridge have global names. -/
theorem rule_isGlobal
    (hb : constructBridge platform msgs params hostname droneId = .ok bridge) {rule : TopicCfg}
    (hrule : rule ∈ bridge.topicCfgs) : rule.name.head? = some slash := by
  obtain ⟨_, rules, hrules, hcfgs, _, _⟩ := constructBridge_eq_ok hb
  rw [hcfgs] at hrule
  obtain ⟨shared, hshared, rfl⟩ := List.mem_map.mp hrule
  exact (topicRules_eq_ok hrules shared hshared).isGlobal

/-- What the first loop has put under a name. -/
theorem senderUnder
    (hb : constructBridge platform msgs params hostname droneId = .ok bridge) {name : Bytes}
    {factory : TopicFactory} (hfactory : bridge.sendTopics[name]? = some factory) :
    SenderUnder bridge name factory := by
  obtain ⟨_, _, _, _, hsend, _⟩ := constructBridge_eq_ok hb
  rw [getElem?_of_assigns hsend, Std.ExtTreeMap.getElem?_empty, Option.or_none] at hfactory
  obtain ⟨rule, hrule, hentry⟩ := exists_of_lastAssigned hfactory
  unfold sendEntry at hentry
  split at hentry
  · next hselected =>
    obtain ⟨topic, hcfg, hentry⟩ := bind_eq_ok.mp hentry
    obtain ⟨rawName, _, hcfg⟩ := bind_eq_ok.mp hcfg
    obtain ⟨made, hmade, hentry⟩ := bind_eq_ok.mp hentry
    have hmade := ofFactory_eq_ok hmade
    cases hcfg
    cases hentry
    refine ⟨⟨rule, hrule, hselected, rfl⟩, (sendName_depth _ (rule_isGlobal hb hrule)).isGlobal, ?_,
      makeSender_sendOrRecv hmade⟩
    rw [(makeSender_eq_ok hmade).1]
  · cases hentry

/-- A rule that is sent from this host has a sender under its name. -/
theorem exists_sender
    (hb : constructBridge platform msgs params hostname droneId = .ok bridge) {rule : TopicCfg}
    (hrule : rule ∈ bridge.topicCfgs)
    (hselected : rule.srcHostnameMap[bridge.me.hostname]? = some true) :
    ∃ factory, bridge.sendTopics[sendName bridge.me rule.name]? = some factory := by
  obtain ⟨_, _, _, _, hsend, _⟩ := constructBridge_eq_ok hb
  obtain ⟨last, hlast⟩ := exists_lastSending hrule hselected
  obtain ⟨factory, hassigned, _⟩ := entry_of_lastSending (entry_of_assigns hsend) hlast
  rw [getElem?_of_assigns hsend, hassigned]
  exact ⟨factory, rfl⟩

/-- What the second loop has put under a name. -/
theorem receiverUnder
    (hb : constructBridge platform msgs params hostname droneId = .ok bridge) {name : Bytes}
    {factory : TopicFactory} (hfactory : bridge.recvTopics[name]? = some factory) :
    ReceiverUnder params bridge name factory := by
  obtain ⟨_, _, _, _, _, hrecv⟩ := constructBridge_eq_ok hb
  obtain ⟨pair, hpair, hentry⟩ := (filled_of_construct hb).sound name factory hfactory
  refine ⟨⟨pair, hpair, hentry.named⟩, recvName_isGlobal hb hpair hentry.named, ?_,
    sendOrRecv_of_recvRounds hrecv hfactory⟩
  have hname := recvName_of_recvCfg hentry.receiver.created
  rw [hentry.named] at hname
  exact (Except.ok.inj hname).symm

/-- A pair has a receiver under its name. -/
theorem exists_receiver
    (hb : constructBridge platform msgs params hostname droneId = .ok bridge)
    {pair : TopicCfg × Bytes} (hpair : pair ∈ bridge.pairs params) {name : Bytes}
    (hname : recvName bridge.me pair.1 pair.2 = .ok name) :
    ∃ factory, bridge.recvTopics[name]? = some factory := by
  obtain ⟨name', factory, hentry, hfactory⟩ := (filled_of_construct hb).complete pair hpair
  rw [hentry.named] at hname
  rw [← Except.ok.inj hname]
  exact ⟨factory, hfactory⟩

/-! ## Rows -/

/-- The rows of the senders. -/
def sendRows (bridge : BridgeFactory) (reading : DiagnosticsReading) : List (NetworkInfo Float32) :=
  bridge.sendTopics.toList.map fun sender ↦ metricsRow reading sender.2 (reading.sent sender.1)

/-- The rows of the receivers. -/
def recvRows (bridge : BridgeFactory) (reading : DiagnosticsReading) : List (NetworkInfo Float32) :=
  bridge.recvTopics.toList.map fun receiver ↦
    metricsRow reading receiver.2 (reading.received receiver.1)

/-- The row of a factory has the name and direction of the factory. -/
theorem metricsRow_labels (reading : DiagnosticsReading) (factory : TopicFactory)
    (metricsReading : MetricsReading) :
    (metricsRow reading factory metricsReading).name = factory.topicCfg.name ∧
      (metricsRow reading factory metricsReading).direction = factory.sendOrRecv.direction :=
  ⟨rfl, rfl⟩

/-- A row of a factory map: factories that are filed under their names have distinct ones. -/
theorem determines_metricsRows (reading : DiagnosticsReading)
    {topics : Std.ExtTreeMap Bytes TopicFactory}
    (hnamed : ∀ (name : Bytes) (factory : TopicFactory),
      topics[name]? = some factory → factory.topicCfg.name = name)
    (metricsReading : Bytes → MetricsReading) :
    Determines NetworkInfo.name (topics.toList.map fun item ↦
      metricsRow reading item.2 (metricsReading item.1)) := by
  apply determines_of_nodup
  have hnames : (topics.toList.map fun item ↦
      metricsRow reading item.2 (metricsReading item.1)).map NetworkInfo.name =
        topics.toList.map Prod.fst := by
    rw [List.map_map]
    exact List.map_congr_left fun item hitem ↦
      hnamed item.1 item.2 (Std.ExtTreeMap.mem_toList_iff_getElem?_eq_some.mp hitem)
  rw [hnames, List.Nodup, List.pairwise_map]
  refine Std.ExtTreeMap.distinct_keys_toList.imp ?_
  intro a b hab he
  exact hab (Std.LawfulEqCmp.compare_eq_iff_eq.mpr he)

/-- A row of a sender. -/
theorem mem_sendRows
    (hb : constructBridge platform msgs params hostname droneId = .ok bridge)
    {reading : DiagnosticsReading} {row : NetworkInfo Float32}
    (h : row ∈ sendRows bridge reading) :
    ∃ factory, SenderUnder bridge row.name factory ∧ row.direction = ascii "send" := by
  obtain ⟨sender, hsender, rfl⟩ := List.mem_map.mp h
  have hunder := senderUnder hb (Std.ExtTreeMap.mem_toList_iff_getElem?_eq_some.mp hsender)
  obtain ⟨hname, hdirection⟩ :=
    metricsRow_labels reading sender.2 (reading.sent sender.1)
  rw [hname, hdirection, hunder.named, hunder.direction]
  exact ⟨sender.2, hunder, rfl⟩

/-- A row of a receiver. -/
theorem mem_recvRows
    (hb : constructBridge platform msgs params hostname droneId = .ok bridge)
    {reading : DiagnosticsReading} {row : NetworkInfo Float32}
    (h : row ∈ recvRows bridge reading) :
    ∃ factory, ReceiverUnder params bridge row.name factory ∧ row.direction = ascii "recv" := by
  obtain ⟨receiver, hreceiver, rfl⟩ := List.mem_map.mp h
  have hunder := receiverUnder hb (Std.ExtTreeMap.mem_toList_iff_getElem?_eq_some.mp hreceiver)
  obtain ⟨hname, hdirection⟩ :=
    metricsRow_labels reading receiver.2 (reading.received receiver.1)
  rw [hname, hdirection, hunder.named, hunder.direction]
  exact ⟨receiver.2, hunder, rfl⟩

private theorem names_sessionRow (name direction transportName : Bytes)
    (stats : Option TransportStats) :
    ((stats.map (sessionRow name direction transportName)).toList.map NetworkInfo.name).Sublist
      [name] := by
  cases stats with
  | none => exact List.nil_sublist _
  | some stats => exact List.Sublist.refl _

/-- The names of the session rows. -/
theorem names_sessionRows (params : Parameters) (reading : DiagnosticsReading) :
    ((sessionRows params reading).map NetworkInfo.name).Sublist
      [ascii "@zenoh/session/control", ascii "@zenoh/session/image",
        ascii "@zenoh/session/cloud"] := by
  rw [sessionRows, List.map_append, List.map_append]
  exact ((names_sessionRow ..).append (names_sessionRow ..)).append (names_sessionRow ..)

/-- Each node has a row of its own. -/
theorem determines_presenceRows (reading : DiagnosticsReading) :
    Determines NetworkInfo.name (presenceRows reading) := by
  unfold presenceRows
  split
  · next controlStats _ =>
    apply determines_of_nodup
    have hnames : ((nodePresence reading.presence reading.steadyNow).map
        (presenceRow controlStats)).map NetworkInfo.name =
          (reading.presence.toList.map Prod.fst).map (ascii "@zenoh/node/" ++ ·) := by
      simp only [nodePresence, List.map_map]
      rfl
    rw [hnames]
    apply List.Nodup.map fun host host' h ↦ List.append_cancel_left h
    rw [List.Nodup, List.pairwise_map]
    refine Std.ExtTreeMap.distinct_keys_toList.imp ?_
    intro a b hab he
    exact hab (Std.LawfulEqCmp.compare_eq_iff_eq.mpr he)
  · intro row hrow
    cases hrow

/-- The name of a node row. -/
theorem names_presenceRows {reading : DiagnosticsReading} {row : NetworkInfo Float32}
    (h : row ∈ presenceRows reading) : ∃ host, row.name = ascii "@zenoh/node/" ++ host := by
  unfold presenceRows at h
  split at h
  · obtain ⟨node, _, rfl⟩ := List.mem_map.mp h
    exact ⟨node.hostname, rfl⟩
  · cases h

/-- The rows of sessions have names of their own kind. -/
theorem names_of_mem_sessionRows {reading : DiagnosticsReading} {row : NetworkInfo Float32}
    (hrow : row ∈ sessionRows params reading) :
    ∃ rest, row.name = ascii "@zenoh/session/" ++ rest := by
  have hmem := (names_sessionRows params reading).mem (List.mem_map_of_mem hrow)
  simp only [List.mem_cons, List.not_mem_nil, or_false] at hmem
  rcases hmem with h | h | h
  · exact ⟨ascii "control", h⟩
  · exact ⟨ascii "image", h⟩
  · exact ⟨ascii "cloud", h⟩

/-- The rows of topics have global names. -/
theorem isGlobal_of_mem_topicRows
    (hb : constructBridge platform msgs params hostname droneId = .ok bridge)
    {reading : DiagnosticsReading} {row : NetworkInfo Float32}
    (hrow : row ∈ sendRows bridge reading ++ recvRows bridge reading) :
    row.name.head? = some slash := by
  rcases List.mem_append.mp hrow with hrow | hrow
  · obtain ⟨_, hunder, -⟩ := mem_sendRows hb hrow
    exact hunder.isGlobal
  · obtain ⟨_, hunder, -⟩ := mem_recvRows hb hrow
    exact hunder.isGlobal

/-- Where nothing is sent that is received, the topics have rows of their own. -/
theorem determines_topicRows
    (hb : constructBridge platform msgs params hostname droneId = .ok bridge)
    (hapart : ¬ SendsWhatItReceives params bridge) (reading : DiagnosticsReading) :
    Determines NetworkInfo.name (sendRows bridge reading ++ recvRows bridge reading) := by
  have hsend : Determines NetworkInfo.name (sendRows bridge reading) :=
    determines_metricsRows reading (fun _ _ hf ↦ (senderUnder hb hf).named) reading.sent
  have hrecv : Determines NetworkInfo.name (recvRows bridge reading) :=
    determines_metricsRows reading (fun _ _ hf ↦ (receiverUnder hb hf).named) reading.received
  apply hsend.append hrecv
  intro row hrow row' hrow' hname
  obtain ⟨_, hunder, -⟩ := mem_sendRows hb hrow
  obtain ⟨_, hunder', -⟩ := mem_recvRows hb hrow'
  obtain ⟨rule, hrule, hselected, hsent⟩ := hunder.rule
  obtain ⟨pair, hpair, hreceived⟩ := hunder'.pair
  apply hapart
  refine ⟨rule, hrule, hselected, pair, hpair, ?_⟩
  rw [hreceived, hsent, hname]

/-- No two rows share a name unless a topic is sent and received. -/
theorem determines_publishDiagnostics
    (hb : constructBridge platform msgs params hostname droneId = .ok bridge)
    (hapart : ¬ SendsWhatItReceives params bridge) (reading : DiagnosticsReading) :
    Determines NetworkInfo.name (bridge.publishDiagnostics params reading) := by
  have hsession : Determines NetworkInfo.name (sessionRows params reading) := by
    apply determines_of_nodup
    exact (names_sessionRows params reading).nodup (by decide)
  show Determines NetworkInfo.name
    (sendRows bridge reading ++ recvRows bridge reading ++ sessionRows params reading ++
      presenceRows reading)
  -- topics begin with a slash, sessions and nodes with an at sign
  apply ((determines_topicRows hb hapart reading).append hsession ?_).append
    (determines_presenceRows reading)
  · intro row hrow row' hrow' hname
    obtain ⟨host, hhost⟩ := names_presenceRows hrow'
    rcases List.mem_append.mp hrow with hrow | hrow
    · have hhead := isGlobal_of_mem_topicRows hb hrow
      rw [hname, hhost, List.head?_append_of_ne_nil _ (by decide)] at hhead
      exact absurd hhead (by decide)
    · obtain ⟨rest, hrest⟩ := names_of_mem_sessionRows hrow
      rw [hrest, hhost] at hname
      have hfirst := congrArg (List.take 8) hname
      rw [List.take_append_of_le_length (by decide), List.take_append_of_le_length (by decide)]
        at hfirst
      exact absurd hfirst (by decide)
  · intro row hrow row' hrow' hname
    obtain ⟨rest, hrest⟩ := names_of_mem_sessionRows hrow'
    have hhead := isGlobal_of_mem_topicRows hb hrow
    rw [hname, hrest, List.head?_append_of_ne_nil _ (by decide)] at hhead
    exact absurd hhead (by decide)

/-- A topic that is sent and received under one name has two rows with this name, of different
directions. -/
theorem not_determines_of_sends
    (hb : constructBridge platform msgs params hostname droneId = .ok bridge)
    (hsends : SendsWhatItReceives params bridge) (reading : DiagnosticsReading) :
    ¬ Determines NetworkInfo.name (bridge.publishDiagnostics params reading) := by
  intro hdetermines
  obtain ⟨rule, hrule, hselected, pair, hpair, hname⟩ := hsends
  obtain ⟨sender, hsender⟩ := exists_sender hb hrule hselected
  obtain ⟨receiver, hreceiver⟩ := exists_receiver hb hpair hname
  have hs := senderUnder hb hsender
  have hr := receiverUnder hb hreceiver
  have hsent : metricsRow reading sender (reading.sent (sendName bridge.me rule.name)) ∈
      bridge.publishDiagnostics params reading := by
    apply List.mem_append_left
    apply List.mem_append_left
    apply List.mem_append_left
    exact List.mem_map.mpr ⟨(_, sender),
      Std.ExtTreeMap.mem_toList_iff_getElem?_eq_some.mpr hsender, rfl⟩
  have hreceived : metricsRow reading receiver (reading.received (sendName bridge.me rule.name)) ∈
      bridge.publishDiagnostics params reading := by
    apply List.mem_append_left
    apply List.mem_append_left
    apply List.mem_append_right
    exact List.mem_map.mpr ⟨(_, receiver),
      Std.ExtTreeMap.mem_toList_iff_getElem?_eq_some.mpr hreceiver, rfl⟩
  obtain ⟨hsname, hsdirection⟩ :=
    metricsRow_labels reading sender (reading.sent (sendName bridge.me rule.name))
  obtain ⟨hrname, hrdirection⟩ :=
    metricsRow_labels reading receiver (reading.received (sendName bridge.me rule.name))
  have hsame := hdetermines _ hsent _ hreceived (by rw [hrname, hsname, hs.named, hr.named])
  have hdirections := congrArg NetworkInfo.direction hsame
  rw [hrdirection, hsdirection, hs.direction, hr.direction] at hdirections
  exact absurd hdirections (by decide)

/-- A fresh cache shows every row that a bridge has published exactly when no rule is sent from
the host under the name of one of its receivers. -/
theorem diagnostics_shown_iff
    (hb : constructBridge platform msgs params hostname droneId = .ok bridge)
    (reading : DiagnosticsReading) (cache : DiagnosticsCache Float32) {updated now : Int}
    (hfresh : now - updated ≤ DiagnosticsCache.shownAge) :
    (∀ row ∈ bridge.publishDiagnostics params reading,
        (cache.update (bridge.publishDiagnostics params reading) updated).Shows now row) ↔
      ¬ SendsWhatItReceives params bridge := by
  rw [DiagnosticsCache.shows_all_iff cache hfresh]
  constructor
  · intro hdetermines hsends
    exact not_determines_of_sends hb hsends reading hdetermines
  · intro hapart
    exact determines_publishDiagnostics hb hapart reading

end

/-! ## A topic in both directions -/

/-- All hosts exchange `/chat`, with or without the name of the source before it. -/
def exchangeParams (sourceBefore : Bool) : Parameters where
  hosts := some (.array [.string (ascii "drone1"), .string (ascii "groundStation0")])
  topics := some (.array [.struct [
    (ascii "topic_name", .string (ascii "/chat")),
    (ascii "msg_type", .string (ascii "std_msgs/String")),
    (ascii "qos_class", .string (ascii "command")),
    (ascii "prefix", .boolean sourceBefore),
    (ascii "srcIP", .array [.string (ascii "all")]),
    (ascii "dstIP", .array [.string (ascii "all")])]])

/-- What the constructor makes of these parameters on the ground station. -/
def exchangeResult (sourceBefore : Bool) : Accepted BridgeFactory :=
  constructBridge documentedPlatform stringMessages (exchangeParams sourceBefore)
    (some (ascii "groundStation0")) none

/-- Sessions that are open and a factory that has done nothing. -/
def quietReading : DiagnosticsReading where
  controlStats := some { sessionOpen := true }
  imageStats := none
  cloudStats := none
  presence := ∅
  steadyNow := 0
  sent _ := ⟨{}, {}, {}⟩
  received _ := ⟨{}, {}, {}⟩

/-- With the source before the name all rows are shown. -/
theorem diagnostics_shown_exchange :
    (exchangeResult true).isOk = true ∧
    ∀ row ∈ (accepted (exchangeResult true)).publishDiagnostics (exchangeParams true) quietReading,
      (DiagnosticsCache.update {} ((accepted (exchangeResult true)).publishDiagnostics
        (exchangeParams true) quietReading) 0).Shows 0 row := by
  obtain ⟨hok, hapart⟩ : (exchangeResult true).isOk = true ∧
      ¬SendsWhatItReceives (exchangeParams true) (accepted (exchangeResult true)) := by
    unfold SendsWhatItReceives
    decide +kernel
  refine ⟨hok, ?_⟩
  exact (diagnostics_shown_iff (eq_ok_accepted hok) quietReading {} (by decide)).mpr hapart

/-- Without it the ground station sends and receives `/chat`, and the cache loses a row. -/
theorem row_of_other_direction_lost :
    ¬ ∀ row ∈ (accepted (exchangeResult false)).publishDiagnostics (exchangeParams false)
        quietReading,
      (DiagnosticsCache.update {} ((accepted (exchangeResult false)).publishDiagnostics
        (exchangeParams false) quietReading) 0).Shows 0 row := by
  intro hshown
  obtain ⟨hok, hsends⟩ : (exchangeResult false).isOk = true ∧
      SendsWhatItReceives (exchangeParams false) (accepted (exchangeResult false)) := by
    unfold SendsWhatItReceives
    decide +kernel
  apply not_determines_of_sends (eq_ok_accepted hok) hsends quietReading
  exact (DiagnosticsCache.shows_all_iff {} (by decide)).mp hshown

end NetBridge.Bridge
