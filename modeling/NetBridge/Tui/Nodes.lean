import NetBridge.Bridge.Diagnostics
import NetBridge.Tui.Screens

/-!
# The nodes of the interface

The way of the liveliness events: the control session keeps them,
`src/swarm_ros_bridge/src/transport/zenoh_transport.cpp:184–207,267–330`, the bridge publishes its
records, `src/bridge_factory.cpp:861–878`, the user interface caches the message,
`src/nodes/bridge_tui_main.cpp:63–69`, and counts and shows the nodes,
`src/tui/hosts_screen.cpp:57–75,108–114`, `src/tui/overview_screen.cpp:120–148`. Of the
publications any may be lost on the way.
-/

namespace NetBridge.Tui

open NetBridge.Base NetBridge.Transport NetBridge.Config NetBridge.Diagnostics NetBridge.Topic
  NetBridge.Bridge

variable {β : Type}

/-! ## What the screens tell -/

/-- The status of a node. -/
inductive NodeState where
  | online
  | offline
  | unknown
deriving DecidableEq

/-- The status by the row that `LookupNode` finds; `hosts_screen.cpp:110–114`. -/
def nodeState : Option (NetworkInfo β) → NodeState
  | none => .unknown
  | some presence => if presence.nodeOnline then .online else .offline

/-- The numbers of nodes of each status. -/
structure NodeCounts where
  online : Nat := 0
  offline : Nat := 0
  unknown : Nat := 0
deriving DecidableEq

/-- One node more. -/
def NodeCounts.add (counts : NodeCounts) : NodeState → NodeCounts
  | .online => { counts with online := counts.online + 1 }
  | .offline => { counts with offline := counts.offline + 1 }
  | .unknown => { counts with unknown := counts.unknown + 1 }

/-- The counts of the hosts screen; `hosts_screen.cpp:62–75`. -/
def hostsScreenCounts (cache : DiagnosticsCache β) (hostEntries : List Bytes) (now : Int) :
    NodeCounts :=
  hostEntries.foldl (fun counts hostname ↦
    counts.add (nodeState (cache.lookupNode hostname now))) {}

/-- `observed_nodes`; `overview_screen.cpp:126–136`. -/
def observedNodes (cache : DiagnosticsCache β) (now : Int) : Std.ExtTreeMap Bytes Bool :=
  (cache.nodeSnapshot.filter fun node ↦ !node.nodeHostname.isEmpty && cache.isFresh now).foldl
    (fun observed node ↦ observed.insert node.nodeHostname node.nodeOnline) ∅

/-- The counts of the overview, whose `node_names` are those of the host list;
`overview_screen.cpp:120–148`. -/
def overviewCounts (config : BridgeConfig) (cache : DiagnosticsCache β) (now : Int) : NodeCounts :=
  (App.hostNames config cache).foldl (fun counts hostname ↦
    counts.add (match (observedNodes cache now)[hostname]? with
      | none => .unknown
      | some online => if online then .online else .offline)) {}

/-! ## The way of an event -/

/-- The event that a sample is taken for; `zenoh_transport.cpp:190–201`. -/
def presenceEvent (sample : LivelinessSample) : Option PresenceEvent :=
  match parseAliveKey sample.keyexpr (some []) with
  | (true, some discoveredHostname) => some ⟨discoveredHostname, sample.kind = .put, sample.time⟩
  | _ => none

/-- A publication, with the events the control session had seen and its clock. -/
structure Publication where
  rows : List (NetworkInfo Float32)
  seen : List PresenceEvent
  steadyNow : Int

/-- The records of the control session, the publications on their way, and the cache. It is recorded
which events there were and which publication the cache has. -/
structure Monitor where
  announced : Bool := false
  presence : PresenceMap := ∅
  seen : List PresenceEvent := []
  inFlight : List Publication := []
  cache : DiagnosticsCache Float32 := {}
  shown : Option Publication := none

/-- What happens to the records and on the way. -/
inductive MonitorAction where
  | liveliness (sample : LivelinessSample)
  /-- The constructor of the control session has entered its own host. -/
  | announce (time : Int)
  | publish (controlStats : TransportStats) (reading : DiagnosticsReading)
  | lose (index : Nat)
  | arrive (now : Int)

namespace Monitor

/-- One step, where it is enabled. The alive key of a host without a name is no key expression, and
there is no session then. -/
def step (bridge : BridgeFactory) (params : Parameters) (s : Monitor) :
    MonitorAction → Option Monitor
  | .liveliness sample => some { s with
      presence := onLiveliness s.presence sample
      seen := s.seen ++ (presenceEvent sample).toList }
  | .announce time =>
    if s.announced ∨ bridge.me.hostname = [] then none
    else some { s with
      announced := true
      presence := updatePresence s.presence bridge.me.hostname true time
      seen := s.seen ++ [⟨bridge.me.hostname, true, time⟩] }
  | .publish controlStats reading =>
    if !s.announced then none
    else some { s with
      inFlight := s.inFlight ++ [{
        rows := bridge.publishDiagnostics params
          { reading with controlStats := some controlStats, presence := s.presence }
        seen := s.seen
        steadyNow := reading.steadyNow }] }
  | .lose index => some { s with inFlight := s.inFlight.eraseIdx index }
  | .arrive now =>
    match s.inFlight with
    | [] => none
    | publication :: inFlight => some { s with
        inFlight
        cache := s.cache.update publication.rows now
        shown := some publication }

end Monitor

/-- The bridge of a host and an interface on it. -/
def monitor (bridge : BridgeFactory) (params : Parameters) : Machine Monitor MonitorAction where
  init s := s = {}
  step := Monitor.step bridge params

/-- The row of a node says what its events amount to: the last state, how often it has come online,
and how long ago its state last changed. -/
structure Tells (row : NetworkInfo Float32) (history : List (Bool × Int)) (steadyNow : Int) :
    Prop where
  online : lastValue history = some row.nodeOnline
  transitions : row.nodeOnlineTransitions.toNat =
    rises (history.map Prod.fst) % 18446744073709551616
  age : ∃ changed, LatestChange history changed ∧
    row.nodeStateAgeMs = UInt64.ofInt ((steadyNow - changed).tdiv 1000000)

namespace Monitor

/-- The events before the publication that the cache has. -/
def shownEvents (s : Monitor) : List PresenceEvent := (s.shown.map Publication.seen).getD []

/-- While the cache is fresh each host is shown as its events before the publication leave it, and
as unknown without any; the two screens agree on the counts. -/
structure Shows (config : BridgeConfig) (s : Monitor) (now : Int) : Prop where
  known : ∀ host row, s.cache.lookupNode host now = some row →
    ∃ publication, s.shown = some publication ∧
      Tells row (historyOf host publication.seen) publication.steadyNow
  unknown : ∀ host, s.cache.lookupNode host now = none ↔
    s.cache.isFresh now = false ∨ historyOf host s.shownEvents = []
  listed : ∀ host, historyOf host s.shownEvents ≠ [] → host ∈ App.hostNames config s.cache
  agree : overviewCounts config s.cache now =
    hostsScreenCounts s.cache (App.hostNames config s.cache) now

end Monitor

/-! ## The rows of the nodes -/

private theorem onLiveliness_eq (presence : PresenceMap) (sample : LivelinessSample) :
    onLiveliness presence sample =
      (presenceEvent sample).toList.foldl (fun presence event ↦
        updatePresence presence event.hostname event.online event.time) presence := by
  unfold onLiveliness presenceEvent
  cases parseAliveKey sample.keyexpr (some []) with
  | mk accepted found =>
    cases accepted with
    | false => rfl
    | true =>
      cases found with
      | none => rfl
      | some host =>
        cases sample.kind with
        | put => rfl
        | delete => rfl

/-- A sample that is taken for an event has the name of a host. -/
theorem hostname_ne_nil_of_presenceEvent {sample : LivelinessSample} {event : PresenceEvent}
    (h : presenceEvent sample = some event) : event.hostname ≠ [] := by
  unfold presenceEvent at h
  split at h
  · next hostname hparsed =>
    cases h
    rcases eq_aliveKey_of_parseAliveKey (congrArg Prod.fst hparsed) with ⟨parsed, hkey, hne, hslash⟩
    rw [hkey, parseAliveKey_aliveKey, if_neg (not_or.mpr ⟨hne, hslash⟩)] at hparsed
    cases hparsed
    exact hne
  · cases h

/-- The row of a record. -/
def recordRow (controlStats : TransportStats) (steadyNow : Int) (host : Bytes)
    (record : PresenceRecord) : NetworkInfo Float32 :=
  presenceRow controlStats {
    hostname := host
    online := record.online
    stateAgeMs := UInt64.ofInt ((steadyNow - record.stateChangedAt).tdiv 1000000)
    onlineTransitions := record.onlineTransitions }

/-- The rows of the nodes are those of the records. -/
theorem mem_presenceRows_iff {reading : DiagnosticsReading} {controlStats : TransportStats}
    (hstats : reading.controlStats = some controlStats) {row : NetworkInfo Float32} :
    row ∈ presenceRows reading ↔ ∃ host record, reading.presence[host]? = some record ∧
      row = recordRow controlStats reading.steadyNow host record := by
  unfold presenceRows
  rw [hstats]
  simp only [nodePresence, List.map_map, List.mem_map]
  constructor
  · rintro ⟨item, hitem, rfl⟩
    exact ⟨item.1, item.2, Std.ExtTreeMap.mem_toList_iff_getElem?_eq_some.mp hitem, rfl⟩
  · rintro ⟨host, record, hrecord, rfl⟩
    exact ⟨(host, record), Std.ExtTreeMap.mem_toList_iff_getElem?_eq_some.mpr hrecord, rfl⟩

private theorem nodeHostname_of_mem_sessionRows {params : Parameters}
    {reading : DiagnosticsReading} {row : NetworkInfo Float32}
    (h : row ∈ sessionRows params reading) : row.nodeHostname = [] := by
  have hsession : ∀ (name direction transportName : Bytes) (stats : Option TransportStats),
      row ∈ (stats.map (sessionRow name direction transportName)).toList →
        row.nodeHostname = [] := by
    intro name direction transportName stats hrow
    rw [Option.mem_toList, Option.map_eq_some_iff] at hrow
    rcases hrow with ⟨_, _, rfl⟩
    rfl
  rcases List.mem_append.mp h with h | h
  · rcases List.mem_append.mp h with h | h
    · exact hsession _ _ _ _ h
    · exact hsession _ _ _ _ h
  · exact hsession _ _ _ _ h

section

variable {platform : Platform} {msgs : List MessageType} {params : Parameters}
  {hostname droneId : Option Bytes} {bridge : BridgeFactory} {reading : DiagnosticsReading}
  {controlStats : TransportStats}

/-- A row with the name of a node is one of a node. -/
theorem mem_presenceRows_of_name
    (hb : constructBridge platform msgs params hostname droneId = .ok bridge)
    {row : NetworkInfo Float32} (hrow : row ∈ bridge.publishDiagnostics params reading)
    {host : Bytes} (hname : row.name = ascii "@zenoh/node/" ++ host) :
    row ∈ presenceRows reading := by
  rcases List.mem_append.mp hrow with hrow | hrow
  · rcases List.mem_append.mp hrow with hrow | hrow
    · -- topics begin with a slash
      have hhead := isGlobal_of_mem_topicRows hb hrow
      rw [hname, List.head?_append_of_ne_nil _ (by decide)] at hhead
      exact absurd hhead (by decide)
    · obtain ⟨rest, hrest⟩ := names_of_mem_sessionRows hrow
      rw [hrest] at hname
      have hfirst := congrArg (List.take 8) hname
      rw [List.take_append_of_le_length (by decide), List.take_append_of_le_length (by decide)]
        at hfirst
      exact absurd hfirst (by decide)
  · exact hrow

/-- Under the name of a node the message has the row of its record. -/
theorem getElem?_publishDiagnostics
    (hb : constructBridge platform msgs params hostname droneId = .ok bridge)
    (hstats : reading.controlStats = some controlStats) (host : Bytes) :
    (indexBy NetworkInfo.name (bridge.publishDiagnostics params reading))[
        ascii "@zenoh/node/" ++ host]? =
      (reading.presence[host]?).map (recordRow controlStats reading.steadyNow host) := by
  cases hrecord : reading.presence[host]? with
  | none =>
    cases hfound : (indexBy NetworkInfo.name (bridge.publishDiagnostics params reading))[
        ascii "@zenoh/node/" ++ host]? with
    | none => rfl
    | some row =>
      rcases of_getElem?_indexBy hfound with ⟨hrow, hname⟩
      have hnode := mem_presenceRows_of_name hb hrow hname
      rcases (mem_presenceRows_iff hstats).mp hnode with ⟨host', record, hrecord', rfl⟩
      have hhost : host' = host := List.append_cancel_left hname
      rw [hhost, hrecord] at hrecord'
      cases hrecord'
  | some record =>
    have hnode : recordRow controlStats reading.steadyNow host record ∈ presenceRows reading :=
      (mem_presenceRows_iff hstats).mpr ⟨host, record, hrecord, rfl⟩
    apply getElem?_indexBy_self (List.mem_append_right _ hnode)
    intro other hother hname
    exact determines_presenceRows reading _ hnode _ (mem_presenceRows_of_name hb hother hname) hname

/-- The nodes of the cached message are the records. -/
theorem mem_nodeSnapshot_iff
    (hb : constructBridge platform msgs params hostname droneId = .ok bridge)
    (hstats : reading.controlStats = some controlStats) (cache : DiagnosticsCache Float32)
    (now : Int) {row : NetworkInfo Float32} (hne : row.nodeHostname ≠ []) :
    row ∈ (cache.update (bridge.publishDiagnostics params reading) now).nodeSnapshot ↔
      ∃ record, reading.presence[row.nodeHostname]? = some record ∧
        row = recordRow controlStats reading.steadyNow row.nodeHostname record := by
  have hsnapshot : row ∈ (cache.update (bridge.publishDiagnostics params reading) now).snapshot ↔
      (indexBy NetworkInfo.name (bridge.publishDiagnostics params reading))[row.name]? =
        some row := mem_values_indexBy
  rw [DiagnosticsCache.nodeSnapshot, List.mem_filter, hsnapshot]
  constructor
  · rintro ⟨hfound, _⟩
    rcases List.mem_append.mp (of_getElem?_indexBy hfound).1 with hrow | hrow
    · -- only the rows of nodes have a host
      exfalso
      apply hne
      rcases List.mem_append.mp hrow with hrow | hrow
      · rcases List.mem_append.mp hrow with hrow | hrow
        · rcases List.mem_map.mp hrow with ⟨_, _, rfl⟩
          rfl
        · rcases List.mem_map.mp hrow with ⟨_, _, rfl⟩
          rfl
      · exact nodeHostname_of_mem_sessionRows hrow
    · rcases (mem_presenceRows_iff hstats).mp hrow with ⟨host, record, hrecord, rfl⟩
      exact ⟨record, hrecord, rfl⟩
  · rintro ⟨record, hrecord, hrow⟩
    have hname : row.name = ascii "@zenoh/node/" ++ row.nodeHostname := congrArg _ hrow
    have htype : row.msgType = ascii "presence" := congrArg _ hrow
    rw [hname, getElem?_publishDiagnostics hb hstats, hrecord, htype]
    exact ⟨congrArg some hrow.symm, decide_eq_true rfl⟩

/-- The overview observes the records while the cache is fresh. -/
theorem getElem?_observedNodes
    (hb : constructBridge platform msgs params hostname droneId = .ok bridge)
    (hstats : reading.controlStats = some controlStats) (cache : DiagnosticsCache Float32)
    {updated now : Int}
    (hfresh : (cache.update (bridge.publishDiagnostics params reading) updated).isFresh now = true)
    {host : Bytes} (hne : host ≠ []) :
    (observedNodes (cache.update (bridge.publishDiagnostics params reading) updated) now)[host]? =
      (reading.presence[host]?).map PresenceRecord.online := by
  rw [observedNodes, getElem?_foldl_insert]
  have hlisted : ∀ row : NetworkInfo Float32, row.nodeHostname = host →
      (row ∈ (cache.update (bridge.publishDiagnostics params reading) updated).nodeSnapshot.filter
        (fun node ↦ !node.nodeHostname.isEmpty &&
          (cache.update (bridge.publishDiagnostics params reading) updated).isFresh now) ↔
        ∃ record, reading.presence[host]? = some record ∧
          row = recordRow controlStats reading.steadyNow host record) := by
    rintro row rfl
    rw [List.mem_filter, mem_nodeSnapshot_iff hb hstats cache updated hne]
    apply and_iff_left
    rw [hfresh, Bool.and_true, Bool.not_eq_true', List.isEmpty_eq_false_iff]
    exact hne
  cases hrecord : reading.presence[host]? with
  | none =>
    rw [List.find?_eq_none.mpr]
    · rfl
    · intro row hrow hhost
      rcases (hlisted row (of_decide_eq_true hhost)).mp (List.mem_reverse.mp hrow) with ⟨_, h, _⟩
      rw [hrecord] at h
      cases h
  | some record =>
    have hmem := (hlisted (recordRow controlStats reading.steadyNow host record) rfl).mpr
      ⟨record, hrecord, rfl⟩
    have hhost : decide
        ((recordRow controlStats reading.steadyNow host record).nodeHostname = host) = true :=
      decide_eq_true rfl
    rcases exists_find?_reverse (p := fun row : NetworkInfo Float32 ↦
      decide (row.nodeHostname = host)) hmem hhost with ⟨last, hlast, hname, hfind⟩
    rcases (hlisted last (of_decide_eq_true hname)).mp hlast with ⟨record', hrecord', rfl⟩
    rw [hrecord] at hrecord'
    cases hrecord'
    rw [hfind]
    rfl

private theorem getElem?_observedNodes_nil (cache : DiagnosticsCache β) (now : Int) :
    (observedNodes cache now)[([] : Bytes)]? = none := by
  rw [observedNodes, getElem?_foldl_insert, List.find?_eq_none.mpr]
  · rfl
  · intro row hrow hname
    have hkept := (List.mem_filter.mp (List.mem_reverse.mp hrow)).2
    rw [of_decide_eq_true hname] at hkept
    cases hkept

/-- A cache that has grown old observes nothing. -/
theorem getElem?_observedNodes_stale {cache : DiagnosticsCache β} {now : Int}
    (hstale : cache.isFresh now = false) (host : Bytes) :
    (observedNodes cache now)[host]? = none := by
  have hnil : (cache.nodeSnapshot.filter fun node ↦
      !node.nodeHostname.isEmpty && cache.isFresh now) = [] := by
    simp [hstale]
  rw [observedNodes, hnil]
  exact Std.ExtTreeMap.getElem?_empty

/-! ## Runs -/

variable (params bridge) in
/-- A publication has the rows of the records that its events leave. -/
structure Publication.Genuine (publication : Publication) : Prop where
  built : ∃ (controlStats : TransportStats) (reading : DiagnosticsReading),
    reading.controlStats = some controlStats ∧
      reading.presence = presenceAfter publication.seen ∧
      reading.steadyNow = publication.steadyNow ∧
      publication.rows = bridge.publishDiagnostics params reading
  named : ∀ event ∈ publication.seen, event.hostname ≠ []

namespace Monitor

variable (params bridge) in
/-- The records are those of the events, and the publications follow one another. -/
private structure Kept (s : Monitor) : Prop where
  presence : s.presence = presenceAfter s.seen
  named : ∀ event ∈ s.seen, event.hostname ≠ []
  genuine : ∀ publication ∈ s.shown.toList ++ s.inFlight,
    publication.Genuine params bridge ∧ publication.seen <+: s.seen
  order : (s.shown.toList ++ s.inFlight).Pairwise fun publication later ↦
    publication.seen <+: later.seen
  cache : s.shown = none ∧ s.cache = {} ∨
    ∃ publication now, s.shown = some publication ∧
      s.cache = DiagnosticsCache.update {} publication.rows now

private theorem Kept.observe {s : Monitor} (hs : s.Kept params bridge)
    (events : List PresenceEvent) (hnamed : ∀ event ∈ events, event.hostname ≠ [])
    (announced : Bool) : Kept params bridge { s with
      announced
      presence := events.foldl (fun presence event ↦
        updatePresence presence event.hostname event.online event.time) s.presence
      seen := s.seen ++ events } where
  presence := by rw [hs.presence, presenceAfter, ← List.foldl_append, presenceAfter]
  named event hm := (List.mem_append.mp hm).elim (hs.named event) (hnamed event)
  genuine publication hm :=
    ⟨(hs.genuine publication hm).1, (hs.genuine publication hm).2.trans (List.prefix_append _ _)⟩
  order := hs.order
  cache := hs.cache

private theorem kept_step (s : Monitor) (a : MonitorAction) (s' : Monitor)
    (hs : s.Kept params bridge) (h : (monitor bridge params).step s a = some s') :
    s'.Kept params bridge := by
  change Monitor.step bridge params s a = some s' at h
  cases a with
  | liveliness sample =>
    cases h
    have hobserved := hs.observe (presenceEvent sample).toList ?_ s.announced
    · rw [← onLiveliness_eq] at hobserved
      exact hobserved
    · intro event hm
      exact hostname_ne_nil_of_presenceEvent (Option.mem_toList.mp hm)
  | announce time =>
    simp only [step] at h
    split at h
    · cases h
    · next hready =>
      cases h
      apply hs.observe [⟨bridge.me.hostname, true, time⟩]
      intro event hm
      rw [List.mem_singleton.mp hm]
      exact (not_or.mp hready).2
  | publish controlStats reading =>
    simp only [step] at h
    split at h
    · cases h
    · cases h
      refine ⟨hs.presence, hs.named, ?_, ?_, hs.cache⟩
      · intro publication hm
        rw [← List.append_assoc] at hm
        rcases List.mem_append.mp hm with hm | hm
        · exact hs.genuine publication hm
        · rw [List.mem_singleton.mp hm]
          exact ⟨⟨⟨controlStats, { reading with
            controlStats := some controlStats
            presence := s.presence }, rfl, hs.presence, rfl, rfl⟩, hs.named⟩, List.prefix_rfl⟩
      · rw [← List.append_assoc]
        apply List.pairwise_append.mpr
        refine ⟨hs.order, List.pairwise_singleton _ _, ?_⟩
        intro publication hm later hlater
        rw [List.mem_singleton.mp hlater]
        exact (hs.genuine publication hm).2
  | lose index =>
    cases h
    have hsub := (List.eraseIdx_sublist s.inFlight index).append_left s.shown.toList
    exact ⟨hs.presence, hs.named, fun publication hm ↦ hs.genuine publication (hsub.subset hm),
      hs.order.sublist hsub, hs.cache⟩
  | arrive now =>
    simp only [step] at h
    split at h
    · cases h
    · next publication inFlight hflight =>
      cases h
      have hsub : (publication :: inFlight).Sublist (s.shown.toList ++ s.inFlight) := by
        rw [hflight]
        exact List.sublist_append_right _ _
      exact ⟨hs.presence, hs.named, fun publication hm ↦ hs.genuine publication (hsub.subset hm),
        hs.order.sublist hsub, Or.inr ⟨publication, now, rfl, rfl⟩⟩

private theorem kept_of_reachable {s : Monitor} (h : (monitor bridge params).Reachable s) :
    s.Kept params bridge := by
  apply h.invariant
  · rintro _ rfl
    exact ⟨rfl, nofun, nofun, .nil, Or.inl ⟨rfl, rfl⟩⟩
  · exact kept_step

private theorem shownEvents_step {s s' : Monitor} {a : MonitorAction} (hs : s.Kept params bridge)
    (h : (monitor bridge params).step s a = some s') : s.shownEvents <+: s'.shownEvents := by
  change Monitor.step bridge params s a = some s' at h
  cases a with
  | liveliness sample =>
    cases h
    exact List.prefix_rfl
  | announce time =>
    simp only [step] at h
    split at h
    · cases h
    · cases h
      exact List.prefix_rfl
  | publish controlStats reading =>
    simp only [step] at h
    split at h
    · cases h
    · cases h
      exact List.prefix_rfl
  | lose index =>
    cases h
    exact List.prefix_rfl
  | arrive now =>
    simp only [step] at h
    split at h
    · cases h
    · next publication inFlight hflight =>
      cases h
      have horder := hs.order
      rw [hflight] at horder
      unfold shownEvents
      cases hshown : s.shown with
      | none => exact List.nil_prefix
      | some before =>
        rw [hshown] at horder
        exact (List.pairwise_cons.mp horder).1 publication List.mem_cons_self

private theorem shownEvents_run {s t : Monitor} {as : List MonitorAction}
    (hs : s.Kept params bridge) (h : (monitor bridge params).run s as = some t) :
    s.shownEvents <+: t.shownEvents := by
  induction as generalizing s with
  | nil =>
    cases h
    exact List.prefix_rfl
  | cons a as ih =>
    rcases Machine.run_cons_eq_some.mp h with ⟨mid, hstep, hrun⟩
    exact (shownEvents_step hs hstep).trans (ih (kept_step s a mid hs hstep) hrun)

end Monitor

private theorem tells_recordRow {controlStats : TransportStats} {steadyNow : Int} {host : Bytes}
    {record : PresenceRecord} {history : List (Bool × Int)} (h : record.Accounts history) :
    Tells (recordRow controlStats steadyNow host record) history steadyNow :=
  ⟨h.online, h.transitions, record.stateChangedAt, h.changed, rfl⟩

private theorem presenceAfter_eq_none_iff {events : List PresenceEvent} {host : Bytes} :
    (presenceAfter events)[host]? = none ↔ historyOf host events = [] := by
  rcases presenceAfter_accounts events host with ⟨hnil, hnone⟩ | ⟨record, hrecord, haccounts⟩
  · simp only [hnil, hnone]
  · have hne : historyOf host events ≠ [] := by
      intro hnil
      have honline := haccounts.online
      rw [hnil] at honline
      cases honline
    simp only [hrecord, hne, reduceCtorEq]

private theorem lookupNode_update
    (hb : constructBridge platform msgs params hostname droneId = .ok bridge)
    (hstats : reading.controlStats = some controlStats) (cache : DiagnosticsCache Float32)
    {updated now : Int}
    (hfresh : (cache.update (bridge.publishDiagnostics params reading) updated).isFresh now = true)
    (host : Bytes) :
    (cache.update (bridge.publishDiagnostics params reading) updated).lookupNode host now =
      (reading.presence[host]?).map (recordRow controlStats reading.steadyNow host) := by
  have hlatest := getElem?_publishDiagnostics hb hstats host
  have hlocked : (cache.update (bridge.publishDiagnostics params reading) updated).isFreshLocked
      DiagnosticsCache.shownAge now = true := hfresh
  have hcache : (cache.update (bridge.publishDiagnostics params reading) updated).latest =
      indexBy NetworkInfo.name (bridge.publishDiagnostics params reading) := rfl
  rw [DiagnosticsCache.lookupNode, hlocked, hcache, hlatest]
  cases reading.presence[host]? with
  | none => rfl
  | some record => rfl

private theorem lookupNode_stale {cache : DiagnosticsCache β} {now : Int}
    (hstale : cache.isFresh now = false) (host : Bytes) : cache.lookupNode host now = none := by
  have hlocked : cache.isFreshLocked DiagnosticsCache.shownAge now = false := hstale
  rw [DiagnosticsCache.lookupNode, hlocked]
  rfl

private theorem overviewCounts_eq {config : BridgeConfig} {cache : DiagnosticsCache β} {now : Int}
    (h : ∀ host, (observedNodes cache now)[host]? =
      (cache.lookupNode host now).map NetworkInfo.nodeOnline) :
    overviewCounts config cache now =
      hostsScreenCounts cache (App.hostNames config cache) now := by
  apply List.foldl_ext
  intro counts host _
  rw [h host]
  cases cache.lookupNode host now with
  | none => rfl
  | some row => rfl

private theorem shows_stale {config : BridgeConfig} {s : Monitor} {now : Int}
    (hstale : s.cache.isFresh now = false)
    (hlisted : ∀ host, historyOf host s.shownEvents ≠ [] → host ∈ App.hostNames config s.cache) :
    s.Shows config now where
  known host row hfound := by
    rw [lookupNode_stale hstale] at hfound
    cases hfound
  unknown host := iff_of_true (lookupNode_stale hstale host) (Or.inl hstale)
  listed := hlisted
  agree := by
    apply overviewCounts_eq
    intro host
    rw [getElem?_observedNodes_stale hstale, lookupNode_stale hstale]
    rfl

private theorem listed_of_genuine
    (hb : constructBridge platform msgs params hostname droneId = .ok bridge)
    {publication : Publication} (hgenuine : publication.Genuine params bridge)
    (config : BridgeConfig) (updated : Int) {host : Bytes}
    (hevents : historyOf host publication.seen ≠ []) :
    host ∈ App.hostNames config (DiagnosticsCache.update {} publication.rows updated) := by
  rcases hgenuine.built with ⟨controlStats, reading, hstats, hpresence, -, hrows⟩
  have hne : host ≠ [] := by
    rcases List.exists_mem_of_ne_nil _ hevents with ⟨_, hm⟩
    rcases List.mem_map.mp hm with ⟨event, hevent, -⟩
    rw [List.mem_filter, decide_eq_true_eq] at hevent
    rw [← hevent.2]
    exact hgenuine.named event hevent.1
  have hrecorded : reading.presence[host]? ≠ none := by
    rw [hpresence]
    exact (not_congr presenceAfter_eq_none_iff).mpr hevents
  rcases Option.ne_none_iff_exists'.mp hrecorded with ⟨record, hrecord⟩
  apply App.mem_hostNames.mpr
  right
  refine ⟨recordRow controlStats reading.steadyNow host record, ?_, rfl, hne⟩
  rw [hrows]
  exact (mem_nodeSnapshot_iff hb hstats {} updated hne).mpr ⟨record, hrecord, rfl⟩

private theorem shows_fresh
    (hb : constructBridge platform msgs params hostname droneId = .ok bridge)
    (config : BridgeConfig) {s : Monitor} {publication : Publication}
    (hgenuine : publication.Genuine params bridge) (hshown : s.shown = some publication)
    {updated now : Int} (hcache : s.cache = DiagnosticsCache.update {} publication.rows updated)
    (hfresh : s.cache.isFresh now = true) : s.Shows config now := by
  have hevents : s.shownEvents = publication.seen := by
    rw [Monitor.shownEvents, hshown]
    rfl
  rcases hgenuine.built with ⟨controlStats, reading, hstats, hpresence, hnow, hrows⟩
  rw [hcache, hrows] at hfresh
  have hlookup : ∀ host, s.cache.lookupNode host now =
      ((presenceAfter publication.seen)[host]?).map
        (recordRow controlStats publication.steadyNow host) := by
    intro host
    rw [hcache, hrows, lookupNode_update hb hstats {} hfresh, hpresence, hnow]
  constructor
  · intro host row hfound
    rw [hlookup, Option.map_eq_some_iff] at hfound
    rcases hfound with ⟨record, hrecord, rfl⟩
    refine ⟨publication, hshown, ?_⟩
    rcases presenceAfter_accounts publication.seen host with ⟨-, hnone⟩ | ⟨_, hsome, haccounts⟩
    · rw [hrecord] at hnone
      cases hnone
    · rw [hrecord] at hsome
      cases hsome
      exact tells_recordRow haccounts
  · intro host
    rw [hlookup, Option.map_eq_none_iff, presenceAfter_eq_none_iff, hevents, hcache, hrows, hfresh]
    simp only [Bool.true_eq_false, false_or]
  · intro host hne
    rw [hevents] at hne
    rw [hcache]
    exact listed_of_genuine hb hgenuine config updated hne
  · apply overviewCounts_eq
    intro host
    by_cases hne : host = []
    · -- no event is of a host without a name
      have hnone : (presenceAfter publication.seen)[host]? = none := by
        rw [presenceAfter_eq_none_iff, historyOf, List.map_eq_nil_iff, List.filter_eq_nil_iff]
        intro event hm hhost
        exact hgenuine.named event hm ((of_decide_eq_true hhost).trans hne)
      rw [hlookup, hnone, hne]
      exact getElem?_observedNodes_nil _ _
    · rw [hlookup, hcache, hrows, getElem?_observedNodes hb hstats {} hfresh hne, hpresence,
        Option.map_map]
      rfl

/-- Whatever is lost on the way: while its diagnostics are fresh, the interface shows of each host
what the events before one publication amount to, on both screens, and later it never shows what
fewer events do. -/
theorem nodes_shown (hb : constructBridge platform msgs params hostname droneId = .ok bridge)
    (config : BridgeConfig) (s : Monitor) (h : (monitor bridge params).Reachable s) :
    s.shownEvents <+: s.seen ∧ (∀ now, s.Shows config now) ∧
      ∀ as t, (monitor bridge params).run s as = some t → s.shownEvents <+: t.shownEvents := by
  have hs := Monitor.kept_of_reachable h
  refine ⟨?_, ?_, fun as t hrun ↦ Monitor.shownEvents_run hs hrun⟩
  · unfold Monitor.shownEvents
    cases hshown : s.shown with
    | none => exact List.nil_prefix
    | some publication =>
      apply (hs.genuine publication _).2
      rw [hshown]
      exact List.mem_cons_self
  · intro now
    rcases hs.cache with ⟨hshown, hcache⟩ | ⟨publication, updated, hshown, hcache⟩
    · apply shows_stale
      · rw [hcache]
        rfl
      · intro host hne
        rw [Monitor.shownEvents, hshown] at hne
        exact absurd rfl hne
    · have hgenuine : publication.Genuine params bridge := by
        apply (hs.genuine publication _).1
        rw [hshown]
        exact List.mem_cons_self
      cases hfresh : s.cache.isFresh now with
      | true => exact shows_fresh hb config hgenuine hshown hcache hfresh
      | false =>
        apply shows_stale hfresh
        intro host hne
        rw [Monitor.shownEvents, hshown] at hne
        rw [hcache]
        exact listed_of_genuine hb hgenuine config updated hne

end

/-- The ground station sees a drone come and publishes it. -/
theorem nodes_shown_drone : (exchangeResult true).isOk = true ∧ ∃ s : Monitor,
    (monitor (accepted (exchangeResult true)) (exchangeParams true)).run {}
      [.announce 5, .liveliness ⟨aliveKey (ascii "drone1"), .put, 7⟩, .publish {} quietReading,
        .arrive 10] = some s ∧
      s.shownEvents.length = 2 ∧ ∀ now, s.Shows {} now := by
  obtain ⟨hok, hrun⟩ : (exchangeResult true).isOk = true ∧
      ((monitor (accepted (exchangeResult true)) (exchangeParams true)).run {}
        [.announce 5, .liveliness ⟨aliveKey (ascii "drone1"), .put, 7⟩, .publish {} quietReading,
          .arrive 10]).map (fun s ↦ s.shownEvents.length) = some 2 := by
    decide +kernel
  rcases Option.map_eq_some_iff.mp hrun with ⟨s, hs, hlength⟩
  have hshown := nodes_shown (eq_ok_accepted hok) {} s ⟨_, _, rfl, hs⟩
  exact ⟨hok, s, hs, hlength, hshown.2.1⟩

end NetBridge.Tui
