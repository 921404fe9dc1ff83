import NetBridge.Bridge.Topics

/-!
# Zenoh sessions

The configuration of the control session and of the dedicated sessions for images and clouds,
`src/swarm_ros_bridge/src/bridge_factory.cpp:46–87,213–447`, from the `zenoh` parameter and the
host inventory. With a dedicated session each session keeps to endpoints of its own protocol.
-/

namespace NetBridge.Bridge

open NetBridge.Base NetBridge.Topic

/-- `ZenohTransportConfig`; `bridge_transport.hpp:61–74`. -/
structure ZenohTransportConfig where
  mode : Bytes := ascii "peer"
  multicastScouting : Bool := true
  gossipScouting : Bool := true
  compressionEnabled : Bool := false
  enableLiveliness : Bool := true
  multicastScoutingAddress : Bytes := []
  listenEndpoints : List Bytes := []
  connectEndpoints : List Bytes := []
  allowedLinkProtocols : List Bytes := []
  serviceTimeoutMs : UInt64 := 1000
  serviceWorkerThreads : Nat := 2
  serviceQueueCapacity : Nat := 64
deriving DecidableEq

/-- `XmlRpcToStringVector`; `bridge_factory.cpp:46–59`. -/
def XmlRpcValue.toStringVector (value : XmlRpcValue) : List Bytes :=
  match value with
  | array items => items.filterMap fun item ↦
    match item with
    | string value => some value
    | _ => none
  | _ => []

/-- `xml.hasMember(name) ? convert(xml[name]) : fallback`. -/
def Members.read {α : Type} (members : Members) (name : String) (convert : XmlRpcValue → α)
    (fallback : α) : α :=
  if members.has name then convert (members.get name) else fallback

/-- `UsesEndpointProtocol`; `bridge_factory.cpp:61–64`. -/
def usesEndpointProtocol (endpoint protocol : Bytes) : Bool :=
  startsWith endpoint (protocol ++ ascii "/")

/-- `ValidateEndpointProtocols`; `bridge_factory.cpp:78–87`. -/
def validateEndpointProtocols (protocol configName : Bytes) : List Bytes → Accepted Unit
  | [] => pure ()
  | endpoint :: endpoints => do
    ensure (usesEndpointProtocol endpoint protocol)
      (configName ++ ascii " endpoint must use " ++ protocol ++ ascii "/: " ++ endpoint)
    validateEndpointProtocols protocol configName endpoints

/-- A seeded endpoint: `protocol + "/" + address + ":" + std::to_string(port) + suffix`. -/
def seedEndpoint (protocol suffix : String) (port : Int32) (address : Bytes) : Bytes :=
  ascii protocol ++ ascii "/" ++ address ++ ascii ":" ++ intToString port.toInt ++ ascii suffix

/-- The endpoints of the other hosts with an address, if `seed_from_ip_table` is set;
`bridge_factory.cpp:252–266,311–327,396–410`. -/
def seedEndpoints (xml : Members) (protocol suffix : String) (defaultPort : Int32)
    (hostMap : Inventory) (myHostname : Bytes) : List Bytes :=
  let seedFromIp := xml.has "seed_from_ip_table" && (xml.get "seed_from_ip_table").toBool false
  let seedPort := xml.read "seed_port" (·.toInt defaultPort) defaultPort
  if seedFromIp then
    (hostMap.toList.filter fun host ↦ host.1 ≠ myHostname && host.2 ≠ []).map fun host ↦
      seedEndpoint protocol suffix seedPort host.2
  else []

/-- The configured endpoints of a session under a name. -/
def endpoints (xml : Members) (name : String) : List Bytes := xml.read name (·.toStringVector) []

/-- The endpoints that a session connects to: the configured ones, then the seeded ones. -/
def connectEndpoints (xml : Members) (protocol suffix : String) (defaultPort : Int32)
    (hostMap : Inventory) (myHostname : Bytes) : List Bytes :=
  endpoints xml "connect_endpoints" ++
    seedEndpoints xml protocol suffix defaultPort hostMap myHostname

/-- A count of at least one; `bridge_factory.cpp:240–251`. -/
def atLeastOne (fallback : Int32) (value : XmlRpcValue) : Nat :=
  (max 1 (value.toInt fallback)).toInt.toNat

/-- `zenoh_config_` before the dedicated sessions; `bridge_factory.cpp:218–266`. -/
def controlConfig (zenohXml : Members) (hostMap : Inventory) (myHostname : Bytes) :
    ZenohTransportConfig where
  mode := zenohXml.read "mode" (·.toString (ascii "peer")) (ascii "peer")
  multicastScouting := zenohXml.read "multicast_scouting" (·.toBool true) true
  gossipScouting := zenohXml.read "gossip_scouting" (·.toBool true) true
  compressionEnabled := zenohXml.read "compression_enabled" (·.toBool false) false
  multicastScoutingAddress := zenohXml.read "multicast_address" (·.toString []) []
  listenEndpoints := endpoints zenohXml "listen_endpoints"
  connectEndpoints := connectEndpoints zenohXml "tcp" "" 7447 hostMap myHostname
  serviceTimeoutMs := UInt64.ofNat (zenohXml.read "service_timeout_ms" (atLeastOne 1000) 1000)
  serviceWorkerThreads := zenohXml.read "service_worker_threads" (atLeastOne 2) 2
  serviceQueueCapacity := zenohXml.read "service_queue_capacity" (atLeastOne 64) 64

/-- A dedicated session, as the constructor distinguishes them: the member of `zenoh`, the words
in texts, the protocol, the default port and the end of a seeded endpoint. -/
structure Dedicated where
  member : String
  name : String
  protocol : String
  transport : String
  seedPort : Int32
  seedSuffix : String

/-- The image session; `bridge_factory.cpp:268–347`. -/
def imageDedicated : Dedicated :=
  ⟨"image_session", "image", "udp", "UDP", 7448, "?rel=1;mixed_rel=1;multistream=1"⟩

/-- The cloud session; `bridge_factory.cpp:350–426`. -/
def cloudDedicated : Dedicated := ⟨"cloud_session", "cloud", "tcp", "TCP", 7449, ""⟩

section

variable (hostMap : Inventory) (myHostname : Bytes)

/-- The copy of `zenoh_config_` with the members of a dedicated session. The sessions differ in
what stands for a missing `compression_enabled` and `multicast_address`. -/
def dedicatedConfig (kind : Dedicated) (compressionEnabled : Bool)
    (multicastScoutingAddress : Bytes) (xml : Members) (control : ZenohTransportConfig) :
    ZenohTransportConfig :=
  { control with
    enableLiveliness := false
    serviceWorkerThreads := 1
    serviceQueueCapacity := 1
    mode := xml.read "mode" (·.toString control.mode) control.mode
    multicastScouting :=
      xml.read "multicast_scouting" (·.toBool control.multicastScouting) control.multicastScouting
    gossipScouting :=
      xml.read "gossip_scouting" (·.toBool control.gossipScouting) control.gossipScouting
    multicastScoutingAddress :=
      xml.read "multicast_address" (·.toString []) multicastScoutingAddress
    compressionEnabled := xml.read "compression_enabled" (·.toBool false) compressionEnabled
    listenEndpoints := endpoints xml "listen_endpoints"
    connectEndpoints :=
      connectEndpoints xml kind.protocol kind.seedSuffix kind.seedPort hostMap myHostname
    allowedLinkProtocols := [ascii kind.protocol] }

/-- `image_zenoh_config_`; `bridge_factory.cpp:277–330`. -/
def imageConfig (xml : Members) (control : ZenohTransportConfig) : ZenohTransportConfig :=
  dedicatedConfig hostMap myHostname imageDedicated control.compressionEnabled
    control.multicastScoutingAddress xml control

/-- `cloud_zenoh_config_`; `bridge_factory.cpp:359–413`. -/
def cloudConfig (xml : Members) (control : ZenohTransportConfig) : ZenohTransportConfig :=
  dedicatedConfig hostMap myHostname cloudDedicated false (ascii "224.0.0.225:7446") xml control

end

/-- The name of a session in the texts of `ValidateEndpointProtocols`. -/
def sessionText (name what : String) : Bytes :=
  ascii "zenoh " ++ ascii name ++ ascii " session " ++ ascii what

/-- Validation of a dedicated session and the control session beside it;
`bridge_factory.cpp:329–346,412–425`. -/
def validateDedicated (kind : Dedicated) (control config : ZenohTransportConfig) :
    Accepted Unit := do
  validateEndpointProtocols (ascii "tcp") (sessionText "control" "listen") control.listenEndpoints
  validateEndpointProtocols (ascii "tcp") (sessionText "control" "connect")
    control.connectEndpoints
  validateEndpointProtocols (ascii kind.protocol) (sessionText kind.name "listen")
    config.listenEndpoints
  validateEndpointProtocols (ascii kind.protocol) (sessionText kind.name "connect")
    config.connectEndpoints
  ensure (config.listenEndpoints ≠ [] || config.connectEndpoints ≠ [])
    (ascii "zenoh." ++ ascii kind.member ++ ascii " requires at least one " ++
      ascii kind.transport ++ ascii " listen or connect endpoint")

/-- A dedicated session, if it is enabled, with the control session beside it;
`bridge_factory.cpp:268–348,350–427`. -/
def dedicatedSession (kind : Dedicated)
    (makeConfig : Members → ZenohTransportConfig → ZenohTransportConfig) (zenohXml : Members)
    (control : ZenohTransportConfig) :
    Accepted (ZenohTransportConfig × Option ZenohTransportConfig) :=
  if zenohXml.has kind.member then
    match zenohXml.get kind.member with
    | .struct xml =>
      if Members.read xml "enabled" (·.toBool false) false then do
        let config := makeConfig xml control
        let control := { control with allowedLinkProtocols := [ascii "tcp"] }
        validateDedicated kind control config
        pure (control, some config)
      else pure (control, none)
    | _ =>
      invalidArgument (ascii "zenoh." ++ ascii kind.member ++ ascii " must be a struct")
  else pure (control, none)

/-- `zenoh_config_`, and the configurations of the dedicated sessions that are enabled. -/
structure Sessions where
  control : ZenohTransportConfig := {}
  image : Option ZenohTransportConfig := none
  cloud : Option ZenohTransportConfig := none
deriving DecidableEq

/-- A dedicated session is enabled. -/
def Sessions.Dedicates (sessions : Sessions) : Prop :=
  sessions.image.isSome ∨ sessions.cloud.isSome

/-- The sessions of a `zenoh` struct; `bridge_factory.cpp:218–427`. -/
def readSessions (zenohXml : Members) (hostMap : Inventory) (myHostname : Bytes) :
    Accepted Sessions := do
  let (control, image) ← dedicatedSession imageDedicated (imageConfig hostMap myHostname) zenohXml
    (controlConfig zenohXml hostMap myHostname)
  let (control, cloud) ← dedicatedSession cloudDedicated (cloudConfig hostMap myHostname) zenohXml
    control
  pure { control, image, cloud }

/-- The test of a `mode`. -/
def validMode (mode : Bytes) : Bool :=
  mode = ascii "peer" || mode = ascii "client" || mode = ascii "router"

/-- The tests of the modes; `bridge_factory.cpp:428–447`. -/
def validateModes (sessions : Sessions) : Accepted Unit := do
  ensure (validMode sessions.control.mode) (ascii "zenoh.mode must be peer, client, or router")
  ensure (sessions.image.all fun config ↦ validMode config.mode)
    (ascii "zenoh.image_session.mode must be peer, client, or router")
  ensure (sessions.cloud.all fun config ↦ validMode config.mode)
    (ascii "zenoh.cloud_session.mode must be peer, client, or router")

/-- The sessions of the `zenoh` parameter; `bridge_factory.cpp:213–447`. -/
def zenohSessions (zenoh : Option XmlRpcValue) (hostMap : Inventory) (myHostname : Bytes) :
    Accepted Sessions := do
  let sessions ← (match zenoh with
    | none => pure {}
    | some (.struct zenohXml) => readSessions zenohXml hostMap myHostname
    | some _ => invalidArgument (ascii "zenoh must be a struct") : Accepted Sessions)
  validateModes sessions
  pure sessions

/-- What `getHostTopicAndTransportConfig` sets. -/
structure TransportConfig where
  hostMap : Inventory
  sessions : Sessions
  topicCfgs : List TopicCfg

/-- `getHostTopicAndTransportConfig`; `bridge_factory.cpp:181–563`. -/
def getHostTopicAndTransportConfig (msgs : List MessageType) (params : Parameters)
    (zenoh : Option XmlRpcValue) (myHostname : Bytes) : Accepted TransportConfig := do
  let hostMap ← hostInventory params
  ensure (myHostname ∈ hostMap)
    (ascii "local hostname is missing from hosts/IP configuration")
  let sessions ← zenohSessions zenoh hostMap myHostname
  let topicCfgs ← topicCfgs msgs params hostMap myHostname
  pure { hostMap, sessions, topicCfgs }

/-! ## Isolation -/

/-- The endpoint begins with the protocol and a slash. -/
def Uses (protocol : String) (endpoint : Bytes) : Prop :=
  (ascii protocol ++ ascii "/") <+: endpoint

/-- The members of a dedicated session that is enabled. -/
def Dedicated.enabled (kind : Dedicated) (zenohXml : Members) : Option Members :=
  if zenohXml.has kind.member then
    match zenohXml.get kind.member with
    | .struct xml => if Members.read xml "enabled" (·.toBool false) false then some xml else none
    | _ => none
  else none

/-- A session that keeps to one protocol. -/
structure ZenohTransportConfig.KeepsTo (config : ZenohTransportConfig) (protocol : String)
    (liveliness : Bool) : Prop where
  listen : ∀ endpoint ∈ config.listenEndpoints, Uses protocol endpoint
  connect : ∀ endpoint ∈ config.connectEndpoints, Uses protocol endpoint
  allowed : config.allowedLinkProtocols = [ascii protocol]
  liveliness : config.enableLiveliness = liveliness

/-- The endpoints of a session are those of its members, then seeds from entries of other hosts. -/
structure ZenohTransportConfig.Seeded (config : ZenohTransportConfig) (xml : Members)
    (protocol suffix : String) (defaultPort : Int32) (hostMap : Inventory)
    (myHostname : Bytes) : Prop where
  listen : config.listenEndpoints = endpoints xml "listen_endpoints"
  connect : config.connectEndpoints = endpoints xml "connect_endpoints" ++
    seedEndpoints xml protocol suffix defaultPort hostMap myHostname
  seeds : ∃ (port : Int32) (hosts : List (Bytes × Bytes)),
    (∀ host ∈ hosts, hostMap[host.1]? = some host.2 ∧ host.1 ≠ myHostname) ∧
    seedEndpoints xml protocol suffix defaultPort hostMap myHostname =
      hosts.map fun host ↦ seedEndpoint protocol suffix port host.2

/-- The dedicated session and its configuration, as isolation wants them. -/
structure Dedicated.Isolated (kind : Dedicated) (zenohXml : Members) (hostMap : Inventory)
    (myHostname : Bytes) (config : ZenohTransportConfig) : Prop where
  keeps : config.KeepsTo kind.protocol false
  nonempty : config.listenEndpoints ≠ [] ∨ config.connectEndpoints ≠ []
  seeded : ∃ xml, kind.enabled zenohXml = some xml ∧
    config.Seeded xml kind.protocol kind.seedSuffix kind.seedPort hostMap myHostname

/-- Every session keeps to endpoints of its own protocol. -/
structure Sessions.Isolated (sessions : Sessions) (zenohXml : Members) (hostMap : Inventory)
    (myHostname : Bytes) : Prop where
  control : sessions.control.KeepsTo "tcp" true
  seeded : sessions.control.Seeded zenohXml "tcp" "" 7447 hostMap myHostname
  image : ∀ config, sessions.image = some config →
    imageDedicated.Isolated zenohXml hostMap myHostname config
  cloud : ∀ config, sessions.cloud = some config →
    cloudDedicated.Isolated zenohXml hostMap myHostname config

/-- Some configured endpoint is not of the protocol of its session, or a dedicated session has no
endpoint. -/
def Mixed (zenohXml : Members) (hostMap : Inventory) (myHostname : Bytes) : Prop :=
  (∃ endpoint ∈ endpoints zenohXml "listen_endpoints" ++ endpoints zenohXml "connect_endpoints",
    ¬Uses "tcp" endpoint) ∨
  ∃ kind ∈ [imageDedicated, cloudDedicated], ∃ xml, kind.enabled zenohXml = some xml ∧
    ((∃ endpoint ∈ endpoints xml "listen_endpoints" ++ endpoints xml "connect_endpoints",
      ¬Uses kind.protocol endpoint) ∨
    endpoints xml "listen_endpoints" = [] ∧
      connectEndpoints xml kind.protocol kind.seedSuffix kind.seedPort hostMap myHostname = [])

/-- Validation passes exactly on endpoints of the protocol. -/
theorem validateEndpointProtocols_eq_ok {protocol : String} {configName : Bytes}
    {endpoints : List Bytes} {u : Unit} :
    validateEndpointProtocols (ascii protocol) configName endpoints = .ok u ↔
      ∀ endpoint ∈ endpoints, Uses protocol endpoint := by
  induction endpoints with
  | nil => exact ⟨fun _ _ hm ↦ absurd hm List.not_mem_nil, fun _ ↦ rfl⟩
  | cons endpoint endpoints ih =>
    have huses : usesEndpointProtocol endpoint (ascii protocol) = true ↔
        Uses protocol endpoint := by
      rw [usesEndpointProtocol, startsWith_iff, Uses, List.IsPrefix]
      simp only [eq_comm]
    rw [validateEndpointProtocols, List.forall_mem_cons, ← huses, ← ih]
    constructor
    · intro h
      rcases bind_eq_ok.mp h with ⟨_, hensure, hrest⟩
      exact ⟨ensure_eq_ok.mp hensure, hrest⟩
    · rintro ⟨hpassed, hrest⟩
      exact bind_eq_ok.mpr ⟨(), ensure_eq_ok.mpr hpassed, hrest⟩

/-- What the validation of a dedicated session has checked. -/
theorem validateDedicated_eq_ok {kind : Dedicated} {control config : ZenohTransportConfig}
    {u : Unit} :
    validateDedicated kind control config = .ok u ↔
      (∀ endpoint ∈ control.listenEndpoints, Uses "tcp" endpoint) ∧
      (∀ endpoint ∈ control.connectEndpoints, Uses "tcp" endpoint) ∧
      (∀ endpoint ∈ config.listenEndpoints, Uses kind.protocol endpoint) ∧
      (∀ endpoint ∈ config.connectEndpoints, Uses kind.protocol endpoint) ∧
      (config.listenEndpoints ≠ [] ∨ config.connectEndpoints ≠ []) := by
  simp only [validateDedicated, bind_eq_ok, validateEndpointProtocols_eq_ok, ensure_eq_ok,
    Bool.or_eq_true, decide_eq_true_eq, exists_and_left, exists_const]

/-- A dedicated session that is not enabled changes nothing; one that is has been validated. -/
theorem dedicatedSession_eq_ok {kind : Dedicated}
    {makeConfig : Members → ZenohTransportConfig → ZenohTransportConfig} {zenohXml : Members}
    {control control' : ZenohTransportConfig} {config : Option ZenohTransportConfig}
    (h : dedicatedSession kind makeConfig zenohXml control = .ok (control', config)) :
    (kind.enabled zenohXml = none ∧ control' = control ∧ config = none) ∨
      ∃ xml, kind.enabled zenohXml = some xml ∧
        control' = { control with allowedLinkProtocols := [ascii "tcp"] } ∧
        config = some (makeConfig xml control) ∧
        validateDedicated kind control' (makeConfig xml control) = .ok () := by
  unfold dedicatedSession at h
  unfold Dedicated.enabled
  split at h
  · next hhas =>
    rw [if_pos hhas]
    split at h
    · next xml hxml =>
      split at h
      · next henabled =>
        rcases bind_eq_ok.mp h with ⟨_, hvalid, h⟩
        cases h
        exact Or.inr ⟨xml, if_pos henabled, rfl, rfl, hvalid⟩
      · next henabled =>
        cases h
        exact Or.inl ⟨if_neg henabled, rfl, rfl⟩
    · cases h
  · next hhas =>
    cases h
    exact Or.inl ⟨if_neg hhas, rfl, rfl⟩

/-- The seeds of a session come from entries of other hosts. -/
theorem seedEndpoints_eq (xml : Members) (protocol suffix : String) (defaultPort : Int32)
    (hostMap : Inventory) (myHostname : Bytes) :
    ∃ (port : Int32) (hosts : List (Bytes × Bytes)),
      (∀ host ∈ hosts, hostMap[host.1]? = some host.2 ∧ host.1 ≠ myHostname) ∧
      seedEndpoints xml protocol suffix defaultPort hostMap myHostname =
        hosts.map fun host ↦ seedEndpoint protocol suffix port host.2 := by
  unfold seedEndpoints
  dsimp only
  split
  · refine ⟨_, _, ?_, rfl⟩
    intro host hm
    rcases List.mem_filter.mp hm with ⟨hitem, hother⟩
    rw [Bool.and_eq_true, decide_eq_true_eq] at hother
    exact ⟨Std.ExtTreeMap.mem_toList_iff_getElem?_eq_some.mp hitem, hother.1⟩
  · exact ⟨0, [], fun _ hm ↦ absurd hm List.not_mem_nil, rfl⟩

/-- A dedicated session that was validated is isolated. -/
theorem Dedicated.isolated {kind : Dedicated} {zenohXml xml : Members} {hostMap : Inventory}
    {myHostname address : Bytes} {compression : Bool} {control control' : ZenohTransportConfig}
    (henabled : kind.enabled zenohXml = some xml)
    (h : validateDedicated kind control'
      (dedicatedConfig hostMap myHostname kind compression address xml control) = .ok ()) :
    kind.Isolated zenohXml hostMap myHostname
      (dedicatedConfig hostMap myHostname kind compression address xml control) := by
  rcases validateDedicated_eq_ok.mp h with ⟨-, -, hlisten, hconnect, hnonempty⟩
  exact ⟨⟨hlisten, hconnect, rfl, rfl⟩, hnonempty, xml, henabled, rfl, rfl,
    seedEndpoints_eq xml kind.protocol kind.seedSuffix kind.seedPort hostMap myHostname⟩

private theorem keepsTo_tcp {kind : Dedicated} {control config : ZenohTransportConfig}
    (hallowed : control.allowedLinkProtocols = [ascii "tcp"])
    (hliveliness : control.enableLiveliness = true)
    (h : validateDedicated kind control config = .ok ()) : control.KeepsTo "tcp" true := by
  rcases validateDedicated_eq_ok.mp h with ⟨hlisten, hconnect, -⟩
  exact ⟨hlisten, hconnect, hallowed, hliveliness⟩

/-- The sessions of a struct that is accepted: those that are enabled, and each isolated. -/
theorem readSessions_eq_ok {zenohXml : Members} {hostMap : Inventory} {myHostname : Bytes}
    {sessions : Sessions} (h : readSessions zenohXml hostMap myHostname = .ok sessions) :
    (sessions.image.isSome = (imageDedicated.enabled zenohXml).isSome ∧
      sessions.cloud.isSome = (cloudDedicated.enabled zenohXml).isSome) ∧
    (sessions.Dedicates → sessions.Isolated zenohXml hostMap myHostname) := by
  unfold readSessions at h
  rcases bind_eq_ok.mp h with ⟨⟨control, image⟩, himage, h⟩
  rcases bind_eq_ok.mp h with ⟨⟨control', cloud⟩, hcloud, h⟩
  cases h
  have hseeded : ∀ protocols, ({ controlConfig zenohXml hostMap myHostname with
      allowedLinkProtocols := protocols } : ZenohTransportConfig).Seeded zenohXml "tcp" ""
        7447 hostMap myHostname := fun _ ↦ ⟨rfl, rfl, seedEndpoints_eq zenohXml "tcp" "" 7447 _ _⟩
  rcases dedicatedSession_eq_ok himage with ⟨hi, rfl, rfl⟩ | ⟨imageXml, hi, rfl, rfl, hivalid⟩
  · rcases dedicatedSession_eq_ok hcloud with ⟨hc, rfl, rfl⟩ | ⟨cloudXml, hc, rfl, rfl, hcvalid⟩
    · refine ⟨by rw [hi, hc]; exact ⟨rfl, rfl⟩, ?_⟩
      rintro (hd | hd) <;> cases hd
    · refine ⟨by rw [hi, hc]; exact ⟨rfl, rfl⟩, fun _ ↦ ?_⟩
      refine ⟨keepsTo_tcp rfl rfl hcvalid, hseeded _, fun _ he ↦ (nomatch he), ?_⟩
      rintro config ⟨⟩
      exact Dedicated.isolated hc hcvalid
  · rcases dedicatedSession_eq_ok hcloud with ⟨hc, rfl, rfl⟩ | ⟨cloudXml, hc, rfl, rfl, hcvalid⟩
    · refine ⟨by rw [hi, hc]; exact ⟨rfl, rfl⟩, fun _ ↦ ?_⟩
      refine ⟨keepsTo_tcp rfl rfl hivalid, hseeded _, ?_, fun _ he ↦ nomatch he⟩
      rintro config ⟨⟩
      exact Dedicated.isolated hi hivalid
    · refine ⟨by rw [hi, hc]; exact ⟨rfl, rfl⟩, fun _ ↦ ?_⟩
      refine ⟨keepsTo_tcp rfl rfl hcvalid, hseeded _, ?_, ?_⟩
      · rintro config ⟨⟩
        exact Dedicated.isolated hi hivalid
      · rintro config ⟨⟩
        exact Dedicated.isolated hc hcvalid

/-- Isolated sessions have no mixed endpoints. -/
theorem Sessions.Isolated.not_mixed {sessions : Sessions} {zenohXml : Members}
    {hostMap : Inventory} {myHostname : Bytes}
    (h : sessions.Isolated zenohXml hostMap myHostname)
    (himage : sessions.image.isSome = (imageDedicated.enabled zenohXml).isSome)
    (hcloud : sessions.cloud.isSome = (cloudDedicated.enabled zenohXml).isSome) :
    ¬Mixed zenohXml hostMap myHostname := by
  have hkind : ∀ {kind : Dedicated} {config : ZenohTransportConfig},
      kind.Isolated zenohXml hostMap myHostname config → ∀ xml, kind.enabled zenohXml = some xml →
      ¬((∃ endpoint ∈ endpoints xml "listen_endpoints" ++ endpoints xml "connect_endpoints",
        ¬Uses kind.protocol endpoint) ∨ endpoints xml "listen_endpoints" = [] ∧
        connectEndpoints xml kind.protocol kind.seedSuffix kind.seedPort hostMap myHostname =
          []) := by
    intro kind config hi xml hxml
    rcases hi.seeded with ⟨xml', hxml', hseeded⟩
    rw [hxml] at hxml'
    cases hxml'
    rintro (⟨endpoint, hm, hno⟩ | ⟨hlisten, hconnect⟩)
    · cases List.mem_append.mp hm with
      | inl hm => exact hno (hi.keeps.listen endpoint (hseeded.listen ▸ hm))
      | inr hm =>
        apply hno
        apply hi.keeps.connect
        rw [hseeded.connect]
        exact List.mem_append_left _ hm
    · cases hi.nonempty with
      | inl hne => exact hne (hseeded.listen.trans hlisten)
      | inr hne => exact hne (hseeded.connect.trans hconnect)
  have hsome : ∀ {kind : Dedicated} {config : Option ZenohTransportConfig} {xml : Members},
      config.isSome = (kind.enabled zenohXml).isSome → kind.enabled zenohXml = some xml →
      ∃ c, config = some c := by
    intro kind config xml he hxml
    rw [hxml] at he
    exact Option.isSome_iff_exists.mp he
  rintro (⟨endpoint, hm, hno⟩ | ⟨kind, hm, xml, hxml, hbad⟩)
  · cases List.mem_append.mp hm with
    | inl hm => exact hno (h.control.listen endpoint (h.seeded.listen ▸ hm))
    | inr hm =>
      apply hno
      apply h.control.connect
      rw [h.seeded.connect]
      exact List.mem_append_left _ hm
  · simp only [List.mem_cons, List.not_mem_nil, or_false] at hm
    rcases hm with rfl | rfl
    · rcases hsome himage hxml with ⟨config, hconfig⟩
      exact hkind (h.image config hconfig) xml hxml hbad
    · rcases hsome hcloud hxml with ⟨config, hconfig⟩
      exact hkind (h.cloud config hconfig) xml hxml hbad

/-- Accepted sessions come from a struct, unless they are those of a missing one. -/
theorem zenohSessions_eq_ok {zenoh : Option XmlRpcValue} {hostMap : Inventory}
    {myHostname : Bytes} {sessions : Sessions}
    (h : zenohSessions zenoh hostMap myHostname = .ok sessions) :
    (zenoh = none ∧ sessions = {}) ∨ ∃ zenohXml, zenoh = some (.struct zenohXml) ∧
      readSessions zenohXml hostMap myHostname = .ok sessions := by
  unfold zenohSessions at h
  rcases bind_eq_ok.mp h with ⟨read, hread, h⟩
  rcases bind_eq_ok.mp h with ⟨_, -, h⟩
  cases h
  split at hread
  · cases hread
    exact Or.inl ⟨rfl, rfl⟩
  · next zenohXml => exact Or.inr ⟨zenohXml, rfl, hread⟩
  · cases hread

/-- What was set comes from the inventory and the sessions. -/
theorem getHostTopicAndTransportConfig_eq_ok {msgs : List MessageType} {params : Parameters}
    {zenoh : Option XmlRpcValue} {myHostname : Bytes} {config : TransportConfig}
    (h : getHostTopicAndTransportConfig msgs params zenoh myHostname = .ok config) :
    hostInventory params = .ok config.hostMap ∧
      zenohSessions zenoh config.hostMap myHostname = .ok config.sessions := by
  rcases bind_eq_ok.mp h with ⟨hostMap, hhosts, h⟩
  rcases bind_eq_ok.mp h with ⟨_, -, h⟩
  rcases bind_eq_ok.mp h with ⟨sessions, hsessions, h⟩
  rcases bind_eq_ok.mp h with ⟨topicCfgs, -, h⟩
  cases h
  exact ⟨hhosts, hsessions⟩

/-- With a dedicated session, a configuration that is accepted keeps every session to endpoints of
its own protocol, none of them seeded from the own host; mixed endpoints are refused. -/
theorem session_isolation (msgs : List MessageType) (params : Parameters)
    (zenoh : Option XmlRpcValue) (myHostname : Bytes) :
    (∀ config, getHostTopicAndTransportConfig msgs params zenoh myHostname = .ok config →
      config.sessions.Dedicates → ∃ zenohXml, zenoh = some (.struct zenohXml) ∧
        config.sessions.Isolated zenohXml config.hostMap myHostname) ∧
    (∀ zenohXml hostMap, zenoh = some (.struct zenohXml) → hostInventory params = .ok hostMap →
      ((imageDedicated.enabled zenohXml).isSome ∨ (cloudDedicated.enabled zenohXml).isSome) →
      Mixed zenohXml hostMap myHostname →
      ∃ rejection, getHostTopicAndTransportConfig msgs params zenoh myHostname =
        .error rejection) := by
  constructor
  · intro config h hd
    rcases zenohSessions_eq_ok (getHostTopicAndTransportConfig_eq_ok h).2 with
      ⟨-, hnone⟩ | ⟨zenohXml, hzenoh, hread⟩
    · rw [hnone] at hd
      rcases hd with hd | hd <;> cases hd
    · exact ⟨zenohXml, hzenoh, (readSessions_eq_ok hread).2 hd⟩
  · intro zenohXml hostMap hzenoh hhosts henabled hmixed
    cases h : getHostTopicAndTransportConfig msgs params zenoh myHostname with
    | error rejection => exact ⟨rejection, rfl⟩
    | ok config =>
      rcases getHostTopicAndTransportConfig_eq_ok h with ⟨hhosts', hsessions⟩
      rw [hhosts] at hhosts'
      cases hhosts'
      rw [hzenoh] at hsessions
      rcases zenohSessions_eq_ok hsessions with ⟨hnone, -⟩ | ⟨zenohXml', hsome, hread⟩
      · cases hnone
      · cases hsome
        rcases readSessions_eq_ok hread with ⟨⟨himage, hcloud⟩, hisolated⟩
        have hd : config.sessions.Dedicates := by
          rw [Sessions.Dedicates, himage, hcloud]
          exact henabled
        exact absurd hmixed ((hisolated hd).not_mixed himage hcloud)

/-- A `zenoh` struct with an image session that listens, and a control session that listens at the
given endpoint. -/
def imageZenoh (endpoint : Bytes) : Members :=
  [(ascii "listen_endpoints", .array [.string endpoint]),
    (ascii "image_session", .struct [(ascii "enabled", .boolean true),
      (ascii "listen_endpoints", .array [.string (ascii "udp/0.0.0.0:7448")])])]

/-- The parameters of a single host. -/
def singleHost : Parameters := { hosts := some (.array [.string (ascii "ground")]) }

/-- The control session listens on TCP, or the struct is refused. -/
theorem session_isolation_image :
    (∃ config, getHostTopicAndTransportConfig [] singleHost
        (some (.struct (imageZenoh (ascii "tcp/0.0.0.0:7447")))) (ascii "ground") = .ok config ∧
      ∃ zenohXml, config.sessions.Isolated zenohXml config.hostMap (ascii "ground")) ∧
    ∃ rejection, getHostTopicAndTransportConfig [] singleHost
      (some (.struct (imageZenoh (ascii "udp/0.0.0.0:7447")))) (ascii "ground") =
        .error rejection := by
  constructor
  · refine ⟨_, rfl, ?_⟩
    rcases (session_isolation [] singleHost
      (some (.struct (imageZenoh (ascii "tcp/0.0.0.0:7447")))) (ascii "ground")).1 _ rfl
      (Or.inl rfl) with ⟨zenohXml, -, hisolated⟩
    exact ⟨zenohXml, hisolated⟩
  · apply (session_isolation [] singleHost _ (ascii "ground")).2 _
      ((∅ : Inventory).insert (ascii "ground") []) rfl rfl (Or.inl rfl)
    apply Or.inl
    refine ⟨ascii "udp/0.0.0.0:7447", by decide, ?_⟩
    rw [Uses]
    decide

end NetBridge.Bridge
