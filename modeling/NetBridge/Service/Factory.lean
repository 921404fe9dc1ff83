import NetBridge.Base.Registry
import NetBridge.Topic.Factory

/-!
# Service factories

`ServiceConfig` and `ServiceFactory` (`src/swarm_ros_bridge/include/service_factory.h:18–28,46–80`):
what the constructor declares, the requests that a proxy builds and the checks that the server
makes, `src/service_factory.cpp:14–82,108–136,186–219`. The service manager of roscpp refuses a
service that the node advertises already; it and Zenoh are a parameter.
-/

namespace NetBridge.Service

open NetBridge.Base NetBridge.Transport NetBridge.Topic

/-- An entry of `SRVS_MACRO`: the type name and what `getServiceMsgMd5` returns for it. -/
structure ServiceType where
  name : Bytes
  md5 : Bytes

/-- `ServiceConfig`; `service_factory.h:18–28`. -/
structure ServiceConfig where
  serviceName : Bytes := []
  servicePrefixName : Bytes := []
  serviceType : Bytes := []
  serverHostname : Bytes := []
  myHostname : Bytes := []
  clientHostnames : HostMap := ∅
  timeoutMs : UInt64 := 1000
  ifPrefix : Bool := false

/-- The calls of ROS and Zenoh: those that may throw, and the services that the node advertises. -/
structure ServicePlatform where
  /-- `NodeHandle::resolveName`. -/
  resolveName : Bytes → Option Bytes
  /-- `DeclareQueryable`. -/
  declares : Bytes → Bool
  /-- `ServiceManager`: `advertiseService` claims a name, `unadvertiseService` releases it. The two
  services that roscpp itself advertises, `~get_loggers` and `~set_logger_level`, are left out. -/
  manager : Registry Bytes

/-- The services of a node as a list of names. -/
def nodeServices : Registry Bytes where
  State := List Bytes
  empty := []
  taken services service := decide (service ∈ services)
  claim services service := (!decide (service ∈ services), service :: services)
  release services service := services.filter fun s ↦ s ≠ service
  taken_empty _ := rfl
  claim_fst _ _ := rfl
  taken_claim services service s := by
    rw [decide_eq_true_eq, decide_eq_true_eq, List.mem_cons]
    exact Or.comm
  taken_release services service s := by
    rw [decide_eq_true_eq, decide_eq_true_eq, List.mem_filter, decide_eq_true_eq]

/-- `ServiceFactory::ClientOrServer`. -/
inductive ClientOrServer where
  | client
  | server
deriving DecidableEq

/-- A constructed `ServiceFactory`: the service of a valid `server_handle_client_msg_` and the key
of `queryable_`. -/
structure ServiceFactory where
  clientOrServer : ClientOrServer
  config : ServiceConfig
  serverHandle : Option Bytes := none
  queryable : Option Bytes := none

/-- Why a constructor throws: an unregistered type, or a call of ROS or Zenoh. -/
inductive ServiceFailure where
  | invalidServiceType (type : Bytes)
  | platform
deriving DecidableEq

section

variable (types : List ServiceType) (platform : ServicePlatform)

/-- `typeExists`; `service_factory.cpp:196–204`. -/
def typeExists (typeIn : Bytes) : Bool := types.any fun t ↦ t.name = typeIn

/-- `getServiceMd5`; `service_factory.cpp:186–194`. -/
def getServiceMd5 (typeIn : Bytes) : Bytes :=
  ((types.find? fun t ↦ t.name = typeIn).map ServiceType.md5).getD []

/-- `advertiseService` of a name; without a handle the service was advertised before. -/
def advertiseService (services : platform.manager.State) (service : Bytes) :
    Except ServiceFailure (Option Bytes × platform.manager.State) :=
  match platform.resolveName service with
  | some resolved => .ok (platform.manager.acquire services resolved)
  | none => .error .platform

/-- The constructor of a proxy; `service_factory.cpp:26–42`. -/
def makeClient (services : platform.manager.State) (config : ServiceConfig) :
    Except ServiceFailure (ServiceFactory × platform.manager.State) :=
  if typeExists types config.serviceType then do
    let (serverHandle, services) ← advertiseService platform services config.servicePrefixName
    pure ({ clientOrServer := .client, config, serverHandle }, services)
  else .error (.invalidServiceType config.serviceType)

/-- The key of a service; `service_factory.cpp:44–45,80–81`. -/
def ServiceConfig.key (config : ServiceConfig) : Bytes :=
  serviceKey config.serverHostname config.serviceName

/-- The constructor of a server; `service_factory.cpp:26–28,43–54`. -/
def makeServer (config : ServiceConfig) : Except ServiceFailure ServiceFactory :=
  if typeExists types config.serviceType then
    if platform.declares config.key then
      .ok { clientOrServer := .server, config, queryable := some config.key }
    else .error .platform
  else .error (.invalidServiceType config.serviceType)

/-- The destructor: a valid handle ends its service; `service_factory.cpp:57–60,217–219`. -/
def ServiceFactory.destroy (factory : ServiceFactory) (services : platform.manager.State) :
    platform.manager.State :=
  platform.manager.giveUp services factory.serverHandle

/-- The request envelope that `call` builds; `service_factory.cpp:65–76`. -/
def buildRequest (config : ServiceConfig) (sequence : UInt64) (sourceTimeNs : Int64)
    (payload : Bytes) : TransportEnvelope where
  payloadKind := .serviceRequest
  sequence := sequence
  sourceTimeNs := sourceTimeNs
  sourceHost := config.myHostname
  rosType := config.serviceType
  rosMd5 := getServiceMd5 types config.serviceType
  payload := payload

/-- The error of `handleRemoteRequest` before it calls the local service;
`service_factory.cpp:118–136`. -/
def requestError (config : ServiceConfig) (request : TransportEnvelope) : Option Bytes :=
  let metadata := validateEnvelopeMetadata request config.serviceType
    (getServiceMd5 types config.serviceType) (some [])
  if request.payloadKind ≠ .serviceRequest then
    some (ascii "invalid service request payload kind")
  else if !metadata.1 then
    if metadata.2.getD [] = [] then some (ascii "invalid service request payload kind")
    else metadata.2
  else if config.clientHostnames[request.sourceHost]? = some true then none
  else some (ascii "service client is not allowed by bridge configuration")

end

/-! ## What is declared and checked -/

/-- The parts of a proxy, and what the node advertises after its construction. -/
theorem makeClient_eq_ok {types : List ServiceType} {platform : ServicePlatform}
    {services services' : platform.manager.State} {config : ServiceConfig}
    {factory : ServiceFactory}
    (h : makeClient types platform services config = .ok (factory, services')) :
    factory.config = config ∧ ∃ resolved, platform.resolveName config.servicePrefixName =
      some resolved ∧ (factory.serverHandle, services') =
        platform.manager.acquire services resolved := by
  unfold makeClient at h
  split at h
  · obtain ⟨⟨serverHandle, advertised⟩, ha, h⟩ := bind_eq_ok.mp h
    cases h
    unfold advertiseService at ha
    split at ha
    · next resolved hr => exact ⟨rfl, resolved, hr, (Except.ok.inj ha).symm⟩
    · cases ha
  · cases h

/-- A server holds a queryable on its key. -/
theorem makeServer_eq_ok {types : List ServiceType} {platform : ServicePlatform}
    {config : ServiceConfig} {factory : ServiceFactory}
    (h : makeServer types platform config = .ok factory) :
    factory = { clientOrServer := .server, config, queryable := some config.key } := by
  unfold makeServer at h
  split at h
  · split at h
    · exact (Except.ok.inj h).symm
    · cases h
  · cases h

/-- A server lets a proxy's requests pass exactly when it has the proxy's type and allows its
host. -/
theorem requestError_buildRequest (types : List ServiceType) (server proxy : ServiceConfig)
    (sequence : UInt64) (sourceTimeNs : Int64) (payload : Bytes) :
    requestError types server (buildRequest types proxy sequence sourceTimeNs payload) = none ↔
      proxy.serviceType = server.serviceType ∧
        server.clientHostnames[proxy.myHostname]? = some true := by
  have hmetadata := validateEnvelopeMetadata_iff
    (buildRequest types proxy sequence sourceTimeNs payload) server.serviceType
    (getServiceMd5 types server.serviceType) (some [])
  unfold requestError
  dsimp only
  rw [if_neg fun h ↦ h rfl]
  by_cases htype : proxy.serviceType = server.serviceType
  · have hvalid := hmetadata.mpr ⟨rfl, htype, congrArg (getServiceMd5 types) htype⟩
    rw [hvalid, if_neg (by decide)]
    split
    · next hallowed => exact ⟨fun _ ↦ ⟨htype, hallowed⟩, fun _ ↦ rfl⟩
    · next hallowed => exact ⟨fun h ↦ (by cases h), fun h ↦ absurd h.2 hallowed⟩
  · have hinvalid : (validateEnvelopeMetadata
        (buildRequest types proxy sequence sourceTimeNs payload) server.serviceType
        (getServiceMd5 types server.serviceType) (some [])).1 = false :=
      Bool.eq_false_iff.mpr fun h ↦ htype (hmetadata.mp h).2.1
    rw [hinvalid, if_pos (by decide)]
    constructor
    · intro h
      split at h
      · cases h
      · next hempty =>
        rw [h] at hempty
        exact absurd rfl hempty
    · exact fun h ↦ absurd h.1 htype

end NetBridge.Service
