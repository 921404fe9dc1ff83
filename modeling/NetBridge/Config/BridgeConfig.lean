import NetBridge.Config.Loader

/-!
# What the user interface loads

`LoadFromRosParams`, `src/swarm_ros_bridge/src/config/config_loader.cpp:125–235`, over
`BridgeConfig`, `include/config/bridge_config.hpp:33–81`. A value of another type throws, and the
node ends.
-/

namespace NetBridge.Config

open NetBridge.Base NetBridge.Bridge

/-- `ServiceRule`; `bridge_config.hpp:33–39`. -/
structure ServiceRule where
  serviceName : Bytes := []
  serviceType : Bytes := []
  serverHost : Bytes := []
  clientHosts : List Bytes := []
  hasPrefix : Bool := true
deriving DecidableEq

/-- `ImageSessionOptions` and `CloudSessionOptions`, of which the latter alone reads a multicast
address; `bridge_config.hpp:51–62`. -/
structure SessionOptions where
  enabled : Bool := false
  multicastAddress : Bytes := []
  listenEndpoints : List Bytes := []
  connectEndpoints : List Bytes := []
deriving DecidableEq

/-- `ZenohOptions`; `bridge_config.hpp:41–63`. -/
structure ZenohOptions where
  mode : Bytes := ascii "peer"
  multicastScouting : Bool := true
  gossipScouting : Bool := true
  compressionEnabled : Bool := false
  multicastAddress : Bytes := []
  listenEndpoints : List Bytes := []
  connectEndpoints : List Bytes := []
  serviceTimeoutMs : Int32 := 1000
  imageSession : SessionOptions := {}
  cloudSession : SessionOptions := {}
deriving DecidableEq

/-- `RuntimeOptions`; `bridge_config.hpp:65–71`. -/
structure RuntimeOptions where
  debug : Bool := false
  odomConvert : Bool := true
  monitorNode : Bool := true
  warnThreshold : Int32 := 3
  monitorRateHz : Int32 := 500
deriving DecidableEq

/-- `BridgeConfig` with the defaults of `MakeDefaultConfig`; `bridge_config.hpp:73–80`,
`bridge_config.cpp:6–10`. -/
structure BridgeConfig where
  hostname : Bytes := ascii "groundStation0"
  ipMap : Std.ExtTreeMap Bytes Bytes := ∅
  zenoh : ZenohOptions := {}
  runtime : RuntimeOptions := {}
  topics : List TopicRule := []
  services : List ServiceRule := []

/-- The parameters of the user interface. -/
structure NodeParameters where
  hostname : Option Bytes := none
  config : Option XmlRpcValue := none
  ip : Option XmlRpcValue := none
  hosts : Option XmlRpcValue := none
  zenoh : Option XmlRpcValue := none
  topics : Option XmlRpcValue := none
  services : Option XmlRpcValue := none

/-- The `config` section; `config_loader.cpp:133–145`. -/
def loadRuntime (runtimeXml : Option XmlRpcValue) : Accepted RuntimeOptions :=
  match runtimeXml with
  | some (.struct runtimeXml) => do
    let runtimeXml : Members := runtimeXml
    let debug ← getBoolMember runtimeXml "debug" false
    let odomConvert ← getBoolMember runtimeXml "odom_convert" true
    let monitorNode ← getBoolMember runtimeXml "monitor_node" true
    pure {
      debug, odomConvert, monitorNode
      warnThreshold := getIntMember runtimeXml "warn_threshold" 3
      monitorRateHz := getIntMember runtimeXml "monitor_rate_hz" 500 }
  | _ => pure {}

/-- A round over the legacy `IP` struct; `config_loader.cpp:150–152`. -/
def loadAddress (ipMap : Std.ExtTreeMap Bytes Bytes) (host : Bytes × XmlRpcValue) :
    Accepted (Std.ExtTreeMap Bytes Bytes) := do
  let address ← getString host.2
  pure (ipMap.insert host.1 address)

/-- A round over the `hosts` array; `config_loader.cpp:159–161`. -/
def loadHost (ipMap : Std.ExtTreeMap Bytes Bytes) (host : XmlRpcValue) :
    Accepted (Std.ExtTreeMap Bytes Bytes) := do
  let name ← getString host
  pure (ipMap.insert name (ascii "Zenoh discovery"))

/-- The legacy addresses; `config_loader.cpp:147–153`. -/
def loadAddresses (ip : Option XmlRpcValue) : Accepted (Std.ExtTreeMap Bytes Bytes) :=
  match ip with
  | some (.struct addresses) => addresses.foldlM loadAddress ∅
  | _ => pure ∅

/-- The hosts, if these are a list, in the place of what there is; `config_loader.cpp:155–162`. -/
def loadHostList (hosts : Option XmlRpcValue) (ipMap : Std.ExtTreeMap Bytes Bytes) :
    Accepted (Std.ExtTreeMap Bytes Bytes) :=
  match hosts with
  | some (.array hosts) => hosts.foldlM loadHost ∅
  | _ => pure ipMap

/-- `ip_map`; `config_loader.cpp:147–162`. -/
def loadIpMap (params : NodeParameters) : Accepted (Std.ExtTreeMap Bytes Bytes) := do
  let ipMap ← loadAddresses params.ip
  loadHostList params.hosts ipMap

/-- A list of endpoints that may be missing; without a list it stays empty. -/
def loadEndpoints (xml : Members) (key : String) : Accepted (List Bytes) :=
  if xml.has key then loadHosts (xml.get key) else pure []

/-- A text that may be missing. -/
def loadText (xml : Members) (key : String) (fallback : Bytes) : Accepted Bytes :=
  if xml.has key then getString (xml.get key) else pure fallback

/-- The multicast address of a dedicated session, which is read for clouds alone;
`config_loader.cpp:208–211`. -/
def loadSessionAddress (hasAddress : Bool) (xml : Members) : Accepted Bytes :=
  if hasAddress then loadText xml "multicast_address" [] else pure []

/-- A dedicated session; `config_loader.cpp:188–221`. -/
def loadSession (hasAddress : Bool) (zenohXml : Members) (member : String) :
    Accepted SessionOptions :=
  match zenohXml.get member with
  | .struct xml => do
    let xml : Members := xml
    let enabled ← getBoolMember xml "enabled" false
    let multicastAddress ← loadSessionAddress hasAddress xml
    let listenEndpoints ← loadEndpoints xml "listen_endpoints"
    let connectEndpoints ← loadEndpoints xml "connect_endpoints"
    pure { enabled, multicastAddress, listenEndpoints, connectEndpoints }
  | _ => pure {}

/-- The `zenoh` section; `config_loader.cpp:164–222`. -/
def loadZenoh (zenohXml : Option XmlRpcValue) : Accepted ZenohOptions :=
  match zenohXml with
  | some (.struct zenohXml) => do
    let zenohXml : Members := zenohXml
    let mode ← loadText zenohXml "mode" (ascii "peer")
    let multicastScouting ← getBoolMember zenohXml "multicast_scouting" true
    let gossipScouting ← getBoolMember zenohXml "gossip_scouting" true
    let compressionEnabled ← getBoolMember zenohXml "compression_enabled" false
    let multicastAddress ← loadText zenohXml "multicast_address" []
    let listenEndpoints ← loadEndpoints zenohXml "listen_endpoints"
    let connectEndpoints ← loadEndpoints zenohXml "connect_endpoints"
    let imageSession ← loadSession false zenohXml "image_session"
    let cloudSession ← loadSession true zenohXml "cloud_session"
    pure {
      mode, multicastScouting, gossipScouting, compressionEnabled, multicastAddress
      listenEndpoints, connectEndpoints
      serviceTimeoutMs := getIntMember zenohXml "service_timeout_ms" 1000
      imageSession, cloudSession }
  | _ => pure {}

/-- One entry of the service list; `config_loader.cpp:112–119`. -/
def loadServiceRule (serviceXml : XmlRpcValue) : Accepted ServiceRule :=
  match serviceXml with
  | .struct serviceXml => do
    let serviceXml : Members := serviceXml
    let serviceName ← getString (serviceXml.get "srv_name")
    let serviceType ← getString (serviceXml.get "srv_type")
    let serverHost ← getString (serviceXml.get "serverIp")
    let clientHosts ← loadHosts (serviceXml.get "clientIp")
    let hasPrefix ← getBoolMember serviceXml "prefix" true
    pure { serviceName, serviceType, serverHost, clientHosts, hasPrefix }
  | _ => .error .xmlRpc

/-- `LoadServiceRules` where the parameter is there; `config_loader.cpp:105–121,229–232`. -/
def loadServiceRules (services : Option XmlRpcValue) : Accepted (List ServiceRule) :=
  match services with
  | some (.array entries) => entries.mapM loadServiceRule
  | _ => pure []

/-- `LoadFromRosParams`; `config_loader.cpp:125–235`. -/
def loadFromRosParams (params : NodeParameters) : Accepted BridgeConfig := do
  let runtime ← loadRuntime params.config
  let ipMap ← loadIpMap params
  let zenoh ← loadZenoh params.zenoh
  let topics ← loadTopicRules (params.topics.getD .invalid) []
  let services ← loadServiceRules params.services
  pure {
    hostname := params.hostname.getD (ascii "groundStation0")
    ipMap, zenoh, runtime, topics, services }

end NetBridge.Config
