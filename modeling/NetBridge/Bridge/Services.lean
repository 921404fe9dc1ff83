import NetBridge.Bridge.Config
import NetBridge.Service.Factory

/-!
# Service operators

`BridgeFactory::getServiceConfigAndInit`,
`src/swarm_ros_bridge/src/bridge_factory.cpp:652–705`: entry by entry a server or a proxy is
constructed and put into a map under `srv_name`, where it replaces an earlier one.
-/

namespace NetBridge.Bridge

open NetBridge.Base NetBridge.Transport NetBridge.Topic NetBridge.Service

/-- The configuration in an entry of the service list, which but for `my_hostname` is the same on
every host; `bridge_factory.cpp:661–696`. -/
def serviceRule (params : Parameters) (hostMap : Inventory) (entry : XmlRpcValue) :
    Accepted ServiceConfig := do
  let serviceXml ← entry.members
  let serviceName ← (serviceXml.get "srv_name").asString
  let serviceType ← (serviceXml.get "srv_type").asString
  let serverHostname ← (serviceXml.get "serverIp").asString
  ensure (serviceName.head? = some slash)
    (ascii "srv_name must start with '/': " ++ serviceName)
  ensure (serverHostname ∈ hostMap) (ascii "unknown service server host: " ++ serverHostname)
  let clientHostnames ← expandHostSelection (serviceXml.get "clientIp") (unselected hostMap)
  let ifPrefix := if serviceXml.has "prefix" then (serviceXml.get "prefix").toBool true else true
  pure {
    serviceName, serviceType, serverHostname, clientHostnames, ifPrefix
    timeoutMs := params.serviceTimeoutMs
    servicePrefixName :=
      if ifPrefix then ascii "/" ++ serverHostname ++ serviceName else serviceName }

/-- A configuration with `my_hostname`; `bridge_factory.cpp:688`. -/
def serviceOnHost (myHostname : Bytes) (rule : ServiceConfig) : ServiceConfig :=
  { rule with myHostname }

/-- The exceptions of a `ServiceFactory` constructor. -/
def ofService {α : Type} (made : Except ServiceFailure α) : Accepted α :=
  match made with
  | .ok value => .ok value
  | .error (.invalidServiceType type) =>
    invalidArgument (ascii "Invalid ROS service type: " ++ type)
  | .error .platform => .error .platform

/-- `service_clients_` and `service_servers_`, and the services that the node advertises. -/
structure ServiceState (platform : ServicePlatform) where
  services : platform.manager.State
  clients : Std.ExtTreeMap Bytes ServiceFactory := ∅
  servers : Std.ExtTreeMap Bytes ServiceFactory := ∅

section

variable (types : List ServiceType) (platform : ServicePlatform)

/-- Before the loop. -/
def ServiceState.empty : ServiceState platform where
  services := platform.manager.empty

instance : Inhabited (ServiceState platform) := ⟨.empty platform⟩

variable {platform}

/-- `service_servers_[service_name] = …`; `bridge_factory.cpp:697–699`. -/
def ServiceState.setServer (state : ServiceState platform) (config : ServiceConfig) :
    Accepted (ServiceState platform) := do
  let factory ← ofService (makeServer types platform config)
  pure { state with servers := state.servers.insert config.serviceName factory }

/-- `service_clients_[service_name] = …`: the new proxy is constructed before the old one is
destroyed; `bridge_factory.cpp:700–702`. -/
def ServiceState.setClient (state : ServiceState platform) (config : ServiceConfig) :
    Accepted (ServiceState platform) := do
  let (factory, services) ← ofService (makeClient types platform state.services config)
  let services := match state.clients[config.serviceName]? with
    | some old => old.destroy platform services
    | none => services
  pure { state with services, clients := state.clients.insert config.serviceName factory }

/-- Whether a host is selected as a client. -/
def lists (rule : ServiceConfig) (host : Bytes) : Bool :=
  rule.clientHostnames[host]? = some true

/-- The rest of a round; `bridge_factory.cpp:677–703`. -/
def serviceRound (myHostname : Bytes) (state : ServiceState platform) (rule : ServiceConfig) :
    Accepted (ServiceState platform) :=
  if rule.serverHostname = myHostname then
    if lists rule myHostname then
      invalidArgument (ascii "a host cannot be both client and server for " ++ rule.serviceName)
    else state.setServer types (serviceOnHost myHostname rule)
  else if lists rule myHostname then state.setClient types (serviceOnHost myHostname rule)
  else pure state

variable (platform)

/-- The entries of the service list; `bridge_factory.cpp:653–658`. -/
def serviceEntries (params : Parameters) : Accepted (List XmlRpcValue) :=
  match params.services with
  | none => pure []
  | some (.array entries) => pure entries
  | some _ => invalidArgument (ascii "services must be an array")

/-- `getServiceConfigAndInit`; `bridge_factory.cpp:652–705`. -/
def getServiceConfigAndInit (params : Parameters) (hostMap : Inventory) (myHostname : Bytes) :
    Accepted (ServiceState platform) := do
  let entries ← serviceEntries params
  entries.foldlM (fun state entry ↦
    serviceRule params hostMap entry >>= serviceRound types myHostname state)
    (ServiceState.empty platform)

end

/-- The rules of the service list. -/
def serviceRules (params : Parameters) (hostMap : Inventory) : Accepted (List ServiceConfig) := do
  let entries ← serviceEntries params
  entries.mapM (serviceRule params hostMap)

/-! ## What is accepted -/

/-- What an accepted rule has: a server of the inventory, and a value for every host. -/
structure ServiceRuleOf (hostMap : Inventory) (rule : ServiceConfig) : Prop where
  server : rule.serverHostname ∈ hostMap
  clients : ∀ host, host ∈ rule.clientHostnames ↔ host ∈ hostMap

/-- An accepted entry makes such a rule. -/
theorem serviceRule_eq_ok {params : Parameters} {hostMap : Inventory} {entry : XmlRpcValue}
    {rule : ServiceConfig} (h : serviceRule params hostMap entry = .ok rule) :
    ServiceRuleOf hostMap rule := by
  obtain ⟨serviceXml, _, h⟩ := bind_eq_ok.mp h
  obtain ⟨serviceName, _, h⟩ := bind_eq_ok.mp h
  obtain ⟨serviceType, _, h⟩ := bind_eq_ok.mp h
  obtain ⟨serverHostname, _, h⟩ := bind_eq_ok.mp h
  obtain ⟨_, _, h⟩ := bind_eq_ok.mp h
  obtain ⟨_, hserver, h⟩ := bind_eq_ok.mp h
  obtain ⟨clientHostnames, hclients, h⟩ := bind_eq_ok.mp h
  cases h
  refine ⟨of_decide_eq_true (ensure_eq_ok.mp hserver), ?_⟩
  intro host
  exact (mem_expandHostSelection hclients host).trans Std.ExtTreeMap.mem_map

/-- Accepted rules come from their entries. -/
theorem serviceRules_eq_ok {params : Parameters} {hostMap : Inventory}
    {rules : List ServiceConfig} (h : serviceRules params hostMap = .ok rules) :
    ∀ rule ∈ rules, ServiceRuleOf hostMap rule := by
  intro rule hm
  obtain ⟨entries, _, h⟩ := bind_eq_ok.mp h
  obtain ⟨entry, _, he⟩ := exists_of_mem_mapM h hm
  exact serviceRule_eq_ok he

/-- The rounds of a host that starts are those of the rules. -/
theorem getServiceConfigAndInit_eq_ok {types : List ServiceType} {platform : ServicePlatform}
    {params : Parameters} {hostMap : Inventory} {myHostname : Bytes}
    {rules : List ServiceConfig} {state : ServiceState platform}
    (hrules : serviceRules params hostMap = .ok rules)
    (h : getServiceConfigAndInit types platform params hostMap myHostname = .ok state) :
    rules.foldlM (serviceRound types myHostname) (ServiceState.empty platform) = .ok state := by
  obtain ⟨entries, hentries, h⟩ := bind_eq_ok.mp h
  obtain ⟨entries', hentries', hrules⟩ := bind_eq_ok.mp hrules
  rw [hentries] at hentries'
  cases hentries'
  obtain ⟨rules', hrules', h⟩ := foldlM_eq_mapM h
  rw [hrules] at hrules'
  cases hrules'
  exact h

/-! ## What the loop leaves -/

/-- The last rule under a name that selects a host as client. -/
def lastProxied (rules : List ServiceConfig) (host name : Bytes) : Option ServiceConfig :=
  rules.reverse.find? fun rule ↦ lists rule host && rule.serviceName = name

/-- The last rule under a name with a host as server. -/
def lastServed (rules : List ServiceConfig) (host name : Bytes) : Option ServiceConfig :=
  rules.reverse.find? fun rule ↦ rule.serverHostname = host && rule.serviceName = name

/-- The proxies of a host in the order of their construction: each with its place in
`service_clients_` and the service that it advertises. -/
def proxyHolders (platform : ServicePlatform) (rules : List ServiceConfig) (host : Bytes) :
    List (Bytes × Bytes) :=
  (rules.filter fun rule ↦ lists rule host).map fun rule ↦
    (rule.serviceName, (platform.resolveName rule.servicePrefixName).getD [])

/-- The advertised services of the proxies in `service_clients_`. -/
def ServiceState.slots {platform : ServicePlatform} (state : ServiceState platform) :
    platform.manager.Slots Bytes where
  registry := state.services
  held name := state.clients[name]?.bind ServiceFactory.serverHandle

/-- The maps after the loop over some rules: they hold the last proxy and the last server of each
name, and the proxies have taken their services one after the other. -/
structure ServiceState.Of {platform : ServicePlatform} (host : Bytes)
    (rules : List ServiceConfig) (state : ServiceState platform) : Prop where
  clients : ∀ name : Bytes, state.clients[name]?.map ServiceFactory.config =
    (lastProxied rules host name).map (serviceOnHost host)
  servers : ∀ name : Bytes, state.servers[name]? = (lastServed rules host name).map fun rule ↦
    { clientOrServer := .server, config := serviceOnHost host rule, queryable := some rule.key }
  slots : state.slots =
    (Registry.Slots.empty platform.manager Bytes).replaceAll (proxyHolders platform rules host)
  resolved : ∀ rule ∈ rules, lists rule host = true →
    ∃ service, platform.resolveName rule.servicePrefixName = some service

section

variable {types : List ServiceType} {platform : ServicePlatform} {host : Bytes}
  {rules : List ServiceConfig} {rule : ServiceConfig} {state state' : ServiceState platform}

private theorem ofService_eq_ok {α : Type} {made : Except ServiceFailure α} {value : α}
    (h : ofService made = .ok value) : made = .ok value := by
  unfold ofService at h
  split at h
  · cases h
    rfl
  · cases h
  · cases h

private theorem lastProxied_of_lists (h : lists rule host = true) (name : Bytes) :
    lastProxied (rules ++ [rule]) host name =
      if rule.serviceName = name then some rule else lastProxied rules host name := by
  unfold lastProxied
  rw [find?_reverse_concat, h, Bool.true_and]
  simp only [decide_eq_true_eq]

private theorem lastProxied_of_not_lists (h : ¬lists rule host = true) (name : Bytes) :
    lastProxied (rules ++ [rule]) host name = lastProxied rules host name := by
  unfold lastProxied
  rw [find?_reverse_concat, if_neg]
  rw [Bool.and_eq_true]
  exact fun hn ↦ h hn.1

private theorem lastServed_of_eq (h : rule.serverHostname = host) (name : Bytes) :
    lastServed (rules ++ [rule]) host name =
      if rule.serviceName = name then some rule else lastServed rules host name := by
  unfold lastServed
  rw [find?_reverse_concat, decide_eq_true h, Bool.true_and]
  simp only [decide_eq_true_eq]

private theorem lastServed_of_ne (h : rule.serverHostname ≠ host) (name : Bytes) :
    lastServed (rules ++ [rule]) host name = lastServed rules host name := by
  unfold lastServed
  rw [find?_reverse_concat, if_neg]
  rw [Bool.and_eq_true, decide_eq_true_eq]
  exact fun hn ↦ h hn.1

private theorem proxyHolders_concat_of_lists (h : lists rule host = true) {service : Bytes}
    (hr : platform.resolveName rule.servicePrefixName = some service) :
    proxyHolders platform (rules ++ [rule]) host =
      proxyHolders platform rules host ++ [(rule.serviceName, service)] := by
  unfold proxyHolders
  rw [List.filter_append, List.filter_cons, if_pos h, List.filter_nil, List.map_append,
    List.map_singleton, hr]
  rfl

private theorem proxyHolders_concat_of_not_lists (h : ¬lists rule host = true) :
    proxyHolders platform (rules ++ [rule]) host = proxyHolders platform rules host := by
  unfold proxyHolders
  rw [List.filter_append, List.filter_cons, if_neg h, List.filter_nil, List.append_nil]

private theorem resolved_concat
    (h : ∀ rule ∈ rules, lists rule host = true →
      ∃ service, platform.resolveName rule.servicePrefixName = some service)
    (hrule : lists rule host = true →
      ∃ service, platform.resolveName rule.servicePrefixName = some service) :
    ∀ rule' ∈ rules ++ [rule], lists rule' host = true →
      ∃ service, platform.resolveName rule'.servicePrefixName = some service := by
  intro rule' hm hl
  rw [List.mem_append, List.mem_singleton] at hm
  cases hm with
  | inl hm => exact h rule' hm hl
  | inr he =>
    rw [he] at hl ⊢
    exact hrule hl

private theorem slots_setClient {config : ServiceConfig}
    (h : state.setClient types config = .ok state') :
    ∃ factory service, platform.resolveName config.servicePrefixName = some service ∧
      factory.config = config ∧ state'.servers = state.servers ∧
      state'.clients = state.clients.insert config.serviceName factory ∧
      state'.slots = state.slots.replace config.serviceName service := by
  obtain ⟨⟨factory, services⟩, hmade, h⟩ := bind_eq_ok.mp h
  obtain ⟨hconfig, service, hresolved, hacquire⟩ := makeClient_eq_ok (ofService_eq_ok hmade)
  have hhandle : factory.serverHandle = (platform.manager.acquire state.services service).1 :=
    congrArg Prod.fst hacquire
  have hservices : services = (platform.manager.acquire state.services service).2 :=
    congrArg Prod.snd hacquire
  cases h
  refine ⟨factory, service, hresolved, hconfig, rfl, rfl, ?_⟩
  unfold ServiceState.slots Registry.Slots.replace
  dsimp only
  congr 1
  · rw [← hservices]
    cases state.clients[config.serviceName]? with
    | none => rfl
    | some old => rfl
  · funext name
    rw [getElem?_insert_eq]
    by_cases hn : config.serviceName = name
    · rw [if_pos hn, if_pos hn.symm, Option.bind_some, hhandle]
    · rw [if_neg hn, if_neg (Ne.symm hn)]

private theorem of_setServer (hstate : state.Of host rules) (hserver : rule.serverHostname = host)
    (hlists : ¬lists rule host = true)
    (h : state.setServer types (serviceOnHost host rule) = .ok state') :
    state'.Of host (rules ++ [rule]) := by
  obtain ⟨factory, hmade, h⟩ := bind_eq_ok.mp h
  have hfactory := makeServer_eq_ok (ofService_eq_ok hmade)
  cases h
  constructor
  · intro name
    rw [lastProxied_of_not_lists hlists]
    exact hstate.clients name
  · intro name
    rw [lastServed_of_eq hserver]
    show (state.servers.insert rule.serviceName factory)[name]? = _
    rw [getElem?_insert_eq]
    by_cases hn : rule.serviceName = name
    · rw [if_pos hn, if_pos hn, hfactory]
      rfl
    · rw [if_neg hn, if_neg hn]
      exact hstate.servers name
  · rw [proxyHolders_concat_of_not_lists hlists]
    exact hstate.slots
  · exact resolved_concat hstate.resolved fun hl ↦ absurd hl hlists

private theorem of_setClient (hstate : state.Of host rules) (hserver : rule.serverHostname ≠ host)
    (hlists : lists rule host = true)
    (h : state.setClient types (serviceOnHost host rule) = .ok state') :
    state'.Of host (rules ++ [rule]) := by
  obtain ⟨factory, service, hresolved, hconfig, hservers, hclients, hslots⟩ := slots_setClient h
  constructor
  · intro name
    rw [lastProxied_of_lists hlists, hclients]
    show (state.clients.insert rule.serviceName factory)[name]?.map _ = _
    rw [getElem?_insert_eq]
    by_cases hn : rule.serviceName = name
    · rw [if_pos hn, if_pos hn, Option.map_some, Option.map_some, hconfig]
    · rw [if_neg hn, if_neg hn]
      exact hstate.clients name
  · intro name
    rw [lastServed_of_ne hserver, hservers]
    exact hstate.servers name
  · rw [hslots, hstate.slots, proxyHolders_concat_of_lists hlists hresolved,
      Registry.Slots.replaceAll_concat]
    rfl
  · exact resolved_concat hstate.resolved fun _ ↦ ⟨service, hresolved⟩

private theorem of_uninvolved (hstate : state.Of host rules) (hserver : rule.serverHostname ≠ host)
    (hlists : ¬lists rule host = true) : state.Of host (rules ++ [rule]) := by
  constructor
  · intro name
    rw [lastProxied_of_not_lists hlists]
    exact hstate.clients name
  · intro name
    rw [lastServed_of_ne hserver]
    exact hstate.servers name
  · rw [proxyHolders_concat_of_not_lists hlists]
    exact hstate.slots
  · exact resolved_concat hstate.resolved fun hl ↦ absurd hl hlists

/-- A round adds its rule. -/
theorem serviceRound_of (hstate : state.Of host rules)
    (h : serviceRound types host state rule = .ok state') : state'.Of host (rules ++ [rule]) := by
  unfold serviceRound at h
  split at h
  · next hserver =>
    split at h
    · cases h
    · next hlists => exact of_setServer hstate hserver hlists h
  · next hserver =>
    split at h
    · next hlists => exact of_setClient hstate hserver hlists h
    · next hlists =>
      cases h
      exact of_uninvolved hstate hserver hlists

/-- What the loop leaves. -/
theorem serviceRounds_of
    (h : rules.foldlM (serviceRound types host) (ServiceState.empty platform) = .ok state) :
    state.Of host rules := by
  apply foldlM_invariant _ _ h
  · intro rules rule mid state hmid hround
    exact serviceRound_of hmid hround
  · refine ⟨?_, ?_, ?_, ?_⟩
    · intro name
      rfl
    · intro name
      rfl
    · rfl
    · exact fun rule hm ↦ absurd hm List.not_mem_nil

end

end NetBridge.Bridge
