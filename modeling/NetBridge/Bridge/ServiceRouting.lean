import NetBridge.Bridge.Services

/-!
# Service routing

What the bridges of all hosts hold after each of them has handled the shared service list. A host
keeps one proxy for each `srv_name`, whatever its server; and since the new proxy is constructed
while the old one still advertises, listing a service twice leaves it unadvertised.
-/

namespace NetBridge.Bridge

open NetBridge.Base NetBridge.Transport NetBridge.Topic NetBridge.Service

/-- Bridges that all hosts of the inventory have given their services from the same parameters.
ROS and Zenoh may behave differently on each host. -/
structure ServiceFleet (types : List ServiceType) (params : Parameters) where
  platform : Bytes → ServicePlatform
  hostMap : Inventory
  rules : List ServiceConfig
  state : (host : Bytes) → ServiceState (platform host)
  inventory : hostInventory params = .ok hostMap
  parsed : serviceRules params hostMap = .ok rules
  started : ∀ host, host ∈ hostMap →
    getServiceConfigAndInit types (platform host) params hostMap host = .ok (state host)

namespace ServiceFleet

variable {types : List ServiceType} {params : Parameters} (fleet : ServiceFleet types params)

/-- The service that a rule's proxy is to advertise on a host. -/
def advertises (host : Bytes) (rule : ServiceConfig) : Option Bytes :=
  (fleet.platform host).resolveName rule.servicePrefixName

/-- The proxy of a rule on a host is live: it advertises the rule's `service_prefix_name` and
queries the rule's key, the server has a queryable there, and every such queryable lets each
request of the proxy pass. -/
structure Serves (rule : ServiceConfig) (host : Bytes) (proxy : ServiceFactory) : Prop where
  held : (fleet.state host).clients[rule.serviceName]? = some proxy
  live : ∃ service, fleet.advertises host rule = some service ∧
    proxy.serverHandle = some service ∧
    (fleet.platform host).manager.taken (fleet.state host).services service = true
  queries : proxy.config.key = rule.key
  queryable : ∃ (name : Bytes) (server : ServiceFactory),
    (fleet.state rule.serverHostname).servers[name]? = some server ∧
      server.queryable = some rule.key
  admitted : ∀ (name : Bytes) (server : ServiceFactory),
    (fleet.state rule.serverHostname).servers[name]? = some server →
    server.queryable = some rule.key → ∀ sequence sourceTimeNs payload,
      requestError types server.config
        (buildRequest types proxy.config sequence sourceTimeNs payload) = none

/-- Every rule is served on every host that it selects as client. -/
def RoutingComplete : Prop :=
  ∀ rule ∈ fleet.rules, ∀ host, lists rule host = true → ∃ proxy, fleet.Serves rule host proxy

/-- What a rule needs from the others on a host that it selects: those under its name have its
server and service, no other name has its service, its name is listed an odd number of times, and
on its key the server has the type of the host's proxy and allows the host. -/
structure Agrees (rule : ServiceConfig) (host : Bytes) : Prop where
  uniform : ∀ other ∈ fleet.rules, lists other host = true →
    other.serviceName = rule.serviceName → other.serverHostname = rule.serverHostname ∧
      fleet.advertises host other = fleet.advertises host rule
  exclusive : ∀ other ∈ fleet.rules, lists other host = true →
    fleet.advertises host other = fleet.advertises host rule →
    other.serviceName = rule.serviceName
  odd : (fleet.rules.countP fun other ↦
    lists other host && other.serviceName = rule.serviceName) % 2 = 1
  served : ∀ proxied, lastProxied fleet.rules host rule.serviceName = some proxied →
    ∀ name server, lastServed fleet.rules rule.serverHostname name = some server →
    server.key = rule.key → proxied.serviceType = server.serviceType ∧ lists server host = true

/-- The rules agree on every host that they select as client. -/
def ServicesAgree : Prop :=
  ∀ rule ∈ fleet.rules, ∀ host, lists rule host = true → fleet.Agrees rule host

variable {fleet}

private theorem state_of {host : Bytes} (hm : host ∈ fleet.hostMap) :
    (fleet.state host).Of host fleet.rules :=
  serviceRounds_of (getServiceConfigAndInit_eq_ok fleet.parsed (fleet.started host hm))

private theorem mem_of_lists {rule : ServiceConfig} (hm : rule ∈ fleet.rules) {host : Bytes}
    (h : lists rule host = true) : host ∈ fleet.hostMap := by
  apply ((serviceRules_eq_ok fleet.parsed rule hm).clients host).mp
  apply Std.ExtTreeMap.mem_iff_isSome_getElem?.mpr
  rw [of_decide_eq_true h]
  rfl

private theorem slots_exclusive {host : Bytes} (hm : host ∈ fleet.hostMap) :
    (fleet.state host).slots.Exclusive := by
  rw [(state_of hm).slots]
  exact Registry.Slots.exclusive_empty.replaceAll _

private theorem exists_lastProxied {rule : ServiceConfig} (hm : rule ∈ fleet.rules)
    {host : Bytes} (h : lists rule host = true) :
    ∃ proxied ∈ fleet.rules, lists proxied host = true ∧
      proxied.serviceName = rule.serviceName ∧
      lastProxied fleet.rules host rule.serviceName = some proxied := by
  obtain ⟨proxied, hpm, hfound, hlast⟩ := exists_find?_reverse (p := fun other ↦
    lists other host && other.serviceName = rule.serviceName) hm
    (by simp only [h, decide_true, Bool.and_self])
  rw [Bool.and_eq_true, decide_eq_true_eq] at hfound
  exact ⟨proxied, hpm, hfound.1, hfound.2, hlast⟩

private theorem fills_proxyHolders (platform : ServicePlatform) (rules : List ServiceConfig)
    (host name : Bytes) : Registry.fills (proxyHolders platform rules host) name =
      rules.countP fun other ↦ lists other host && other.serviceName = name := by
  unfold Registry.fills proxyHolders
  rw [List.countP_map, List.countP_filter]
  apply List.countP_congr
  intro other _
  simp only [Function.comp_apply, Bool.and_eq_true, decide_eq_true_eq]
  exact And.comm

private theorem mem_proxyHolders {host : Bytes} {holder : Bytes × Bytes}
    (h : holder ∈ proxyHolders (fleet.platform host) fleet.rules host) :
    ∃ rule ∈ fleet.rules, lists rule host = true ∧
      holder = (rule.serviceName, (fleet.advertises host rule).getD []) := by
  obtain ⟨rule, hm, he⟩ := List.mem_map.mp h
  obtain ⟨hm, hl⟩ := List.mem_filter.mp hm
  exact ⟨rule, hm, hl, he.symm⟩

/-- Names and services of the rules that select a host correspond. -/
structure Corresponds (fleet : ServiceFleet types params) (host : Bytes) : Prop where
  uniform : ∀ rule ∈ fleet.rules, lists rule host = true → ∀ other ∈ fleet.rules,
    lists other host = true → other.serviceName = rule.serviceName →
    fleet.advertises host other = fleet.advertises host rule
  exclusive : ∀ rule ∈ fleet.rules, lists rule host = true → ∀ other ∈ fleet.rules,
    lists other host = true → fleet.advertises host other = fleet.advertises host rule →
    other.serviceName = rule.serviceName

private theorem held_of_corresponds {host : Bytes} (hc : fleet.Corresponds host)
    {rule : ServiceConfig} (hm : rule ∈ fleet.rules) (h : lists rule host = true) :
    (fleet.state host).slots.held rule.serviceName =
      if (fleet.rules.countP fun other ↦
        lists other host && other.serviceName = rule.serviceName) % 2 = 1
      then fleet.advertises host rule else none := by
  have hstate := state_of (mem_of_lists hm h)
  let name : Bytes → Bytes := fun k ↦
    ((lastProxied fleet.rules host k).bind (fleet.advertises host)).getD []
  have hname : ∀ rule ∈ fleet.rules, lists rule host = true →
      fleet.advertises host rule = some (name rule.serviceName) := by
    intro rule hm hl
    obtain ⟨service, hservice⟩ := hstate.resolved rule hm hl
    have hservice : fleet.advertises host rule = some service := hservice
    obtain ⟨proxied, hpm, hpl, hpn, hlast⟩ := exists_lastProxied hm hl
    have hproxied := hc.uniform rule hm hl proxied hpm hpl hpn
    show _ = some (((lastProxied fleet.rules host rule.serviceName).bind
      (fleet.advertises host)).getD [])
    rw [hlast, Option.bind_some, hproxied, hservice]
    rfl
  rw [hstate.slots, Registry.held_replaceAll_empty , fills_proxyHolders,
    hname rule hm h]
  · intro holder hh
    obtain ⟨other, hom, hol, he⟩ := mem_proxyHolders hh
    rw [he, hname other hom hol]
    rfl
  · intro holder hh holder' hh' heq
    obtain ⟨other, hom, hol, he⟩ := mem_proxyHolders hh
    obtain ⟨other', hom', hol', he'⟩ := mem_proxyHolders hh'
    rw [he, he'] at heq ⊢
    apply hc.exclusive other' hom' hol' other hom hol
    rw [hname other hom hol, hname other' hom' hol']
    exact congrArg some heq

private theorem key_eq_iff {rule other : ServiceConfig}
    (h : other.serviceName = rule.serviceName) :
    other.key = rule.key ↔ other.serverHostname = rule.serverHostname := by
  unfold ServiceConfig.key serviceKey
  rw [h]
  constructor
  · intro he
    exact List.append_cancel_left (List.append_cancel_right (List.append_cancel_right he))
  · intro he
    rw [he]

private theorem server_spec {host name : Bytes} (hm : host ∈ fleet.hostMap)
    {server : ServiceFactory} :
    (fleet.state host).servers[name]? = some server ↔ ∃ rule,
      lastServed fleet.rules host name = some rule ∧
      server = { clientOrServer := .server, config := serviceOnHost host rule,
                 queryable := some rule.key } := by
  rw [(state_of hm).servers, Option.map_eq_some_iff]
  constructor
  · intro h
    obtain ⟨rule, hrule, he⟩ := h
    exact ⟨rule, hrule, he.symm⟩
  · intro h
    obtain ⟨rule, hrule, he⟩ := h
    exact ⟨rule, hrule, he.symm⟩

private theorem proxy_spec {host name : Bytes} (hm : host ∈ fleet.hostMap)
    {proxied : ServiceConfig} (hlast : lastProxied fleet.rules host name = some proxied) :
    ∃ proxy, (fleet.state host).clients[name]? = some proxy ∧
      proxy.config = serviceOnHost host proxied := by
  have hclients := (state_of hm).clients name
  rw [hlast] at hclients
  exact Option.map_eq_some_iff.mp hclients

private theorem server_mem {rule : ServiceConfig} (hm : rule ∈ fleet.rules) :
    rule.serverHostname ∈ fleet.hostMap := (serviceRules_eq_ok fleet.parsed rule hm).server

private theorem slots_held {host name : Bytes} {proxy : ServiceFactory}
    (h : (fleet.state host).clients[name]? = some proxy) :
    (fleet.state host).slots.held name = proxy.serverHandle := by
  show (fleet.state host).clients[name]?.bind ServiceFactory.serverHandle = proxy.serverHandle
  rw [h, Option.bind_some]

private theorem corresponds_of_complete (h : fleet.RoutingComplete) (host : Bytes) :
    fleet.Corresponds host := by
  constructor
  · intro rule hm hl other hom hol hn
    obtain ⟨proxy, hproxy⟩ := h rule hm host hl
    obtain ⟨proxy', hproxy'⟩ := h other hom host hol
    obtain ⟨service, hadvertises, hhandle, -⟩ := hproxy.live
    obtain ⟨service', hadvertises', hhandle', -⟩ := hproxy'.live
    have hheld := hproxy'.held
    rw [hn, hproxy.held] at hheld
    cases hheld
    rw [hhandle] at hhandle'
    rw [hadvertises, hadvertises', hhandle']
  · intro rule hm hl other hom hol ha
    obtain ⟨proxy, hproxy⟩ := h rule hm host hl
    obtain ⟨proxy', hproxy'⟩ := h other hom host hol
    obtain ⟨service, hadvertises, hhandle, -⟩ := hproxy.live
    obtain ⟨service', hadvertises', hhandle', -⟩ := hproxy'.live
    rw [hadvertises, hadvertises'] at ha
    cases ha
    apply (slots_exclusive (mem_of_lists hm hl)).unique (a := service)
    · rw [slots_held hproxy'.held, hhandle']
    · rw [slots_held hproxy.held, hhandle]

/-- Complete routing needs agreeing rules. -/
theorem agree_of_complete (h : fleet.RoutingComplete) : fleet.ServicesAgree := by
  intro rule hm host hl
  have hc := corresponds_of_complete h host
  obtain ⟨proxy, hproxy⟩ := h rule hm host hl
  constructor
  · intro other hom hol hn
    refine ⟨?_, hc.uniform rule hm hl other hom hol hn⟩
    obtain ⟨proxy', hproxy'⟩ := h other hom host hol
    have hheld := hproxy'.held
    rw [hn, hproxy.held] at hheld
    cases hheld
    apply (key_eq_iff hn).mp
    rw [← hproxy'.queries, hproxy.queries]
  · exact hc.exclusive rule hm hl
  · obtain ⟨service, hadvertises, hhandle, -⟩ := hproxy.live
    have hheld := held_of_corresponds hc hm hl
    rw [slots_held hproxy.held, hhandle] at hheld
    split at hheld
    · next hodd => exact hodd
    · cases hheld
  · intro proxied hproxied name server hserver hkey
    obtain ⟨proxy', hheld, hconfig⟩ := proxy_spec (mem_of_lists hm hl) hproxied
    rw [hproxy.held] at hheld
    cases hheld
    have hservers := (server_spec (server_mem hm)).mpr ⟨server, hserver, rfl⟩
    have hadmitted := hproxy.admitted name _ hservers (congrArg some hkey) 0 0 []
    rw [hconfig] at hadmitted
    obtain ⟨htype, hallowed⟩ := (requestError_buildRequest _ _ _ _ _ _).mp hadmitted
    exact ⟨htype, decide_eq_true hallowed⟩

private theorem corresponds_of_agree (h : fleet.ServicesAgree) (host : Bytes) :
    fleet.Corresponds host where
  uniform rule hm hl other hom hol hn := ((h rule hm host hl).uniform other hom hol hn).2
  exclusive rule hm hl := (h rule hm host hl).exclusive

private theorem exists_lastServed {rule : ServiceConfig} (hm : rule ∈ fleet.rules) :
    ∃ server, lastServed fleet.rules rule.serverHostname rule.serviceName = some server ∧
      server.key = rule.key := by
  obtain ⟨server, -, hfound, hlast⟩ := exists_find?_reverse (p := fun other ↦
    other.serverHostname = rule.serverHostname && other.serviceName = rule.serviceName) hm
    (by simp only [decide_true, Bool.and_self])
  rw [Bool.and_eq_true, decide_eq_true_eq, decide_eq_true_eq] at hfound
  exact ⟨server, hlast, (key_eq_iff hfound.2).mpr hfound.1⟩

/-- Agreeing rules make the routing complete. -/
theorem complete_of_agree (h : fleet.ServicesAgree) : fleet.RoutingComplete := by
  intro rule hm host hl
  have hhost := mem_of_lists hm hl
  have hagrees := h rule hm host hl
  obtain ⟨proxied, hpm, hpl, hpn, hlast⟩ := exists_lastProxied hm hl
  obtain ⟨proxy, hheld, hconfig⟩ := proxy_spec hhost hlast
  refine ⟨proxy, hheld, ?_, ?_, ?_, ?_⟩
  · obtain ⟨service, hservice⟩ := (state_of hhost).resolved rule hm hl
    have hslot := held_of_corresponds (corresponds_of_agree h host) hm hl
    rw [if_pos hagrees.odd, show fleet.advertises host rule = some service from hservice] at hslot
    refine ⟨service, hservice, ?_, ((slots_exclusive hhost).taken service).mpr ⟨_, hslot⟩⟩
    rw [← slots_held hheld, hslot]
  · rw [hconfig]
    exact (key_eq_iff hpn).mpr (hagrees.uniform proxied hpm hpl hpn).1
  · obtain ⟨server, hserver, hkey⟩ := exists_lastServed hm
    exact ⟨rule.serviceName, _, (server_spec (server_mem hm)).mpr ⟨server, hserver, rfl⟩,
      congrArg some hkey⟩
  · intro name server hserver hqueryable sequence sourceTimeNs payload
    obtain ⟨last, hlastServed, he⟩ := (server_spec (server_mem hm)).mp hserver
    rw [he] at hqueryable ⊢
    obtain ⟨htype, hallowed⟩ :=
      hagrees.served proxied hlast name last hlastServed (Option.some.inj hqueryable)
    rw [hconfig]
    exact (requestError_buildRequest _ _ _ _ _ _).mpr ⟨htype, of_decide_eq_true hallowed⟩

/-- The routing of a service list is complete exactly when its rules agree. -/
theorem service_routing_complete_iff (fleet : ServiceFleet types params) :
    fleet.RoutingComplete ↔ fleet.ServicesAgree := by
  constructor
  · exact agree_of_complete
  · exact complete_of_agree

/-! ## Starting the services of a fleet -/

/-- Whether every host accepts the service list. -/
def starts (types : List ServiceType) (platform : ServicePlatform) (params : Parameters) : Bool :=
  (hostInventory params).isOk &&
    (serviceRules params (accepted (hostInventory params))).isOk &&
    (accepted (hostInventory params)).keys.all fun host ↦
      (getServiceConfigAndInit types platform params (accepted (hostInventory params)) host).isOk

/-- The fleet that has accepted its service list. -/
def ofStarts (types : List ServiceType) (platform : ServicePlatform) (params : Parameters)
    (h : starts types platform params = true) : ServiceFleet types params where
  platform _ := platform
  hostMap := accepted (hostInventory params)
  rules := accepted (serviceRules params (accepted (hostInventory params)))
  state host := accepted
    (getServiceConfigAndInit types platform params (accepted (hostInventory params)) host)
  inventory := by
    rw [starts, Bool.and_eq_true, Bool.and_eq_true] at h
    exact eq_ok_accepted h.1.1
  parsed := by
    rw [starts, Bool.and_eq_true, Bool.and_eq_true] at h
    exact eq_ok_accepted h.1.2
  started host hm := by
    rw [starts, Bool.and_eq_true] at h
    exact eq_ok_accepted (List.all_eq_true.mp h.2 host (Std.ExtTreeMap.mem_keys.mpr hm))

/-! ### Two servers of one name -/

/-- ROS and Zenoh refuse nothing but a service that is advertised already. -/
def plainServices : ServicePlatform where
  resolveName := some
  declares _ := true
  manager := nodeServices

/-- `std_srvs/Empty` with its `MD5Sum`. -/
def emptyService : List ServiceType :=
  [⟨ascii "std_srvs/Empty", ascii "d41d8cd98f00b204e9800998ecf8427e"⟩]

/-- An entry that offers `/reset` of a drone to the ground station. -/
def resetEntry (server : String) : XmlRpcValue := .struct [
  (ascii "srv_name", .string (ascii "/reset")),
  (ascii "srv_type", .string (ascii "std_srvs/Empty")),
  (ascii "serverIp", .string (ascii server)),
  (ascii "clientIp", .array [.string (ascii "groundStation0")])]

/-- Both drones offer `/reset`. -/
def resetParams : Parameters where
  hosts := some (.array [.string (ascii "drone1"), .string (ascii "drone2"),
    .string (ascii "groundStation0")])
  services := some (.array [resetEntry "drone1", resetEntry "drone2"])

/-- Every host accepts this list. -/
theorem reset_starts : starts emptyService plainServices resetParams = true := by
  decide +kernel

def resetFleet : ServiceFleet emptyService resetParams :=
  ofStarts emptyService plainServices resetParams reset_starts

/-- The ground station is left with the proxy of the second drone. -/
theorem second_server_displaces_first : ¬resetFleet.RoutingComplete := by
  intro h
  have hlisted : ∀ rule ∈ resetFleet.rules, rule.serviceName = ascii "/reset" ∧
      lists rule (ascii "groundStation0") = true := by
    decide +kernel
  have hsame : ∀ rule ∈ resetFleet.rules, ∀ other ∈ resetFleet.rules,
      other.serverHostname = rule.serverHostname := by
    intro rule hm other hom
    apply ((agree_of_complete h rule hm _ (hlisted rule hm).2).uniform other hom
      (hlisted other hom).2 _).1
    rw [(hlisted rule hm).1, (hlisted other hom).1]
  revert hsame
  decide +kernel

end ServiceFleet

end NetBridge.Bridge
