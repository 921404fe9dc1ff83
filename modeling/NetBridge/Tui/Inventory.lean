import NetBridge.Bridge.HostSelection
import NetBridge.Bridge.ServiceRouting
import NetBridge.Config.Agreement
import NetBridge.Config.Readable
import NetBridge.Tui.Screens

/-!
# Hosts and services of the two readers

What the user interface makes of the hosts and services that a bridge runs with
(`src/swarm_ros_bridge/src/bridge_factory.cpp:182–204,652–705`,
`src/config/config_loader.cpp:105–121,147–162`). The bridge leaves the names `all` and `all_drone`
out of legacy addresses and takes defaults for values of other types.
-/

namespace NetBridge.Tui

open NetBridge.Base NetBridge.Bridge NetBridge.Config NetBridge.Diagnostics NetBridge.Service

/-- The parameters of a user interface that share hosts, topics and services with a bridge. -/
def sharing (params : Parameters) (node : NodeParameters) : NodeParameters :=
  { node with
    hosts := params.hosts
    ip := params.ip
    topics := params.topics
    services := params.services }

/-! ## Hosts -/

/-- Two maps with the same hosts, but for the names `all` and `all_drone`. -/
def SameHosts (hostMap ipMap : Std.ExtTreeMap Bytes Bytes) : Prop :=
  ∀ host, App.isHost host = true → (host ∈ ipMap ↔ host ∈ hostMap)

/-- Two maps with the same addresses, but for the names `all` and `all_drone`. -/
def SameAddresses (hostMap ipMap : Std.ExtTreeMap Bytes Bytes) : Prop :=
  ∀ host : Bytes, App.isHost host = true → ipMap[host]? = hostMap[host]?

/-- Maps with the same addresses have the same hosts. -/
theorem SameAddresses.sameHosts {hostMap ipMap : Std.ExtTreeMap Bytes Bytes}
    (h : SameAddresses hostMap ipMap) : SameHosts hostMap ipMap := by
  intro host hhost
  rw [Std.ExtTreeMap.mem_iff_isSome_getElem?, Std.ExtTreeMap.mem_iff_isSome_getElem?,
    h host hhost]

private theorem eq_of_getString {value : XmlRpcValue} {text text' : Bytes}
    (h : getString value = .ok text) (h' : value.asString = .ok text') : text = text' := by
  rw [getString_eq_ok.mp h] at h'
  exact Except.ok.inj h'

private theorem sameAddresses_foldlM {addresses : List (Bytes × XmlRpcValue)}
    {hostMap hostMap' ipMap ipMap' : Std.ExtTreeMap Bytes Bytes}
    (hs : SameAddresses hostMap ipMap)
    (hbridge : addresses.foldlM addAddress hostMap = .ok hostMap')
    (hloader : addresses.foldlM loadAddress ipMap = .ok ipMap') :
    SameAddresses hostMap' ipMap' := by
  induction addresses generalizing hostMap ipMap with
  | nil =>
    cases hbridge
    cases hloader
    exact hs
  | cons address addresses ih =>
    rw [List.foldlM_cons] at hbridge hloader
    rcases bind_eq_ok.mp hbridge with ⟨mid, hround, hbridge⟩
    rcases bind_eq_ok.mp hloader with ⟨mid', hround', hloader⟩
    rcases bind_eq_ok.mp hround' with ⟨text, htext, hinsert⟩
    cases hinsert
    apply ih _ hbridge hloader
    intro host hhost
    unfold addAddress at hround
    split at hround
    · next hkeyword =>
      cases hround
      have hne : address.1 ≠ host := by
        rintro rfl
        rcases hkeyword with hall | hdrone
        · simp [App.isHost, hall] at hhost
        · simp [App.isHost, hdrone] at hhost
      rw [getElem?_insert_eq, if_neg hne]
      exact hs host hhost
    · rcases bind_eq_ok.mp hround with ⟨text', htext', hinsert⟩
      cases hinsert
      rw [getElem?_insert_eq, getElem?_insert_eq, eq_of_getString htext htext', hs host hhost]

private theorem sameHosts_foldlM {hosts : List XmlRpcValue}
    {hostMap hostMap' ipMap ipMap' : Std.ExtTreeMap Bytes Bytes} (hs : SameHosts hostMap ipMap)
    (hbridge : hosts.foldlM addHost hostMap = .ok hostMap')
    (hloader : hosts.foldlM loadHost ipMap = .ok ipMap') : SameHosts hostMap' ipMap' := by
  induction hosts generalizing hostMap ipMap with
  | nil =>
    cases hbridge
    cases hloader
    exact hs
  | cons host hosts ih =>
    rw [List.foldlM_cons] at hbridge hloader
    rcases bind_eq_ok.mp hbridge with ⟨mid, hround, hbridge⟩
    rcases bind_eq_ok.mp hloader with ⟨mid', hround', hloader⟩
    rcases bind_eq_ok.mp hround with ⟨name, hname, hinsert⟩
    rcases bind_eq_ok.mp hround' with ⟨name', hname', hinsert'⟩
    cases hinsert
    cases hinsert'
    apply ih _ hbridge hloader
    intro other hother
    rw [Std.ExtTreeMap.mem_insert, Std.ExtTreeMap.mem_insert, eq_of_getString hname' hname,
      hs other hother]

/-- Where both read the hosts, these are the same, and legacy addresses are too. -/
theorem sameHosts_of_load {params : Parameters} {node : NodeParameters} {hostMap : Inventory}
    {ipMap : Std.ExtTreeMap Bytes Bytes} (hbridge : hostInventory params = .ok hostMap)
    (hloader : loadIpMap (sharing params node) = .ok ipMap) :
    SameHosts hostMap ipMap ∧ (params.hosts = none → SameAddresses hostMap ipMap) := by
  rcases bind_eq_ok.mp hloader with ⟨addresses, haddresses, hlist⟩
  have haddresses : loadAddresses params.ip = .ok addresses := haddresses
  have hlist : loadHostList params.hosts addresses = .ok ipMap := hlist
  unfold hostInventory at hbridge
  split at hbridge
  · next hosts hparams =>
    rw [hparams] at hlist
    refine ⟨sameHosts_foldlM (fun host _ ↦ Iff.rfl) hbridge hlist, fun hnone ↦ ?_⟩
    rw [hparams] at hnone
    cases hnone
  · cases hbridge
  · next legacy hnone hip =>
    rw [hnone] at hlist
    rw [hip] at haddresses
    cases hlist
    have hsame : SameAddresses hostMap ipMap :=
      sameAddresses_foldlM (fun host _ ↦ rfl) hbridge haddresses
    exact ⟨hsame.sameHosts, fun _ ↦ hsame⟩
  · cases hbridge

/-! ## Services -/

/-- A rule says what the bridge runs with, its selectors name the hosts that may call. -/
structure ServiceShown (hostMap : Inventory) (running : ServiceConfig) (rule : ServiceRule) :
    Prop where
  name : rule.serviceName = running.serviceName
  type : rule.serviceType = running.serviceType
  server : rule.serverHost = running.serverHostname
  hasPrefix : rule.hasPrefix = running.ifPrefix
  clients : ∀ host, lists running host = true ↔
    host ∈ hostMap ∧ ∃ selected ∈ rule.clientHosts, Selects selected host

private theorem clients_shown {hostMap : Inventory} {selectors : XmlRpcValue}
    {output : Topic.HostMap} {hosts : List Bytes}
    (hbridge : expandHostSelection selectors (unselected hostMap) = .ok output)
    (hloader : loadHosts selectors = .ok hosts) (host : Bytes) :
    output[host]? = some true ↔ host ∈ hostMap ∧ ∃ selected ∈ hosts, Selects selected host := by
  cases selectors with
  | array items =>
    rw [loadHosts_array.mp hloader] at hbridge
    have hselected : selectedHosts hostMap hosts = .ok output := hbridge
    exact (selectedHosts_eq_ok hselected).2.selected_iff host
  | _ => cases hbridge

private theorem serviceShown_of_load {params : Parameters} {hostMap : Inventory}
    {entry : XmlRpcValue} {running : ServiceConfig} {rule : ServiceRule}
    (hbridge : serviceRule params hostMap entry = .ok running)
    (hloader : loadServiceRule entry = .ok rule) : ServiceShown hostMap running rule := by
  unfold loadServiceRule at hloader
  split at hloader
  · next xml =>
    rcases bind_eq_ok.mp hloader with ⟨serviceName, hname, hloader⟩
    rcases bind_eq_ok.mp hloader with ⟨serviceType, htype, hloader⟩
    rcases bind_eq_ok.mp hloader with ⟨serverHost, hserver, hloader⟩
    rcases bind_eq_ok.mp hloader with ⟨clientHosts, hclients, hloader⟩
    rcases bind_eq_ok.mp hloader with ⟨hasPrefix, hprefix, hloader⟩
    cases hloader
    rcases bind_eq_ok.mp hbridge with ⟨members, hmembers, hbridge⟩
    cases hmembers
    rcases bind_eq_ok.mp hbridge with ⟨runningName, hname', hbridge⟩
    rcases bind_eq_ok.mp hbridge with ⟨runningType, htype', hbridge⟩
    rcases bind_eq_ok.mp hbridge with ⟨runningServer, hserver', hbridge⟩
    rcases bind_eq_ok.mp hbridge with ⟨_, -, hbridge⟩
    rcases bind_eq_ok.mp hbridge with ⟨_, -, hbridge⟩
    rcases bind_eq_ok.mp hbridge with ⟨output, hselected, hbridge⟩
    cases hbridge
    constructor
    · exact eq_of_getString hname hname'
    · exact eq_of_getString htype htype'
    · exact eq_of_getString hserver hserver'
    · exact flag_eq hprefix
    · intro host
      rw [lists, decide_eq_true_iff]
      exact clients_shown hselected hclients host
  · cases hloader

/-- Where both read the services, these are the same. -/
theorem servicesShown_of_load {params : Parameters} {hostMap : Inventory}
    {rules : List ServiceConfig} {services : List ServiceRule}
    (hbridge : serviceRules params hostMap = .ok rules)
    (hloader : loadServiceRules params.services = .ok services) :
    List.Forall₂ (ServiceShown hostMap) rules services := by
  rcases bind_eq_ok.mp hbridge with ⟨entries, hentries, hbridge⟩
  unfold serviceEntries at hentries
  split at hentries
  · next hparams =>
    cases hentries
    rw [hparams] at hloader
    cases hbridge
    cases hloader
    exact .nil
  · next entries hparams =>
    cases hentries
    rw [hparams] at hloader
    have hrules := (mapM_eq_ok.mp hbridge).flip
    have hservices := (mapM_eq_ok.mp hloader).flip
    refine (exists_forall₂_iff.mp ⟨entries, hrules, hservices⟩).imp ?_
    rintro running rule ⟨entry, hrunning, hrule⟩
    exact serviceShown_of_load hrunning hrule
  · cases hentries

/-! ## What is shown -/

/-- Next to a bridge whose hosts and services are accepted, the user interface starts exactly when
its parameters can be read. Then it lists the hosts of the bridge but for the names `all` and
`all_drone`, together with those that diagnostics have come from, has the same legacy addresses,
and shows service by service what the bridge runs with. -/
theorem inventory_shown (params : Parameters) (node : NodeParameters) (hostMap : Inventory)
    (rules : List ServiceConfig) (hhosts : hostInventory params = .ok hostMap)
    (hrules : serviceRules params hostMap = .ok rules) :
    ((∃ config, loadFromRosParams (sharing params node) = .ok config) ↔
      Readable (sharing params node)) ∧
    ∀ config, loadFromRosParams (sharing params node) = .ok config →
      (∀ (cache : DiagnosticsCache β) (host : Bytes), host ∈ App.hostNames config cache ↔
        (host ∈ hostMap ∧ App.isHost host = true) ∨
          ∃ row ∈ cache.nodeSnapshot, row.nodeHostname = host ∧ host ≠ []) ∧
      (params.hosts = none → SameAddresses hostMap config.ipMap) ∧
      List.Forall₂ (ServiceShown hostMap) rules config.services := by
  refine ⟨exists_loadFromRosParams (sharing params node), ?_⟩
  intro config hconfig
  rcases bind_eq_ok.mp hconfig with ⟨runtime, -, hconfig⟩
  rcases bind_eq_ok.mp hconfig with ⟨ipMap, hipMap, hconfig⟩
  rcases bind_eq_ok.mp hconfig with ⟨zenoh, -, hconfig⟩
  rcases bind_eq_ok.mp hconfig with ⟨topics, -, hconfig⟩
  rcases bind_eq_ok.mp hconfig with ⟨services, hservices, hconfig⟩
  cases hconfig
  have hsame := sameHosts_of_load hhosts hipMap
  refine ⟨?_, hsame.2, servicesShown_of_load hrules hservices⟩
  intro cache host
  rw [App.mem_hostNames]
  apply or_congr_left
  apply and_congr_left
  exact hsame.1 host

/-- Two drones offer a service, and the ground station may call it. -/
theorem inventory_shown_reset : ∃ (hostMap : Inventory) (rules : List ServiceConfig)
    (config : BridgeConfig), hostInventory ServiceFleet.resetParams = .ok hostMap ∧
      serviceRules ServiceFleet.resetParams hostMap = .ok rules ∧
      loadFromRosParams (sharing ServiceFleet.resetParams {}) = .ok config ∧
      config.services.length = 2 ∧
      ascii "drone1" ∈ App.hostNames config ({} : DiagnosticsCache Float) ∧
      List.Forall₂ (ServiceShown hostMap) rules config.services := by
  have hinventory := ServiceFleet.resetFleet.inventory
  have hparsed := ServiceFleet.resetFleet.parsed
  have hshown := (inventory_shown (β := Float) ServiceFleet.resetParams {} _ _ hinventory
    hparsed).2 _ rfl
  refine ⟨_, _, _, hinventory, hparsed, rfl, rfl, ?_, hshown.2.2⟩
  apply (hshown.1 {} (ascii "drone1")).mpr
  exact Or.inl ⟨by decide +kernel, by decide⟩

end NetBridge.Tui
