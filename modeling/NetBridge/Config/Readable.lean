import NetBridge.Config.BridgeConfig

/-!
# Whether the user interface starts

`LoadFromRosParams`, `src/swarm_ros_bridge/src/config/config_loader.cpp:105–235`, ends the node at
the first value of another type than the one it is read as. Which parameters it can read, section by
section.
-/

namespace NetBridge.Config

open NetBridge.Base NetBridge.Bridge

/-! ## What can be read -/

/-- A text. -/
def IsText (value : XmlRpcValue) : Prop := ∃ text, value = .string text

/-- A flag. -/
def IsFlag (value : XmlRpcValue) : Prop := ∃ flag, value = .boolean flag

/-- If it is a list, then one of texts. -/
def TextsIn (value : XmlRpcValue) : Prop :=
  ∀ items, value = .array items → ∀ item ∈ items, IsText item

/-- Of these members, those that are there are of this kind. -/
def EachPresent (xml : Members) (keys : List String) (Kind : XmlRpcValue → Prop) : Prop :=
  ∀ key ∈ keys, xml.has key = true → Kind (xml.get key)

/-- The lists of endpoints of a section. -/
def endpointMembers : List String := ["listen_endpoints", "connect_endpoints"]

/-- A dedicated session that can be read. -/
structure ReadableSession (hasAddress : Bool) (xml : Members) : Prop where
  enabled : EachPresent xml ["enabled"] IsFlag
  address : hasAddress = true → EachPresent xml ["multicast_address"] IsText
  endpoints : EachPresent xml endpointMembers TextsIn

/-- A `zenoh` section that can be read. -/
structure ReadableZenoh (xml : Members) : Prop where
  texts : EachPresent xml ["mode", "multicast_address"] IsText
  flags : EachPresent xml ["multicast_scouting", "gossip_scouting", "compression_enabled"] IsFlag
  endpoints : EachPresent xml endpointMembers TextsIn
  image : ∀ members, xml.get "image_session" = .struct members → ReadableSession false members
  cloud : ∀ members, xml.get "cloud_session" = .struct members → ReadableSession true members

/-- An entry of the service list that can be read. -/
structure ReadableService (xml : Members) : Prop where
  texts : ∀ key ∈ ["srv_name", "srv_type", "serverIp"], IsText (xml.get key)
  clients : TextsIn (xml.get "clientIp")
  hasPrefix : EachPresent xml ["prefix"] IsFlag

/-- Hosts that can be read, also from the legacy addresses that a host list replaces. -/
structure ReadableHosts (params : NodeParameters) : Prop where
  addresses : ∀ addresses, params.ip = some (.struct addresses) →
    ∀ address ∈ addresses, IsText address.2
  hosts : ∀ hosts, params.hosts = some hosts → TextsIn hosts

/-- Parameters that can be read. -/
structure Readable (params : NodeParameters) : Prop where
  runtime : ∀ xml, params.config = some (.struct xml) →
    EachPresent xml ["debug", "odom_convert", "monitor_node"] IsFlag
  hosts : ReadableHosts params
  zenoh : ∀ xml, params.zenoh = some (.struct xml) → ReadableZenoh xml
  topics : ∀ entries, params.topics = some (.array entries) →
    ∀ entry ∈ entries, ∃ xml, entry = .struct xml ∧ Typed xml
  services : ∀ entries, params.services = some (.array entries) →
    ∀ entry ∈ entries, ∃ xml, entry = .struct xml ∧ ReadableService xml

/-! ## Value by value -/

private theorem exists_bind_ok {α γ : Type} {c : Accepted α} {f : α → Accepted γ} {Rest : Prop}
    (hrest : ∀ a, c = .ok a → ((∃ b, f a = .ok b) ↔ Rest)) :
    (∃ b, c >>= f = .ok b) ↔ (∃ a, c = .ok a) ∧ Rest := by
  constructor
  · rintro ⟨b, h⟩
    rcases bind_eq_ok.mp h with ⟨a, ha, hb⟩
    exact ⟨⟨a, ha⟩, (hrest a ha).mp ⟨b, hb⟩⟩
  · rintro ⟨⟨a, ha⟩, h⟩
    rcases (hrest a ha).mpr h with ⟨b, hb⟩
    exact ⟨b, bind_eq_ok.mpr ⟨a, ha, hb⟩⟩

private theorem exists_pure_ok {α : Type} (a : α) :
    (∃ b, (pure a : Accepted α) = .ok b) ↔ True :=
  iff_true_intro ⟨a, rfl⟩

private theorem exists_mapM_iff {α γ : Type} {f : α → Accepted γ} {items : List α} :
    (∃ values, items.mapM f = .ok values) ↔ ∀ item ∈ items, ∃ value, f item = .ok value := by
  constructor
  · rintro ⟨values, h⟩ item hm
    rcases List.mem_iff_getElem.mp hm with ⟨i, hi, rfl⟩
    have hall := mapM_eq_ok.mp h
    exact ⟨_, hall.get hi (hall.length_eq ▸ hi)⟩
  · exact exists_mapM

private theorem exists_foldlM_iff {α γ : Type} {round : γ → α → Accepted γ} {Kind : α → Prop}
    (hround : ∀ s a, (∃ s', round s a = .ok s') ↔ Kind a) (items : List α) (s : γ) :
    (∃ s', items.foldlM round s = .ok s') ↔ ∀ item ∈ items, Kind item := by
  induction items generalizing s with
  | nil => exact iff_of_true ⟨s, rfl⟩ (List.forall_mem_nil _)
  | cons item items ih =>
    rw [List.foldlM_cons, List.forall_mem_cons, ← hround s item]
    exact exists_bind_ok fun mid _ ↦ ih mid

private theorem exists_getString {value : XmlRpcValue} :
    (∃ text, getString value = .ok text) ↔ IsText value := by
  simp only [getString_eq_ok, IsText]

private theorem exists_loadHosts_iff {value : XmlRpcValue} :
    (∃ hosts, loadHosts value = .ok hosts) ↔ TextsIn value := by
  cases value with
  | array items =>
    have hitems : (∃ hosts, loadHosts (.array items) = .ok hosts) ↔
        ∀ item ∈ items, IsText item := by
      simp only [← exists_getString]
      exact exists_mapM_iff
    rw [hitems]
    constructor
    · rintro h _ ⟨rfl⟩
      exact h
    · exact fun h ↦ h items rfl
  | _ =>
    refine iff_of_true ⟨[], rfl⟩ ?_
    rintro items ⟨⟩

/-- Nothing is asked of no keys. -/
@[simp] theorem eachPresent_nil {xml : Members} {Kind : XmlRpcValue → Prop} :
    EachPresent xml [] Kind ↔ True :=
  iff_true_intro fun _ hm ↦ absurd hm List.not_mem_nil

/-- A key that is present has the kind, and so have the others. -/
@[simp] theorem eachPresent_cons {xml : Members} {key : String} {keys : List String}
    {Kind : XmlRpcValue → Prop} :
    EachPresent xml (key :: keys) Kind ↔
      (xml.has key = true → Kind (xml.get key)) ∧ EachPresent xml keys Kind :=
  List.forall_mem_cons

private theorem exists_optional {α : Type} {xml : Members} {key : String} {read : Accepted α}
    {fallback : α} {Kind : XmlRpcValue → Prop}
    (hread : (∃ a, read = .ok a) ↔ Kind (xml.get key)) :
    (∃ a, (if xml.has key then read else pure fallback) = .ok a) ↔
      (xml.has key = true → Kind (xml.get key)) := by
  cases xml.has key with
  | false => exact iff_of_true ⟨fallback, rfl⟩ fun h ↦ absurd h Bool.false_ne_true
  | true =>
    rw [if_pos rfl, hread]
    exact ⟨fun h _ ↦ h, fun h ↦ h rfl⟩

private theorem exists_loadText {xml : Members} {key : String} {fallback : Bytes} :
    (∃ text, loadText xml key fallback = .ok text) ↔
      (xml.has key = true → IsText (xml.get key)) :=
  exists_optional exists_getString

private theorem exists_loadEndpoints {xml : Members} {key : String} :
    (∃ endpoints, loadEndpoints xml key = .ok endpoints) ↔
      (xml.has key = true → TextsIn (xml.get key)) :=
  exists_optional exists_loadHosts_iff

/-! ## Section by section -/

/-- The runtime section can be read exactly if its flags are flags. -/
theorem exists_loadRuntime {xml : Option XmlRpcValue} :
    (∃ runtime, loadRuntime xml = .ok runtime) ↔ ∀ members, xml = some (.struct members) →
      EachPresent members ["debug", "odom_convert", "monitor_node"] IsFlag := by
  unfold loadRuntime
  split
  · next members =>
    rw [exists_bind_ok fun _ _ ↦ exists_bind_ok fun _ _ ↦ exists_bind_ok fun _ _ ↦
      exists_pure_ok _]
    simp only [exists_getBoolMember, and_true, Option.some.injEq, XmlRpcValue.struct.injEq,
      forall_eq', eachPresent_cons, eachPresent_nil, IsFlag]
  · next hother =>
    refine iff_of_true ⟨_, rfl⟩ ?_
    intro members hxml
    exact absurd hxml (hother members)

/-- The legacy addresses are read even where a list of hosts replaces them. -/
theorem exists_loadIpMap {params : NodeParameters} :
    (∃ ipMap, loadIpMap params = .ok ipMap) ↔ ReadableHosts params := by
  have haddress : ∀ ipMap address, (∃ ipMap', loadAddress ipMap address = .ok ipMap') ↔
      IsText address.2 := by
    intro ipMap address
    rw [loadAddress, exists_bind_ok fun _ _ ↦ exists_pure_ok _, and_true, exists_getString]
  have hhost : ∀ ipMap host, (∃ ipMap', loadHost ipMap host = .ok ipMap') ↔ IsText host := by
    intro ipMap host
    rw [loadHost, exists_bind_ok fun _ _ ↦ exists_pure_ok _, and_true, exists_getString]
  have hhosts : ∀ ipMap, (∃ ipMap', loadHostList params.hosts ipMap = .ok ipMap') ↔
      ∀ hosts, params.hosts = some hosts → TextsIn hosts := by
    intro ipMap
    unfold loadHostList
    split
    · next hosts hparams =>
      rw [exists_foldlM_iff hhost, hparams]
      simp only [Option.some.injEq, forall_eq', TextsIn, XmlRpcValue.array.injEq]
    · next hother =>
      refine iff_of_true ⟨_, rfl⟩ ?_
      rintro hosts hparams items rfl
      exact absurd hparams (hother items)
  have haddresses : (∃ ipMap, loadAddresses params.ip = .ok ipMap) ↔
      ∀ addresses, params.ip = some (.struct addresses) →
        ∀ address ∈ addresses, IsText address.2 := by
    unfold loadAddresses
    split
    · next addresses hparams =>
      rw [exists_foldlM_iff haddress, hparams]
      simp only [Option.some.injEq, XmlRpcValue.struct.injEq, forall_eq']
    · next hother =>
      refine iff_of_true ⟨_, rfl⟩ ?_
      intro addresses hparams
      exact absurd hparams (hother addresses)
  rw [loadIpMap, exists_bind_ok fun ipMap _ ↦ hhosts ipMap, haddresses]
  exact ⟨fun h ↦ ⟨h.1, h.2⟩, fun h ↦ ⟨h.addresses, h.hosts⟩⟩

private theorem exists_loadSessionAddress {hasAddress : Bool} {xml : Members} :
    (∃ address, loadSessionAddress hasAddress xml = .ok address) ↔
      (hasAddress = true → EachPresent xml ["multicast_address"] IsText) := by
  cases hasAddress with
  | false => exact iff_of_true ⟨[], rfl⟩ fun h ↦ absurd h Bool.false_ne_true
  | true => simp [loadSessionAddress, exists_loadText]

/-- A dedicated session. -/
theorem exists_loadSession {hasAddress : Bool} {xml : Members} {member : String} :
    (∃ session, loadSession hasAddress xml member = .ok session) ↔
      ∀ members, xml.get member = .struct members → ReadableSession hasAddress members := by
  unfold loadSession
  split
  · next members hmember =>
    rw [exists_bind_ok fun _ _ ↦ exists_bind_ok fun _ _ ↦ exists_bind_ok fun _ _ ↦
      exists_bind_ok fun _ _ ↦ exists_pure_ok _, hmember]
    simp only [exists_getBoolMember, exists_loadSessionAddress, exists_loadEndpoints, and_true,
      XmlRpcValue.struct.injEq, forall_eq']
    constructor
    · rintro ⟨henabled, haddress, hlisten, hconnect⟩
      exact ⟨by simpa [IsFlag] using henabled, haddress,
        by simpa [endpointMembers] using ⟨hlisten, hconnect⟩⟩
    · intro h
      have henabled := h.enabled
      have hendpoints := h.endpoints
      simp only [endpointMembers, eachPresent_cons, eachPresent_nil, and_true]
        at henabled hendpoints
      exact ⟨henabled, h.address, hendpoints⟩
  · next hother =>
    refine iff_of_true ⟨_, rfl⟩ ?_
    intro members hmember
    exact absurd hmember (hother members)

/-- The `zenoh` section. -/
theorem exists_loadZenoh {xml : Option XmlRpcValue} :
    (∃ zenoh, loadZenoh xml = .ok zenoh) ↔
      ∀ members, xml = some (.struct members) → ReadableZenoh members := by
  unfold loadZenoh
  split
  · next members =>
    rw [exists_bind_ok fun _ _ ↦ exists_bind_ok fun _ _ ↦ exists_bind_ok fun _ _ ↦
      exists_bind_ok fun _ _ ↦ exists_bind_ok fun _ _ ↦ exists_bind_ok fun _ _ ↦
      exists_bind_ok fun _ _ ↦ exists_bind_ok fun _ _ ↦ exists_bind_ok fun _ _ ↦ exists_pure_ok _]
    simp only [exists_getBoolMember, exists_loadText, exists_loadEndpoints, exists_loadSession,
      and_true, Option.some.injEq, XmlRpcValue.struct.injEq, forall_eq']
    constructor
    · rintro ⟨hmode, hmulticast, hgossip, hcompression, haddress, hlisten, hconnect, himage, hcloud⟩
      have hflags : EachPresent members
          ["multicast_scouting", "gossip_scouting", "compression_enabled"] IsFlag := by
        simp only [eachPresent_cons, eachPresent_nil, and_true]
        exact ⟨hmulticast, hgossip, hcompression⟩
      exact ⟨by simpa using ⟨hmode, haddress⟩, hflags,
        by simpa [endpointMembers] using ⟨hlisten, hconnect⟩, himage, hcloud⟩
    · intro h
      have htexts := h.texts
      have hflags := h.flags
      have hendpoints := h.endpoints
      simp only [endpointMembers, eachPresent_cons, eachPresent_nil, and_true]
        at htexts hflags hendpoints
      exact ⟨htexts.1, hflags.1, hflags.2.1, hflags.2.2, htexts.2, hendpoints.1, hendpoints.2,
        h.image, h.cloud⟩
  · next hother =>
    refine iff_of_true ⟨_, rfl⟩ ?_
    intro members hxml
    exact absurd hxml (hother members)

/-- An entry of the service list. -/
theorem exists_loadServiceRule {entry : XmlRpcValue} :
    (∃ rule, loadServiceRule entry = .ok rule) ↔
      ∃ xml, entry = .struct xml ∧ ReadableService xml := by
  unfold loadServiceRule
  split
  · next xml =>
    rw [exists_bind_ok fun _ _ ↦ exists_bind_ok fun _ _ ↦ exists_bind_ok fun _ _ ↦
      exists_bind_ok fun _ _ ↦ exists_bind_ok fun _ _ ↦ exists_pure_ok _]
    simp only [exists_getString, exists_loadHosts_iff, exists_getBoolMember, and_true,
      XmlRpcValue.struct.injEq, exists_eq_left']
    constructor
    · rintro ⟨hname, htype, hserver, hclients, hprefix⟩
      exact ⟨by simpa using ⟨hname, htype, hserver⟩, hclients, by simpa [IsFlag] using hprefix⟩
    · intro h
      have htexts := h.texts
      have hprefix := h.hasPrefix
      simp only [eachPresent_cons, eachPresent_nil, and_true] at hprefix
      exact ⟨htexts _ (by simp), htexts _ (by simp), htexts _ (by simp), h.clients, hprefix⟩
  · next hother =>
    constructor
    · rintro ⟨rule, ⟨⟩⟩
    · rintro ⟨xml, hentry, _⟩
      exact absurd hentry (hother xml)

/-- The service list. -/
theorem exists_loadServiceRules {services : Option XmlRpcValue} :
    (∃ rules, loadServiceRules services = .ok rules) ↔
      ∀ entries, services = some (.array entries) →
        ∀ entry ∈ entries, ∃ xml, entry = .struct xml ∧ ReadableService xml := by
  unfold loadServiceRules
  split
  · next entries =>
    rw [exists_mapM_iff]
    simp only [exists_loadServiceRule, Option.some.injEq, XmlRpcValue.array.injEq, forall_eq']
  · next hother =>
    refine iff_of_true ⟨_, rfl⟩ ?_
    intro entries hservices
    exact absurd hservices (hother entries)

/-- The topic list. -/
theorem exists_loadTopicRules {topics : Option XmlRpcValue} :
    (∃ rules, loadTopicRules (topics.getD .invalid) [] = .ok rules) ↔
      ∀ entries, topics = some (.array entries) →
        ∀ entry ∈ entries, ∃ xml, entry = .struct xml ∧ Typed xml := by
  have hentry : ∀ entry, (∃ rule, loadTopicRule entry = .ok rule) ↔
      ∃ xml, entry = .struct xml ∧ Typed xml := by
    intro entry
    cases entry with
    | struct xml =>
      simp only [XmlRpcValue.struct.injEq, exists_eq_left']
      exact exists_loadTopicRule
    | _ =>
      constructor
      · rintro ⟨rule, ⟨⟩⟩
      · rintro ⟨xml, ⟨⟩, _⟩
  unfold loadTopicRules
  split
  · next entries htopics =>
    cases topics with
    | none => cases htopics
    | some topics =>
      rw [exists_mapM_iff]
      have htopics : topics = .array entries := htopics
      simp only [hentry, htopics, Option.some.injEq, XmlRpcValue.array.injEq, forall_eq']
  · next hother =>
    refine iff_of_true ⟨_, rfl⟩ ?_
    rintro entries rfl
    exact absurd rfl (hother entries)

/-! ## All sections -/

/-- The user interface starts exactly when its parameters can be read. -/
theorem exists_loadFromRosParams (params : NodeParameters) :
    (∃ config, loadFromRosParams params = .ok config) ↔ Readable params := by
  rw [loadFromRosParams, exists_bind_ok fun _ _ ↦ exists_bind_ok fun _ _ ↦
    exists_bind_ok fun _ _ ↦ exists_bind_ok fun _ _ ↦ exists_bind_ok fun _ _ ↦ exists_pure_ok _,
    exists_loadRuntime, exists_loadIpMap, exists_loadZenoh, exists_loadTopicRules,
    exists_loadServiceRules, and_true]
  exact ⟨fun h ↦ ⟨h.1, h.2.1, h.2.2.1, h.2.2.2.1, h.2.2.2.2⟩,
    fun h ↦ ⟨h.runtime, h.hosts, h.zenoh, h.topics, h.services⟩⟩

end NetBridge.Config
