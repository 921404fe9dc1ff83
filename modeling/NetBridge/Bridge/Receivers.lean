import NetBridge.Bridge.Topics

/-!
# Receivers

What the second loop of `topicOperatorInit` makes,
`src/swarm_ros_bridge/src/bridge_factory.cpp:585–626`: one receiver for each pair of a rule and a
source that it goes through, all under different names.
-/

namespace NetBridge.Bridge

open NetBridge.Base NetBridge.Transport NetBridge.Topic

/-- The name of a receiver; `bridge_factory.cpp:597–613`. -/
def recvName (me : Identity) (configured : TopicCfg) (source : Bytes) : Accepted Bytes := do
  let name ← expandedName me configured source
  pure (prefixedName configured source name)

/-- The configuration of a receiver has this name. -/
theorem recvName_of_recvCfg {platform : Platform} {params : Parameters} {me : Identity}
    {configured topic : TopicCfg} {source : Bytes}
    (h : recvCfg platform params me configured source = .ok topic) :
    recvName me configured source = .ok topic.name := by
  obtain ⟨name, hname, h⟩ := bind_eq_ok.mp h
  obtain ⟨rawName, _, h⟩ := bind_eq_ok.mp h
  cases h
  exact bind_eq_ok.mpr ⟨name, hname, rfl⟩

/-- Whether the loop over the hosts does not skip a source. -/
def isReceived (params : Parameters) (me : Identity) (rule : TopicCfg) (source : Bytes) : Bool :=
  (source ≠ me.hostname || params.debug) && rule.srcHostnameMap[source]? = some true

/-- The sources of a rule that the loop makes receivers for; a dynamic rule ends with its first
one. -/
def receivedSources (params : Parameters) (me : Identity) (hosts : List Bytes)
    (rule : TopicCfg) : List Bytes :=
  if rule.dstHostnameMap[me.hostname]? = some true then
    let sources := hosts.filter (isReceived params me rule)
    if rule.dynamicDst then sources.take 1 else sources
  else []

/-- The rules and sources that the loop makes receivers for, in its order. -/
def receivedPairs (params : Parameters) (me : Identity) (hosts : List Bytes)
    (rules : List TopicCfg) : List (TopicCfg × Bytes) :=
  rules.flatMap fun rule ↦ (receivedSources params me hosts rule).map fun source ↦ (rule, source)

section

variable {platform : Platform} {msgs : List MessageType} {params : Parameters} {me : Identity}

/-- The receiver of a rule for a source: its configuration is the one made for them. -/
structure ReceiverOf (platform : Platform) (params : Parameters) (me : Identity)
    (rule : TopicCfg) (source : Bytes) (factory : TopicFactory) : Prop where
  created : recvCfg platform params me rule source = .ok factory.topicCfg
  transport : factory.transport = transportForTopic params rule.type

/-- A receiver keeps the rule's fields but for the names. -/
theorem recvCfg_eq_ok {rule topic : TopicCfg} {source : Bytes}
    (h : recvCfg platform params me rule source = .ok topic) :
    topic.wireName = rule.wireName ∧ topic.type = rule.type ∧ topic.srcHostname = source ∧
      topic.srcHostnameMap = rule.srcHostnameMap ∧ topic.cloudCompress = rule.cloudCompress ∧
      topic.dynamicDst = rule.dynamicDst := by
  obtain ⟨_, _, h⟩ := bind_eq_ok.mp h
  obtain ⟨_, _, h⟩ := bind_eq_ok.mp h
  cases h
  exact ⟨rfl, rfl, rfl, rfl, rfl, rfl⟩

/-- The receiver of a pair under its name. -/
structure ReceiverEntry (platform : Platform) (params : Parameters) (me : Identity)
    (pair : TopicCfg × Bytes) (name : Bytes) (factory : TopicFactory) : Prop where
  receiver : ReceiverOf platform params me pair.1 pair.2 factory
  named : recvName me pair.1 pair.2 = .ok name
  pub : factory.pub = some name
  advertised : platform.advertises name pair.1.type = true

private theorem addReceiver_eq_ok {pair : TopicCfg × Bytes}
    {map map' : Std.ExtTreeMap Bytes TopicFactory}
    (h : addReceiver platform msgs params me pair.1 pair.2 map = .ok map') :
    ∃ name factory, ReceiverEntry platform params me pair name factory ∧ name ∉ map ∧
      map' = map.insert name factory := by
  rcases bind_eq_ok.mp h with ⟨topic, hcfg, h⟩
  rcases bind_eq_ok.mp h with ⟨_, hfree, h⟩
  rcases bind_eq_ok.mp h with ⟨factory, hmade, h⟩
  have hmade := ofFactory_eq_ok hmade
  rcases makeReceiver_eq_ok hmade with ⟨hc, ht⟩
  rcases makeReceiver_pub hmade with ⟨hpub, hadvertised⟩
  have htype := (recvCfg_eq_ok hcfg).2.1
  cases h
  refine ⟨topic.name, factory, ⟨⟨?_, ?_⟩, ?_, hpub, ?_⟩, by simpa using ensure_eq_ok.mp hfree, rfl⟩
  · rw [hc]
    exact hcfg
  · rw [ht, htype]
  · exact recvName_of_recvCfg hcfg
  · rw [← htype]
    exact hadvertised

private theorem foldlM_of_addReceivers {rule : TopicCfg}
    (hdst : rule.dstHostnameMap[me.hostname]? = some true) {hosts : List Bytes}
    {map map' : Std.ExtTreeMap Bytes TopicFactory}
    (h : addReceivers platform msgs params me rule hosts map = .ok map') :
    ((receivedSources params me hosts rule).map fun source ↦ (rule, source)).foldlM
      (fun map pair ↦ addReceiver platform msgs params me pair.1 pair.2 map) map = .ok map' := by
  unfold receivedSources
  rw [if_pos hdst]
  dsimp only
  induction hosts generalizing map with
  | nil =>
    cases h
    cases rule.dynamicDst <;> rfl
  | cons source hosts ih =>
    unfold addReceivers at h
    split at h
    · next hown =>
      have hskip : isReceived params me rule source = false := by
        simp [isReceived, hown.1, show params.debug = false by simpa using hown.2]
      rw [List.filter_cons_of_neg (by simp [hskip])]
      exact ih h
    · next hown =>
      rcases bind_eq_ok.mp h with ⟨selected, hselected, h⟩
      have hreceived : isReceived params me rule source = selected := by
        have hother : (source ≠ me.hostname || params.debug) = true := by
          simpa [imp_iff_not_or] using hown
        unfold selectedAt at hselected
        split at hselected
        · next hs =>
          cases hselected
          rw [isReceived, hother, hs]
          simp
        · cases hselected
      split at h
      · next hskip =>
        rw [List.filter_cons_of_neg (by simpa [hreceived] using hskip)]
        exact ih h
      · next hskip =>
        rw [List.filter_cons_of_pos (by simpa [hreceived] using hskip)]
        rcases bind_eq_ok.mp h with ⟨mid, hr, h⟩
        split at h
        · next hdynamic =>
          cases h
          rw [if_pos hdynamic]
          simpa using hr
        · next hdynamic =>
          have hrest := ih h
          rw [if_neg hdynamic] at hrest ⊢
          rw [List.map_cons, List.foldlM_cons]
          exact bind_eq_ok.mpr ⟨mid, hr, hrest⟩

private theorem foldlM_of_recvRounds {rules : List TopicCfg} {hosts : List Bytes}
    {map map' : Std.ExtTreeMap Bytes TopicFactory}
    (h : rules.foldlM (recvRound platform msgs params me hosts) map = .ok map') :
    (receivedPairs params me hosts rules).foldlM
      (fun map pair ↦ addReceiver platform msgs params me pair.1 pair.2 map) map = .ok map' := by
  induction rules generalizing map with
  | nil => exact h
  | cons rule rules ih =>
    rw [List.foldlM_cons] at h
    rcases bind_eq_ok.mp h with ⟨mid, hround, h⟩
    rw [receivedPairs, List.flatMap_cons, List.foldlM_append]
    refine bind_eq_ok.mpr ⟨mid, ?_, ih h⟩
    rcases bind_eq_ok.mp hround with ⟨selected, hselected, hround⟩
    unfold selectedAt at hselected
    split at hselected
    · next hdst =>
      cases hselected
      split at hround
      · next hskip =>
        cases hround
        have hskip : rule.dstHostnameMap[me.hostname]? ≠ some true := by
          rw [hdst]
          simpa using hskip
        rw [receivedSources, if_neg hskip]
        rfl
      · next hskip =>
        rw [Bool.not_eq_true', Bool.not_eq_false] at hskip
        rw [hskip] at hdst
        exact foldlM_of_addReceivers hdst hround
    · cases hselected

/-- The receivers are those of the pairs, each under a name of its own. -/
theorem receivers_filled {rules : List TopicCfg} {hosts : List Bytes}
    {map : Std.ExtTreeMap Bytes TopicFactory}
    (h : rules.foldlM (recvRound platform msgs params me hosts) ∅ = .ok map) :
    Filled (ReceiverEntry platform params me) (receivedPairs params me hosts rules) map := by
  have hround : ∀ (map : Std.ExtTreeMap Bytes TopicFactory) (pair : TopicCfg × Bytes)
      (map' : Std.ExtTreeMap Bytes TopicFactory),
      addReceiver platform msgs params me pair.1 pair.2 map = .ok map' →
        ∃ name factory, ReceiverEntry platform params me pair name factory ∧ name ∉ map ∧
          map' = map.insert name factory := fun _ _ _ ↦ addReceiver_eq_ok
  exact filled_of_foldlM hround (foldlM_of_recvRounds h)

/-- The factories that the second loop makes receive. -/
theorem sendOrRecv_of_recvRounds {rules : List TopicCfg} {hosts : List Bytes}
    {map : Std.ExtTreeMap Bytes TopicFactory}
    (h : rules.foldlM (recvRound platform msgs params me hosts) ∅ = .ok map) {name : Bytes}
    {factory : TopicFactory} (hfactory : map[name]? = some factory) :
    factory.sendOrRecv = .recv := by
  have hround : ∀ (_ : List (TopicCfg × Bytes)) (pair : TopicCfg × Bytes)
      (mid map : Std.ExtTreeMap Bytes TopicFactory),
      (∀ (name : Bytes) (factory : TopicFactory),
        mid[name]? = some factory → factory.sendOrRecv = .recv) →
      addReceiver platform msgs params me pair.1 pair.2 mid = .ok map →
      ∀ (name : Bytes) (factory : TopicFactory),
        map[name]? = some factory → factory.sendOrRecv = .recv := by
    intro _ pair mid map hmid hround name factory hfactory
    rcases bind_eq_ok.mp hround with ⟨topic, _, hround⟩
    rcases bind_eq_ok.mp hround with ⟨_, _, hround⟩
    rcases bind_eq_ok.mp hround with ⟨made, hmade, hround⟩
    cases hround
    rw [getElem?_insert_eq] at hfactory
    split at hfactory
    · cases hfactory
      exact makeReceiver_sendOrRecv (ofFactory_eq_ok hmade)
    · exact hmid name factory hfactory
  have hinit : ∀ (name : Bytes) (factory : TopicFactory),
      (∅ : Std.ExtTreeMap Bytes TopicFactory)[name]? = some factory →
        factory.sendOrRecv = .recv := by
    intro name factory hnone
    rw [Std.ExtTreeMap.getElem?_empty] at hnone
    cases hnone
  exact foldlM_invariant hround hinit (foldlM_of_recvRounds h) name factory hfactory

/-- A rule with a receiver for a source reaches this host, and the loop does not skip the
source. -/
theorem mem_receivedSources {hosts : List Bytes} {rule : TopicCfg} {source : Bytes}
    (h : source ∈ receivedSources params me hosts rule) :
    rule.dstHostnameMap[me.hostname]? = some true ∧ source ∈ hosts ∧
      isReceived params me rule source = true := by
  unfold receivedSources at h
  split at h
  · next hdst =>
    dsimp only at h
    split at h
    · exact ⟨hdst, List.mem_filter.mp (List.mem_of_mem_take h)⟩
    · exact ⟨hdst, List.mem_filter.mp h⟩
  · cases h

/-- A pair is a rule and one of its sources. -/
theorem mem_receivedPairs {hosts : List Bytes} {rules : List TopicCfg}
    {pair : TopicCfg × Bytes} : pair ∈ receivedPairs params me hosts rules ↔
      pair.1 ∈ rules ∧ pair.2 ∈ receivedSources params me hosts pair.1 := by
  rcases pair with ⟨rule, source⟩
  simp [receivedPairs]

/-- After the second loop every fixed-route rule that reaches this host has a receiver for each
other source it selects. -/
theorem receiver_of_rule {rules : List TopicCfg} {hosts : List Bytes}
    {map : Std.ExtTreeMap Bytes TopicFactory}
    (h : rules.foldlM (recvRound platform msgs params me hosts) ∅ = .ok map) {rule : TopicCfg}
    (hr : rule ∈ rules) (hfixed : rule.dynamicDst = false)
    (hdst : rule.dstHostnameMap[me.hostname]? = some true) {source : Bytes}
    (hs : source ∈ hosts) (hne : source ≠ me.hostname)
    (hsrc : rule.srcHostnameMap[source]? = some true) :
    ∃ (name : Bytes) (factory : TopicFactory),
      map[name]? = some factory ∧ ReceiverOf platform params me rule source factory := by
  have hsource : source ∈ receivedSources params me hosts rule := by
    rw [receivedSources, if_pos hdst, hfixed]
    exact List.mem_filter.mpr ⟨hs, by simp [isReceived, hne, hsrc]⟩
  rcases (receivers_filled h).complete (rule, source) (mem_receivedPairs.mpr ⟨hr, hsource⟩) with
    ⟨name, factory, hentry, hname⟩
  exact ⟨name, factory, hname, hentry.receiver⟩

end

end NetBridge.Bridge
