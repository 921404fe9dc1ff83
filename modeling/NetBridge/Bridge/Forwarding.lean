import NetBridge.Base.Relay
import NetBridge.Bridge.Fleet
import NetBridge.Bridge.Receivers

/-!
# Forwarding loops

What is published on a local topic reaches every subscriber there, also that of the bridge, so
what one rule has delivered may be sent on by another. Nothing in
`src/swarm_ros_bridge/src/bridge_factory.cpp:565–626` excludes that a message returns. The names
of receivers decide where it can: without prefixes they are those of the senders, and each prefix
makes them longer.
-/

namespace NetBridge.Bridge

open NetBridge.Base NetBridge.Transport NetBridge.Topic

/-! ## Names -/

/-- A global name with as many segments as another one. -/
structure SameDepth (name name' : Bytes) : Prop where
  isGlobal : name.head? = some slash
  segments : segments false name = segments false name'

private theorem expandId_depth {name : Bytes} (h : startsWith name dronePrefix = true)
    (droneId : Int) : SameDepth (expandId name droneId) name := by
  obtain ⟨rest, hrest⟩ := (startsWith_iff name dronePrefix).mp h
  have hword : ∀ (s : Bytes), segments false (ascii "/drone_" ++ s) = segments true s + 1 :=
    fun _ ↦ rfl
  have hid : ∀ (s : Bytes), segments true (ascii "\x7bid\x7d" ++ s) = segments true s :=
    segments_append_inside (by decide)
  have hsplit : dronePrefix = ascii "/drone_" ++ ascii "\x7bid\x7d" := by decide
  refine ⟨rfl, ?_⟩
  unfold expandId
  rw [hrest, List.drop_left, List.append_assoc, hword,
    segments_append_inside (slash_not_mem_intToString droneId), hsplit, List.append_assoc, hword,
    hid]

/-- A topic is sent under a name as deep as the configured one. -/
theorem sendName_depth (me : Identity) {name : Bytes} (h : name.head? = some slash) :
    SameDepth (sendName me name) name := by
  unfold sendName
  split
  · next hp => exact expandId_depth hp.1 me.droneId
  · exact ⟨h, rfl⟩

private theorem expandedName_depth {me : Identity} {configured : TopicCfg} {source name : Bytes}
    (hglobal : configured.name.head? = some slash)
    (h : expandedName me configured source = .ok name) : SameDepth name configured.name := by
  unfold expandedName at h
  split at h
  · next hp =>
    obtain ⟨_, _, h⟩ := bind_eq_ok.mp h
    obtain ⟨droneId, _, h⟩ := bind_eq_ok.mp h
    cases h
    exact expandId_depth hp droneId
  · cases h
    exact ⟨hglobal, rfl⟩

/-- Whether a rule publishes under another name than it reads. -/
def AddsPrefix (rule : TopicCfg) : Prop := rule.hasPrefix = true ∨ rule.samePrefix = true

private theorem segments_prefixedName {rule : TopicCfg} {source name : Bytes}
    (hglobal : name.head? = some slash) :
    (prefixedName rule source name).head? = some slash ∧
      segments false name ≤ segments false (prefixedName rule source name) ∧
      (AddsPrefix rule → 0 < segments false source →
        segments false name < segments false (prefixedName rule source name)) := by
  unfold prefixedName AddsPrefix
  split
  · have hcount : segments false (ascii "/" ++ source ++ name) =
        segments false source + segments false name :=
      segments_append_global false (ascii "/" ++ source) hglobal
    rw [hcount]
    refine ⟨rfl, by omega, ?_⟩
    intro _ hpos
    omega
  · next hprefix =>
    split
    · have hcount : segments false (ascii "/bridge" ++ name) = 1 + segments false name :=
        segments_append_global false (ascii "/bridge") hglobal
      rw [hcount]
      refine ⟨rfl, by omega, ?_⟩
      intro _ _
      omega
    · next hsame =>
      refine ⟨hglobal, Nat.le_refl _, ?_⟩
      intro hadds _
      cases hadds with
      | inl hp =>
        rw [Bool.not_eq_true] at hsame
        exact absurd ⟨hp, by rw [hsame]; rfl⟩ hprefix
      | inr hs => exact absurd hs hsame

/-- A receiver's name is at least as deep as the configured one, and deeper with a prefix. -/
theorem segments_recvName {me : Identity} {rule : TopicCfg} {source name : Bytes}
    (hglobal : rule.name.head? = some slash) (h : recvName me rule source = .ok name) :
    name.head? = some slash ∧ segments false rule.name ≤ segments false name ∧
      (AddsPrefix rule → 0 < segments false source →
        segments false rule.name < segments false name) := by
  obtain ⟨expanded, hexpanded, h⟩ := bind_eq_ok.mp h
  obtain ⟨hhead, hsegments⟩ := expandedName_depth hglobal hexpanded
  cases h
  rw [← hsegments]
  exact segments_prefixedName hhead

/-! ## The graph -/

/-- A ROS topic on a host, under its resolved name. -/
structure LocalTopic where
  host : Bytes
  topic : Bytes
deriving DecidableEq

/-- A rule, by its position in the shared list, and one of its destinations. -/
structure Route where
  rule : Nat
  destination : Bytes
deriving DecidableEq

namespace Fleet

variable {msgs : List MessageType} {params : Parameters} (fleet : Fleet msgs params)

/-- The source in the name of the receiver that takes a rule's messages from `s` on `d`. A dynamic
rule has a single receiver there, made for the first source; `bridge_factory.cpp:589–625`. -/
def receiverSource (rule : TopicCfg) (s d : Bytes) : Option Bytes :=
  if rule.dynamicDst then fleet.hostMap.keys.find? fun source ↦
    (source ≠ d || params.debug) && rule.srcHostnameMap[source]? = some true
  else some s

/-- Whether a rule takes a local topic to a host. -/
def sends (rule : TopicCfg) (place : LocalTopic) (d : Bytes) : Bool :=
  rule.srcHostnameMap[place.host]? = some true && rule.dstHostnameMap[d]? = some true &&
    (d ≠ place.host || params.debug) &&
    (fleet.platform place.host).resolveName (sendName (fleet.bridge place.host).me rule.name) =
      some place.topic

/-- The topic that the bridge of a host publishes for a rule and a source. -/
def publishes (rule : TopicCfg) (s d : Bytes) : Option LocalTopic := do
  let source ← fleet.receiverSource rule s d
  let name ← (recvName (fleet.bridge d).me rule source).toOption
  let topic ← (fleet.platform d).resolveName name
  pure ⟨d, topic⟩

/-- The edges: where a route takes what is published on a local topic. -/
def hop (route : Route) (place : LocalTopic) : Option LocalTopic := do
  let rule ← fleet.rules[route.rule]?
  if fleet.sends rule place route.destination then
    fleet.publishes rule place.host route.destination
  else none

/-- Whether a route's rule adds a prefix. -/
def Renames (route : Route) : Prop := ∃ rule, fleet.rules[route.rule]? = some rule ∧ AddsPrefix rule

/-- No cycle in the graph. -/
def Acyclic : Prop := ∀ place, ¬Relation.TransGen (Hops fleet.hop) place place

/-- In no run is a message that was published after it had been received sent again and returned
to the host it came from. -/
def NeverReturns : Prop :=
  ∀ copies, (relay fleet.hop).Reachable copies → ∀ copy ∈ copies,
    ∀ (last origin : Visit LocalTopic Route) (rest : List (Visit LocalTopic Route)),
      copy.trail = last :: origin :: rest → copy.node.host ≠ origin.node.host

/-- What an edge says about its rule and its names. -/
structure HopOf (rule : TopicCfg) (u v : LocalTopic) (source name : Bytes) : Prop where
  mem : rule ∈ fleet.rules
  src : rule.srcHostnameMap[u.host]? = some true
  dst : rule.dstHostnameMap[v.host]? = some true
  distinct : v.host ≠ u.host ∨ params.debug = true
  sent : (fleet.platform u.host).resolveName (sendName (fleet.bridge u.host).me rule.name) =
    some u.topic
  madeFor : fleet.receiverSource rule u.host v.host = some source
  named : recvName (fleet.bridge v.host).me rule source = .ok name
  received : (fleet.platform v.host).resolveName name = some v.topic

variable {fleet}

private theorem hop_eq_some {route : Route} {u v : LocalTopic} (h : fleet.hop route u = some v) :
    ∃ rule source name, fleet.rules[route.rule]? = some rule ∧
      HopOf fleet rule u v source name := by
  obtain ⟨rule, hrule, h⟩ := Option.bind_eq_some_iff.mp h
  split at h
  · next hsends =>
    obtain ⟨source, hsource, h⟩ := Option.bind_eq_some_iff.mp h
    obtain ⟨name, hname, h⟩ := Option.bind_eq_some_iff.mp h
    obtain ⟨topic, htopic, h⟩ := Option.bind_eq_some_iff.mp h
    cases h
    simp only [sends, Bool.and_eq_true, Bool.or_eq_true, decide_eq_true_eq] at hsends
    obtain ⟨⟨⟨hsrc, hdst⟩, hdistinct⟩, hsent⟩ := hsends
    have hnamed : recvName (fleet.bridge route.destination).me rule source = .ok name := by
      cases hr : recvName (fleet.bridge route.destination).me rule source with
      | ok name' =>
        rw [hr] at hname
        cases hname
        rfl
      | error _ =>
        rw [hr] at hname
        cases hname
    exact ⟨rule, source, name, hrule, List.mem_of_getElem? hrule, hsrc, hdst, hdistinct, hsent,
      hsource, hnamed, htopic⟩
  · cases h

private theorem receiverSource_spec (hdebug : params.debug = false) {rule : TopicCfg}
    {u v : LocalTopic} {source name : Bytes}
    (h : HopOf fleet rule u v source name) :
    rule.srcHostnameMap[source]? = some true ∧ v.host ≠ source := by
  have hsource := h.madeFor
  unfold receiverSource at hsource
  split at hsource
  · have hfound := List.find?_some hsource
    rw [hdebug, Bool.or_false, Bool.and_eq_true, decide_eq_true_eq, decide_eq_true_eq] at hfound
    exact ⟨hfound.2, Ne.symm hfound.1⟩
  · cases hsource
    refine ⟨h.src, ?_⟩
    cases h.distinct with
    | inl hne => exact hne
    | inr hd =>
      rw [hdebug] at hd
      cases hd

private theorem publishKey_chunk (topicCfg : TopicCfg) (destination : Bytes) :
    ∃ after, publishKey topicCfg destination = ascii "netbridge/v1/topic" ++
      slash :: (topicCfg.srcHostname ++ slash :: after) := by
  have hstart : ascii "netbridge/v1/topic/" = ascii "netbridge/v1/topic" ++ [slash] := by decide
  unfold publishKey
  split
  · refine ⟨ascii "dst/" ++ (destination ++ (ascii "/" ++
      normalizeRosName topicCfg.wireName)), ?_⟩
    unfold topicDirectedKey
    rw [hstart]
    simp only [List.append_assoc, List.singleton_append]
    rfl
  · refine ⟨ascii "fanout/" ++ normalizeRosName topicCfg.wireName, ?_⟩
    unfold topicFanoutKey
    rw [hstart]
    simp only [List.append_assoc, List.singleton_append]
    rfl

private theorem segments_source_pos
    (hdoc : ∀ host, host ∈ fleet.hostMap → Documented (fleet.platform host)) {rule : TopicCfg}
    (hm : rule ∈ fleet.rules) {source d : Bytes}
    (hsrc : rule.srcHostnameMap[source]? = some true)
    (hdst : rule.dstHostnameMap[d]? = some true) (hne : d ≠ source) :
    0 < segments false source := by
  have hs : source ∈ fleet.hostMap :=
    ((topicRules_eq_ok fleet.parsed rule hm).src source).mp (mem_of_selected hsrc)
  obtain ⟨hname, -, hsend, -⟩ := bridge_spec hs
  obtain ⟨e, he⟩ := entry_of_assigns hsend _ (List.mem_map.mpr ⟨rule, hm, rfl⟩)
  have hsel : (onHost source rule).srcHostnameMap[(fleet.bridge source).me.hostname]? =
      some true := by
    rw [hname]
    exact hsrc
  obtain ⟨session, hdeclares⟩ := declares_of_sendEntry he hsel hdst hne
  have hchunk := (hdoc source hs).declares hdeclares
  obtain ⟨after, hkey⟩ := publishKey_chunk
    { onHost source rule with srcHostname := (fleet.bridge source).me.hostname } d
  rw [hkey] at hchunk
  have hpos := segments_pos_of_chunk hchunk
  rw [hname] at hpos
  exact hpos

/-- The depth of a local topic. -/
def depth (place : LocalTopic) : Nat := segments false place.topic

private theorem depth_eq {platform : Platform} (hdoc : Documented platform) {name topic : Bytes}
    (hglobal : name.head? = some slash) (h : platform.resolveName name = some topic) :
    segments false topic = segments false name := by
  rw [hdoc.resolves hglobal h, segments_cleanName]

/-- Messages do not move to topics of a smaller depth, and prefixes raise the depth. -/
theorem ranked (hdebug : params.debug = false)
    (hdoc : ∀ host, host ∈ fleet.hostMap → Documented (fleet.platform host)) :
    Ranked fleet.hop depth fleet.Renames := by
  have hdepth : ∀ {route : Route} {u v : LocalTopic}, fleet.hop route u = some v →
      depth u ≤ depth v ∧ (fleet.Renames route → depth u < depth v) := by
    intro route u v h
    obtain ⟨rule, source, name, hrule, hhop⟩ := hop_eq_some h
    have hspec := topicRules_eq_ok fleet.parsed rule hhop.mem
    have hu := hdoc u.host ((hspec.src u.host).mp (mem_of_selected hhop.src))
    have hv := hdoc v.host ((hspec.dst v.host).mp (mem_of_selected hhop.dst))
    obtain ⟨hsrc, hne⟩ := receiverSource_spec hdebug hhop
    have hpos := segments_source_pos hdoc hhop.mem hsrc hhop.dst hne
    obtain ⟨hsendGlobal, hsendDepth⟩ := sendName_depth (fleet.bridge u.host).me hspec.isGlobal
    obtain ⟨hrecvGlobal, hle, hlt⟩ := segments_recvName hspec.isGlobal hhop.named
    unfold depth
    rw [depth_eq hu hsendGlobal hhop.sent, hsendDepth, depth_eq hv hrecvGlobal hhop.received]
    refine ⟨hle, ?_⟩
    intro hrenames
    obtain ⟨rule', hrule', hadds⟩ := hrenames
    rw [hrule] at hrule'
    cases hrule'
    exact hlt hadds hpos
  constructor
  · intro route u v h
    exact (hdepth h).1
  · intro route u v h hrenames
    exact (hdepth h).2 hrenames

/-- A route that adds a prefix is on no cycle, and in every run a message that is back on a local
topic has passed none since it was there. -/
theorem loops_keep_names (fleet : Fleet msgs params) (hdebug : params.debug = false)
    (hdoc : ∀ host, host ∈ fleet.hostMap → Documented (fleet.platform host)) :
    (∀ route u v, fleet.hop route u = some v → fleet.Renames route →
      ¬Relation.ReflTransGen (Hops fleet.hop) v u) ∧
    ∀ copies, (relay fleet.hop).Reachable copies → ∀ copy ∈ copies,
      ∀ (pre post : List (Visit LocalTopic Route)) (visit : Visit LocalTopic Route),
        copy.trail = pre ++ visit :: post → visit.node = copy.node →
        ∀ passed ∈ pre ++ [visit], ¬fleet.Renames passed.edge := by
  have hranked := ranked hdebug hdoc
  constructor
  · intro route u v h hrenames
    exact hranked.not_path_back h hrenames
  · intro copies hreach copy hc pre post visit htrail hback passed hm
    exact hranked.not_raises_of_return hreach hc htrail hback hm

/-! ## Messages that return -/

/-- An entry that routes a topic of strings. -/
def stringEntry (topic : String) (srcIP dstIP : String) (hasPrefix : Bool) : XmlRpcValue :=
  .struct [
    (ascii "topic_name", .string (ascii topic)),
    (ascii "msg_type", .string (ascii "std_msgs/String")),
    (ascii "qos_class", .string (ascii "state")),
    (ascii "srcIP", .array [.string (ascii srcIP)]),
    (ascii "dstIP", .array [.string (ascii dstIP)]),
    (ascii "prefix", .boolean hasPrefix)]

/-- Two drones with a topic list. -/
def twoDrones (entries : List XmlRpcValue) : Parameters where
  hosts := some (.array [.string (ascii "drone1"), .string (ascii "drone2")])
  topics := some (.array entries)

/-- Each drone sends `/chat` to all others, where it keeps its name. -/
def mutualParams : Parameters := twoDrones [stringEntry "/chat" "all" "all" false]

/-- Both drones start with these parameters. -/
theorem chat_starts : starts documentedPlatform stringMessages mutualParams = true := by
  decide +kernel

def chatFleet : Fleet stringMessages mutualParams :=
  ofStarts documentedPlatform stringMessages mutualParams chat_starts

/-- The second drone sends back what it has received under a prefix. -/
def echoParams : Parameters := twoDrones [
  stringEntry "/chat" "drone1" "drone2" true,
  stringEntry "/drone1/chat" "drone2" "drone1" true]

/-- Both drones start with these parameters. -/
theorem echo_starts : starts documentedPlatform stringMessages echoParams = true := by
  decide +kernel

def echoFleet : Fleet stringMessages echoParams :=
  ofStarts documentedPlatform stringMessages echoParams echo_starts

private theorem chat_hops :
    chatFleet.hop ⟨0, ascii "drone2"⟩ ⟨ascii "drone1", ascii "/chat"⟩ =
      some ⟨ascii "drone2", ascii "/chat"⟩ ∧
    chatFleet.hop ⟨0, ascii "drone1"⟩ ⟨ascii "drone2", ascii "/chat"⟩ =
      some ⟨ascii "drone1", ascii "/chat"⟩ := by
  decide +kernel

private theorem echo_hops :
    echoFleet.hop ⟨0, ascii "drone2"⟩ ⟨ascii "drone1", ascii "/chat"⟩ =
      some ⟨ascii "drone2", ascii "/drone1/chat"⟩ ∧
    echoFleet.hop ⟨1, ascii "drone1"⟩ ⟨ascii "drone2", ascii "/drone1/chat"⟩ =
      some ⟨ascii "drone1", ascii "/drone2/drone1/chat"⟩ := by
  decide +kernel

private theorem not_neverReturns {u v w : LocalTopic} {out back : Route}
    (hout : fleet.hop out u = some v) (hback : fleet.hop back v = some w)
    (hhost : w.host = u.host) : ¬fleet.NeverReturns := by
  intro h
  have hfollows : Follows fleet.hop w [⟨v, back⟩, ⟨u, out⟩] := ⟨hback, hout, trivial⟩
  obtain ⟨copies, hreach, hm⟩ := reachable_of_follows hfollows
  exact h copies hreach _ hm _ _ [] rfl hhost

/-- With names kept, a message runs in a circle between two drones; even with prefixes it returns
to its host under another name. -/
theorem messages_return :
    ¬chatFleet.Acyclic ∧ ¬chatFleet.NeverReturns ∧ ¬echoFleet.NeverReturns := by
  refine ⟨?_, not_neverReturns chat_hops.1 chat_hops.2 rfl,
    not_neverReturns echo_hops.1 echo_hops.2 rfl⟩
  intro h
  apply h ⟨ascii "drone1", ascii "/chat"⟩
  exact Relation.TransGen.tail (Relation.TransGen.single ⟨_, chat_hops.1⟩) ⟨_, chat_hops.2⟩

private theorem echo_renames : echoFleet.Renames ⟨0, ascii "drone2"⟩ := by
  have hprefix : (echoFleet.rules[0]?).map TopicCfg.hasPrefix = some true := by
    decide +kernel
  obtain ⟨rule, hrule, hadds⟩ := Option.map_eq_some_iff.mp hprefix
  exact ⟨rule, hrule, Or.inl hadds⟩

/-- No way leads from the prefixed topic back to `/chat`. -/
theorem loops_keep_names_echo :
    ¬Relation.ReflTransGen (Hops echoFleet.hop) ⟨ascii "drone2", ascii "/drone1/chat"⟩
      ⟨ascii "drone1", ascii "/chat"⟩ :=
  (loops_keep_names echoFleet rfl fun _ _ ↦ documentedPlatform_documented).1 _ _ _ echo_hops.1
    echo_renames

end Fleet

end NetBridge.Bridge
