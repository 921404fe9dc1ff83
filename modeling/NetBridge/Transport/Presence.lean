import NetBridge.Base.Edges
import NetBridge.Base.Overwrite
import NetBridge.Transport.KeySpace

/-!
# Presence and reconnections

What `ZenohTransport` keeps of liveliness tokens and of the links of its session,
`src/swarm_ros_bridge/src/transport/zenoh_transport.cpp:186–207,240–330`. Both counters are
64-bit words that count edges of a signal. Readings of the steady clock are nanoseconds.
-/

namespace NetBridge.Transport

open NetBridge.Base

/-! ## Presence -/

/-- `PresenceRecord`; `zenoh_transport.cpp:304–308`. -/
structure PresenceRecord where
  online : Bool := false
  stateChangedAt : Int := 0
  onlineTransitions : UInt64 := 0
deriving DecidableEq

/-- `presence_`. -/
abbrev PresenceMap : Type := Std.ExtTreeMap Bytes PresenceRecord

/-- `UpdatePresence`; `zenoh_transport.cpp:310–330`. -/
def updatePresence (presence : PresenceMap) (hostname : Bytes) (online : Bool) (now : Int) :
    PresenceMap :=
  match presence[hostname]? with
  | none =>
    presence.insert hostname
      { online, stateChangedAt := now, onlineTransitions := if online then 1 else 0 }
  | some existing =>
    if existing.online = online then presence
    else
      presence.insert hostname
        { online, stateChangedAt := now,
          onlineTransitions :=
            if online then existing.onlineTransitions + 1 else existing.onlineTransitions }

/-- `Z_SAMPLE_KIND_PUT` and `Z_SAMPLE_KIND_DELETE`. -/
inductive SampleKind where
  | put
  | delete
deriving DecidableEq

/-- A liveliness sample with the time of its callback. -/
structure LivelinessSample where
  keyexpr : Bytes
  kind : SampleKind
  time : Int

/-- The callback of the liveliness subscriber; `zenoh_transport.cpp:190–201`. -/
def onLiveliness (presence : PresenceMap) (sample : LivelinessSample) : PresenceMap :=
  match parseAliveKey sample.keyexpr (some []) with
  | (true, some discoveredHostname) =>
    match sample.kind with
    | .put => updatePresence presence discoveredHostname true sample.time
    | .delete => updatePresence presence discoveredHostname false sample.time
  | _ => presence

/-- `NodePresence`; `bridge_transport.hpp:88–93`. -/
structure NodePresence where
  hostname : Bytes := []
  online : Bool := false
  stateAgeMs : UInt64 := 0
  onlineTransitions : UInt64 := 0
deriving DecidableEq

/-- `Presence`; `zenoh_transport.cpp:267–285`. -/
def nodePresence (presence : PresenceMap) (now : Int) : List NodePresence :=
  presence.toList.map fun item ↦
    { hostname := item.1
      online := item.2.online
      stateAgeMs := UInt64.ofInt ((now - item.2.stateChangedAt).tdiv 1000000)
      onlineTransitions := item.2.onlineTransitions }

/-- An event of a host: its token appears, by PUT, or disappears, by DELETE. -/
structure PresenceEvent where
  hostname : Bytes
  online : Bool
  time : Int

/-- What the events leave of `presence_`. -/
def presenceAfter (events : List PresenceEvent) : PresenceMap :=
  events.foldl (fun presence event ↦
    updatePresence presence event.hostname event.online event.time) ∅

/-- The events of one host. -/
def historyOf (hostname : Bytes) (events : List PresenceEvent) : List (Bool × Int) :=
  (events.filter (·.hostname = hostname)).map fun event ↦ (event.online, event.time)

/-- The record says what the events of its host amount to: the last state, how often the host has
come online, and when the state last changed. -/
structure PresenceRecord.Accounts (record : PresenceRecord) (history : List (Bool × Int)) :
    Prop where
  online : lastValue history = some record.online
  transitions : record.onlineTransitions.toNat =
    rises (history.map Prod.fst) % 18446744073709551616
  changed : LatestChange history record.stateChangedAt

/-- The record of another host is left alone. -/
theorem updatePresence_of_ne {presence : PresenceMap} {hostname other : Bytes}
    (h : other ≠ hostname) (online : Bool) (now : Int) :
    (updatePresence presence other online now)[hostname]? = presence[hostname]? := by
  unfold updatePresence
  split
  · rw [getElem?_insert_eq, if_neg h]
  · split
    · rfl
    · rw [getElem?_insert_eq, if_neg h]

private theorem historyOf_concat (hostname : Bytes) (events : List PresenceEvent)
    (event : PresenceEvent) :
    historyOf hostname (events ++ [event]) = historyOf hostname events ++
      if event.hostname = hostname then [(event.online, event.time)] else [] := by
  rw [historyOf, List.filter_append, List.map_append, List.filter_singleton]
  congr 1
  by_cases h : event.hostname = hostname
  · simp [h]
  · simp [h]

private theorem presenceAfter_concat (events : List PresenceEvent) (event : PresenceEvent) :
    presenceAfter (events ++ [event]) =
      updatePresence (presenceAfter events) event.hostname event.online event.time := by
  rw [presenceAfter, List.foldl_append]
  rfl

/-- An event of a host is added to the account of the host. -/
theorem PresenceRecord.Accounts.update {record : PresenceRecord} {history : List (Bool × Int)}
    (h : record.Accounts history) {presence : PresenceMap} {hostname : Bytes}
    (hrecord : presence[hostname]? = some record) (online : Bool) (now : Int) :
    ∃ record', (updatePresence presence hostname online now)[hostname]? = some record' ∧
      record'.Accounts (history ++ [(online, now)]) := by
  have hlast : ((history.map Prod.fst).getLast?.getD false) = record.online := by
    rw [getLast?_map_fst, h.online]
    rfl
  have hrises : rises ((history ++ [(online, now)]).map Prod.fst) =
      rises (history.map Prod.fst) + if (!record.online && online) = true then 1 else 0 := by
    rw [List.map_append, List.map_cons, List.map_nil, rises_concat, hlast]
  unfold updatePresence
  rw [hrecord]
  by_cases hsame : record.online = online
  · simp only [if_pos hsame]
    refine ⟨record, hrecord, ?_, ?_, ?_⟩
    · rw [lastValue_concat, hsame]
    · have hno : (!record.online && online) = false := by
        rw [hsame]
        cases online <;> rfl
      rw [hrises, hno]
      exact h.transitions
    · exact h.changed.of_repeated (h.online.trans (congrArg some hsame))
  · simp only [if_neg hsame, getElem?_insert_eq, if_true]
    refine ⟨_, rfl, ?_, ?_, ?_⟩
    · rw [lastValue_concat]
    · rw [hrises]
      cases online with
      | false =>
        rw [Bool.and_false, if_neg Bool.false_ne_true, if_neg Bool.false_ne_true]
        exact h.transitions
      | true =>
        have hoff : record.online = false := by simpa using hsame
        have hone : (1 : UInt64).toNat = 1 := rfl
        rw [hoff]
        show (record.onlineTransitions + 1).toNat = (rises (history.map Prod.fst) + 1) % _
        rw [UInt64.toNat_add, h.transitions, hone]
        exact Nat.mod_add_mod _ _ _
    · apply LatestChange.of_changed
      rw [h.online]
      exact fun he ↦ hsame (Option.some.inj he)

/-- The first event of a host opens its account. -/
theorem PresenceRecord.accounts_first {presence : PresenceMap} {hostname : Bytes}
    (hnone : presence[hostname]? = none) (online : Bool) (now : Int) :
    ∃ record, (updatePresence presence hostname online now)[hostname]? = some record ∧
      record.Accounts [(online, now)] := by
  unfold updatePresence
  rw [hnone]
  simp only [getElem?_insert_eq, if_true]
  refine ⟨_, rfl, rfl, ?_, ?_⟩
  · cases online <;> rfl
  · have hnone : (([] : List (Bool × Int)).getLast?.map Prod.fst) ≠ some online := fun h ↦ nomatch h
    exact LatestChange.of_changed hnone

/-- After any events exactly the hosts that had one have a record, and it accounts for all of
theirs. -/
theorem presenceAfter_accounts (events : List PresenceEvent) (hostname : Bytes) :
    (historyOf hostname events = [] ∧ (presenceAfter events)[hostname]? = none) ∨
      ∃ record, (presenceAfter events)[hostname]? = some record ∧
        record.Accounts (historyOf hostname events) := by
  induction events using List.reverseRecOn with
  | nil => exact Or.inl ⟨rfl, Std.ExtTreeMap.getElem?_empty⟩
  | append_singleton events event ih =>
    rw [presenceAfter_concat, historyOf_concat]
    by_cases hhost : event.hostname = hostname
    · rw [if_pos hhost, hhost]
      apply Or.inr
      rcases ih with ⟨hnil, hnone⟩ | ⟨record, hrecord, haccounts⟩
      · rw [hnil]
        exact PresenceRecord.accounts_first hnone event.online event.time
      · exact haccounts.update hrecord event.online event.time
    · rw [if_neg hhost, List.append_nil, updatePresence_of_ne hhost]
      exact ih

/-- A host that has been seen stays. -/
theorem mem_presenceAfter_append {events : List PresenceEvent} {hostname : Bytes}
    (h : hostname ∈ presenceAfter events) (more : List PresenceEvent) :
    hostname ∈ presenceAfter (events ++ more) := by
  rw [Std.ExtTreeMap.mem_iff_isSome_getElem?] at h ⊢
  have hnonempty : historyOf hostname events ≠ [] := by
    rcases presenceAfter_accounts events hostname with ⟨-, hnone⟩ | ⟨record, -, haccounts⟩
    · rw [hnone] at h
      cases h
    · intro hnil
      have honline := haccounts.online
      rw [hnil] at honline
      cases honline
  rcases presenceAfter_accounts (events ++ more) hostname with ⟨hnil, -⟩ | ⟨record, hrecord, -⟩
  · rw [historyOf, List.filter_append, List.map_append, List.append_eq_nil_iff] at hnil
    exact absurd hnil.1 hnonempty
  · rw [hrecord]
    rfl

/-! ## Reconnections -/

/-- `TransportStats`; `bridge_transport.hpp:76–86`. -/
structure TransportStats where
  sessionOpen : Bool := false
  linkConnected : Bool := false
  connectedPeerCount : UInt64 := 0
  connectedRouterCount : UInt64 := 0
  reconnectCount : UInt64 := 0
  receiveDecodeErrors : UInt64 := 0
  callbackDrops : UInt64 := 0
  serviceTimeouts : UInt64 := 0
  serviceQueueDrops : UInt64 := 0
deriving DecidableEq

/-- The members that `Stats` changes; `zenoh_transport.cpp:294–296`. -/
structure LinkState where
  lastLinkConnected : Bool := false
  everLinkConnected : Bool := false
  reconnectCount : UInt64 := 0
deriving DecidableEq

/-- What a call of `Stats` reads: the flag, whether there is a session, the sizes of its lists of
peers and of routers, unless the call throws, and the other counters. -/
structure StatsReading where
  sessionOpen : Bool
  session : Bool := true
  peers : Option UInt64
  routers : Option UInt64
  receiveDecodeErrors : UInt64 := 0
  callbackDrops : UInt64 := 0
  serviceTimeouts : UInt64 := 0
  serviceQueueDrops : UInt64 := 0

/-- The counts of peers and routers; `zenoh_transport.cpp:242–252`. -/
def StatsReading.counts (r : StatsReading) : UInt64 × UInt64 :=
  if r.sessionOpen && r.session then
    match r.peers, r.routers with
    | none, _ => (0, 0)
    | some peers, none => (peers, 0)
    | some peers, some routers => (peers, routers)
  else (0, 0)

/-- `stats.link_connected`; `zenoh_transport.cpp:253–254`. -/
def StatsReading.linkConnected (r : StatsReading) : Bool := r.counts.1 + r.counts.2 > 0

/-- `Stats`; `zenoh_transport.cpp:240–265`. -/
def LinkState.stats (s : LinkState) (r : StatsReading) : TransportStats × LinkState :=
  let wasConnected := s.lastLinkConnected
  let s := { s with lastLinkConnected := r.linkConnected }
  let s :=
    if r.linkConnected && !wasConnected then
      if s.everLinkConnected then { s with reconnectCount := s.reconnectCount + 1 }
      else { s with everLinkConnected := true }
    else s
  ({ sessionOpen := r.sessionOpen
     linkConnected := r.linkConnected
     connectedPeerCount := r.counts.1
     connectedRouterCount := r.counts.2
     reconnectCount := s.reconnectCount
     receiveDecodeErrors := r.receiveDecodeErrors
     callbackDrops := r.callbackDrops
     serviceTimeouts := r.serviceTimeouts
     serviceQueueDrops := r.serviceQueueDrops }, s)

/-- What the polls leave of the link. -/
def linkAfter (polls : List StatsReading) : LinkState :=
  polls.foldl (fun s r ↦ (s.stats r).2) {}

/-- The state after polls that saw the links of `signal`. -/
structure LinkState.Counts (s : LinkState) (signal : List Bool) : Prop where
  last : s.lastLinkConnected = signal.getLast?.getD false
  ever : s.everLinkConnected = decide (0 < rises signal)
  count : s.reconnectCount.toNat = (rises signal - 1) % 18446744073709551616

/-- A poll is added to the count. -/
theorem LinkState.Counts.stats {s : LinkState} {signal : List Bool} (h : s.Counts signal)
    (r : StatsReading) : (s.stats r).2.Counts (signal ++ [r.linkConnected]) := by
  have hrises := rises_concat signal r.linkConnected
  rw [← h.last] at hrises
  unfold LinkState.stats
  cases hlink : r.linkConnected with
  | false =>
    rw [hlink, Bool.and_false, if_neg Bool.false_ne_true, Nat.add_zero] at hrises
    constructor
    · rw [List.getLast?_concat]
      rfl
    · rw [hrises]
      exact h.ever
    · rw [hrises]
      exact h.count
  | true =>
    rw [hlink] at hrises
    cases hlast : s.lastLinkConnected with
    | true =>
      rw [hlast] at hrises
      constructor
      · rw [List.getLast?_concat]
        rfl
      · rw [hrises]
        exact h.ever
      · rw [hrises]
        exact h.count
    | false =>
      rw [hlast] at hrises
      have hrises : rises (signal ++ [true]) = rises signal + 1 := hrises
      have hever := h.ever
      have hcount := h.count
      by_cases hpos : 0 < rises signal
      · rw [decide_eq_true hpos] at hever
        simp only [Bool.not_false, Bool.and_self, if_true, hever]
        constructor
        · rw [List.getLast?_concat]
          rfl
        · rw [hrises, decide_eq_true (Nat.succ_pos _)]
        · have hone : (1 : UInt64).toNat = 1 := rfl
          show (s.reconnectCount + 1).toNat = _
          rw [hrises, UInt64.toNat_add, hcount, hone]
          omega
      · rw [decide_eq_false hpos] at hever
        simp only [Bool.not_false, Bool.and_self, if_true, hever, Bool.false_eq_true, if_false]
        constructor
        · rw [List.getLast?_concat]
          rfl
        · rw [hrises, decide_eq_true (Nat.succ_pos _)]
        · show s.reconnectCount.toNat = _
          rw [hrises, hcount]
          omega

/-- After any polls the count of reconnections is that of the links they saw. -/
theorem linkAfter_counts (polls : List StatsReading) :
    (linkAfter polls).Counts (polls.map StatsReading.linkConnected) := by
  induction polls using List.reverseRecOn with
  | nil => exact ⟨rfl, rfl, rfl⟩
  | append_singleton polls r ih =>
    rw [linkAfter, List.foldl_append, List.map_append]
    exact ih.stats r

/-- Records and reports count the edges of their signals, modulo the size of a word: the record of
a host says its last state, how often it has come online and when its state last changed, no host
disappears, and a poll reports how often a link has come up again. -/
theorem presence_counts_edges :
    (∀ (events : List PresenceEvent) (hostname : Bytes),
      (historyOf hostname events = [] ∧ (presenceAfter events)[hostname]? = none) ∨
        ∃ record, (presenceAfter events)[hostname]? = some record ∧
          record.Accounts (historyOf hostname events)) ∧
    (∀ (events more : List PresenceEvent) (hostname : Bytes), hostname ∈ presenceAfter events →
      hostname ∈ presenceAfter (events ++ more)) ∧
    (∀ (polls : List StatsReading) (r : StatsReading),
      ((linkAfter polls).stats r).1.reconnectCount.toNat =
        (rises ((polls ++ [r]).map StatsReading.linkConnected) - 1) % 18446744073709551616) := by
  refine ⟨presenceAfter_accounts, fun events more hostname h ↦ mem_presenceAfter_append h more, ?_⟩
  intro polls r
  rw [List.map_append]
  exact ((linkAfter_counts polls).stats r).count

/-- A host that comes and goes, again and again. -/
def restarts (n : Nat) : List PresenceEvent :=
  (List.replicate n [⟨ascii "drone1", true, 0⟩, ⟨ascii "drone1", false, 0⟩]).flatten

private theorem historyOf_restarts (n : Nat) :
    historyOf (ascii "drone1") (restarts n) =
      (List.replicate n [(true, 0), (false, 0)]).flatten := by
  induction n with
  | zero => rfl
  | succ n ih =>
    rw [restarts, List.replicate_succ, List.flatten_cons, List.replicate_succ, List.flatten_cons,
      ← ih]
    rfl

private theorem rises_restarts (n : Nat) :
    rises ((historyOf (ascii "drone1") (restarts n)).map Prod.fst) = n ∧
      ((historyOf (ascii "drone1") (restarts n)).map Prod.fst).getLast?.getD false = false := by
  rw [historyOf_restarts]
  induction n with
  | zero => exact ⟨rfl, rfl⟩
  | succ n ih =>
    rw [List.replicate_succ', List.flatten_concat, List.map_append]
    have hsplit : ∀ signal : List Bool, signal ++ [true, false] = signal ++ [true] ++ [false] :=
      fun signal ↦ (List.append_assoc signal [true] [false]).symm
    show rises (_ ++ [true, false]) = n + 1 ∧ (_ ++ [true, false]).getLast?.getD false = false
    rw [hsplit, rises_concat, rises_concat, ih.1, ih.2, List.getLast?_concat, List.getLast?_concat]
    exact ⟨rfl, rfl⟩

/-- The count of a host that has come online `2 ^ 64` times is zero. -/
theorem presence_count_wraps :
    ∃ record, (presenceAfter (restarts 18446744073709551616))[ascii "drone1"]? = some record ∧
      record.onlineTransitions.toNat ≠
        rises ((historyOf (ascii "drone1") (restarts 18446744073709551616)).map Prod.fst) := by
  have hrises := (rises_restarts 18446744073709551616).1
  rcases presenceAfter_accounts (restarts 18446744073709551616) (ascii "drone1") with
    ⟨hnil, -⟩ | ⟨record, hrecord, haccounts⟩
  · rw [hnil] at hrises
    cases hrises
  · refine ⟨record, hrecord, ?_⟩
    rw [haccounts.transitions, hrises]
    decide

end NetBridge.Transport
