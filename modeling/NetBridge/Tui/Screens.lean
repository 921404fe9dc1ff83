import NetBridge.Tui.App

/-!
# What the screens read

The screens read the selected entries of their lists, `src/swarm_ros_bridge/src/tui/app.cpp:41–62`,
`topics_screen.cpp:255–258`, `hosts_screen.cpp:105–108`. An empty menu has the entry -1 selected,
which `BuildHostEntries` keeps once there is a host.
-/

namespace NetBridge.Tui

open NetBridge.Base NetBridge.Config NetBridge.Diagnostics

variable {β : Type} {config : BridgeConfig}

namespace App

/-- The entries are the configured hosts and those of the diagnostics. -/
theorem mem_hostNames {cache : DiagnosticsCache β} {name : Bytes} :
    name ∈ hostNames config cache ↔ (name ∈ config.ipMap ∧ isHost name = true) ∨
      ∃ row ∈ cache.nodeSnapshot, row.nodeHostname = name ∧ name ≠ [] := by
  simp only [hostNames, Std.ExtTreeSet.mem_toList, Std.ExtTreeSet.mem_ofList,
    List.contains_iff_mem, List.mem_append, List.mem_filter, Std.ExtTreeMap.mem_keys,
    List.mem_map, Bool.not_eq_true', List.isEmpty_eq_false_iff]
  constructor
  · rintro (h | ⟨⟨row, hrow, hname⟩, hne⟩)
    · exact Or.inl h
    · exact Or.inr ⟨row, hrow, hname, hne⟩
  · rintro (h | ⟨row, hrow, hname, hne⟩)
    · exact Or.inl h
    · exact Or.inr ⟨⟨row, hrow, hname⟩, hne⟩

/-- Nothing was read beyond a list, and the selected entries are such; there are hosts. -/
structure Sound (config : BridgeConfig) (s : App β) : Prop where
  hosts : s.hostEntries ≠ []
  nav : Menu.Valid navItems s.state.selectedNav
  topic : Menu.Valid config.topics.length s.state.selectedTopic
  host : 0 ≤ s.state.selectedHost
  logLevel : Menu.Valid logLevels s.state.selectedLogLevel
  inside : s.failed = false

/-! ## Events -/

private theorem sound_navEvent {s : App β} (hs : s.Sound config) (event : Event)
    (layout : Layout) : (s.navEvent event layout).2.Sound config :=
  ⟨hs.hosts, Menu.valid_onEvent _ _ _ _ _ _, hs.topic, hs.host, hs.logLevel, hs.inside⟩

private theorem sound_contentEvent {s : App β} (hs : s.Sound config) (event : Event)
    (layout : Layout) : (s.contentEvent config event layout).2.Sound config := by
  unfold contentEvent
  dsimp only
  split
  · exact hs
  · split
    · exact hs
    · split
      · exact ⟨hs.hosts, hs.nav, Menu.valid_onEvent _ _ _ _ _ _, hs.host, hs.logLevel, hs.inside⟩
      · split
        · have hvalid := Menu.valid_onEvent .down s.hostEntries.length
            (s.selector = 1 && s.contentFocusable config) layout.hosts event s.state.selectedHost
          have hlength : s.hostEntries.length ≠ 0 := by
            rw [ne_eq, List.length_eq_zero_iff]
            exact hs.hosts
          exact ⟨hs.hosts, hs.nav, hs.topic, (hvalid.2 hlength).1, hs.logLevel, hs.inside⟩
        · exact ⟨hs.hosts, hs.nav, hs.topic, hs.host, Menu.valid_onEvent _ _ _ _ _ _, hs.inside⟩

private theorem sound_moveSelector {s : App β} (hs : s.Sound config) (down : Bool) :
    (s.moveSelector config down).Sound config := by
  unfold moveSelector
  split
  · split
    · exact ⟨hs.hosts, hs.nav, hs.topic, hs.host, hs.logLevel, hs.inside⟩
    · exact hs
  · exact ⟨hs.hosts, hs.nav, hs.topic, hs.host, hs.logLevel, hs.inside⟩

private theorem sound_mainKey {s : App β} (hs : s.Sound config) (input : Bytes)
    (layout : Layout) : (s.mainKey config input layout).Sound config := by
  unfold mainKey
  split
  · exact sound_moveSelector hs _
  · split
    · exact sound_moveSelector hs _
    · split
      · exact sound_moveSelector hs _
      · split
        · exact sound_moveSelector hs _
        · split
          · split
            · exact sound_moveSelector hs _
            · exact ⟨hs.hosts, hs.nav, hs.topic, hs.host, hs.logLevel, hs.inside⟩
          · exact hs

private theorem sound_mainEvent {s : App β} (hs : s.Sound config) (event : Event)
    (layout : Layout) : (s.mainEvent config event layout).Sound config := by
  have hnav := sound_navEvent hs event layout
  have hfocused : (if s.selector = 0 then s.navEvent event layout
      else s.contentEvent config event layout).2.Sound config := by
    split
    · exact hnav
    · exact sound_contentEvent hs event layout
  unfold mainEvent
  split
  · split
    next handled s' heq =>
      have hs' : s'.Sound config := by
        rw [heq] at hfocused
        exact hfocused
      split
      · exact hs'
      · exact sound_mainKey hs' event.input layout
  · dsimp only
    split
    · exact hnav
    · have hcontent := sound_contentEvent hnav event layout
      split
      · exact hcontent
      · split
        · exact hcontent
        · split
          · exact sound_moveSelector hcontent _
          · split
            · exact sound_moveSelector hcontent _
            · exact hcontent

/-- An event selects entries only. -/
theorem sound_onEvent {s : App β} (hs : s.Sound config) (event : Event) (layout : Layout) :
    (s.onEvent config event layout).Sound config := by
  have htab : ∀ tab : Int, 0 ≤ tab → tab < navItems →
      Sound config { s with state.selectedNav := tab } := by
    intro tab hpos hlt
    have hvalid : Menu.Valid navItems tab := ⟨by omega, fun _ ↦ ⟨hpos, hlt⟩⟩
    exact ⟨hs.hosts, hvalid, hs.topic, hs.host, hs.logLevel, hs.inside⟩
  have hsame : ∀ t : App β, t.hostEntries = s.hostEntries → t.failed = s.failed →
      t.state.selectedNav = s.state.selectedNav → t.state.selectedTopic = s.state.selectedTopic →
      t.state.selectedHost = s.state.selectedHost →
      t.state.selectedLogLevel = s.state.selectedLogLevel → t.Sound config := by
    intro t hhosts hfailed hnav htopic hhost hlevel
    exact ⟨hhosts ▸ hs.hosts, hnav ▸ hs.nav, htopic ▸ hs.topic, hhost ▸ hs.host,
      hlevel ▸ hs.logLevel, hfailed.trans hs.inside⟩
  unfold onEvent
  split
  · split
    · exact hsame _ rfl rfl rfl rfl rfl rfl
    · exact hsame _ rfl rfl rfl rfl rfl rfl
  · split
    · split
      · exact hsame _ rfl rfl rfl rfl rfl rfl
      · exact hs
    · split
      · exact hsame _ rfl rfl rfl rfl rfl rfl
      · split
        · exact hsame _ rfl rfl rfl rfl rfl rfl
        · split
          · refine ⟨hs.hosts, hs.nav, hs.topic, hs.host, ?_, hs.inside⟩
            have hlevel := hs.logLevel.2 (by decide)
            show Menu.Valid logLevels ((s.state.selectedLogLevel + 1).tmod logLevels)
            rw [Int.tmod_eq_emod_of_nonneg (by omega)]
            unfold Menu.Valid logLevels
            omega
          · split
            · exact htab 0 (by decide) (by decide)
            · split
              · exact htab 1 (by decide) (by decide)
              · split
                · exact htab 2 (by decide) (by decide)
                · split
                  · exact htab 3 (by decide) (by decide)
                  · exact sound_mainEvent hs event layout

/-! ## Drawing -/

/-- A configured host makes the list of hosts nonempty. -/
theorem hostNames_ne_nil {name : Bytes} (hname : name ∈ config.ipMap) (hhost : isHost name = true)
    (cache : DiagnosticsCache β) : hostNames config cache ≠ [] :=
  List.ne_nil_of_mem (mem_hostNames.mpr (Or.inl ⟨hname, hhost⟩))

private theorem host_buildHostEntries {name : Bytes} (hname : name ∈ config.ipMap)
    (hhost : isHost name = true) {s : App β} (hs : 0 ≤ s.state.selectedHost) :
    (s.buildHostEntries config).hostEntries ≠ [] ∧
      0 ≤ (s.buildHostEntries config).state.selectedHost := by
  have hne := hostNames_ne_nil hname hhost s.cache
  refine ⟨hne, ?_⟩
  have hlength := List.length_pos_iff.mpr hne
  simp only [buildHostEntries]
  split
  · exact Int.le_refl 0
  · omega

private theorem inBounds_min {size : Nat} {selected : Int} (hsize : size ≠ 0) (h : 0 ≤ selected) :
    inBounds size (min selected (size - 1)) = true := by
  rw [inBounds, Bool.and_eq_true, decide_eq_true_eq, decide_eq_true_eq]
  omega

private theorem failed_renderScreen {s : App β} (hnav : s.state.selectedNav = 2)
    (hhosts : s.hostEntries ≠ []) (hselected : s.state.selectedHost = -1) :
    (s.renderScreen config).failed = true := by
  have hpos := List.length_pos_iff.mpr hhosts
  have hread : inBounds s.hostEntries.length (min (-1) (s.hostEntries.length - 1)) = false := by
    rw [inBounds, Bool.and_eq_false_iff, decide_eq_false_iff_not]
    left
    omega
  simp only [renderScreen, hnav, hselected, hread]
  simp [hhosts]

private theorem sound_renderScreen {s : App β} (hs : s.Sound config) :
    (s.renderScreen config).Sound config := by
  have hclamped := Menu.valid_clamped
  unfold renderScreen
  split
  · exact hs
  · split
    · refine ⟨hs.hosts, hs.nav, hclamped _ _, hs.host, hs.logLevel, ?_⟩
      by_cases htopics : config.topics = []
      · simp [hs.inside, htopics]
      · have hsize : config.topics.length ≠ 0 := by
          rwa [ne_eq, List.length_eq_zero_iff]
        have hread := inBounds_min hsize (hs.topic.2 hsize).1
        simp only [hs.inside, hread, Bool.not_true, Bool.and_false, Bool.or_false]
    · split
      · have hsize : s.hostEntries.length ≠ 0 := by
          rw [ne_eq, List.length_eq_zero_iff]
          exact hs.hosts
        have hread := inBounds_min hsize hs.host
        refine ⟨hs.hosts, hs.nav, hs.topic, ((hclamped _ _).2 hsize).1, hs.logLevel, ?_⟩
        simp only [hs.inside, hread, Bool.not_true, Bool.and_false, Bool.or_false]
      · refine ⟨hs.hosts, hs.nav, hs.topic, hs.host, hclamped _ _, ?_⟩
        have hread : inBounds logLevels
            (max 0 (min s.state.selectedLogLevel (logLevels - 1))) = true := by
          rw [inBounds, Bool.and_eq_true, decide_eq_true_eq, decide_eq_true_eq, logLevels]
          omega
        simp only [hs.inside, hread, Bool.not_true, Bool.or_false]

variable [Add β] [Zero β]

/-- Drawing reads entries only, and leaves such selected. -/
theorem sound_render {name : Bytes} (hname : name ∈ config.ipMap) (hhost : isHost name = true)
    {s : App β} (hs : s.Sound config) (now checked : Int) :
    (s.render config now checked).Sound config := by
  rcases host_buildHostEntries hname hhost hs.host with ⟨hentries, hselected⟩
  have hbuilt : (s.buildHostEntries config).Sound config :=
    ⟨hentries, hs.nav, hs.topic, hselected, hs.logLevel, hs.inside⟩
  have hsampled : ((s.buildHostEntries config).sampleHistory now checked).Sound config := by
    rcases (s.buildHostEntries config).sampleHistory_eq now checked with ⟨_, _, _, heq⟩
    rw [heq]
    exact ⟨hbuilt.hosts, hbuilt.nav, hbuilt.topic, hbuilt.host, hbuilt.logLevel, hbuilt.inside⟩
  have hscreen := sound_renderScreen hsampled
  exact ⟨hscreen.hosts, Menu.valid_clamped _ _, hscreen.topic, hscreen.host, hscreen.logLevel,
    hscreen.inside⟩

/-- With a configured host every run stays inside the lists. -/
theorem sound_of_reachable {name : Bytes} (hname : name ∈ config.ipMap)
    (hhost : isHost name = true) {s : App β} (h : (app config).Reachable s) : s.Sound config := by
  apply h.invariant
  · rintro _ ⟨cache, now, rfl⟩
    rcases host_buildHostEntries hname hhost (s := { cache, lastSample := now - 1000000000 })
      (Int.le_refl 0) with ⟨hentries, hselected⟩
    exact ⟨hentries, Menu.valid_zero _, Menu.valid_zero _, hselected, Menu.valid_zero _, rfl⟩
  · intro s a s' hs hstep
    change App.step config s a = some s' at hstep
    cases a with
    | event event layout =>
      cases hstep
      exact sound_onEvent hs event layout
    | render now checked =>
      cases hstep
      exact sound_render hname hhost hs now checked
    | diagnostics info now =>
      cases hstep
      exact ⟨hs.hosts, hs.nav, hs.topic, hs.host, hs.logLevel, hs.inside⟩

/-! ## Without a configured host -/

/-- The row of some host. -/
def someHost (β : Type) [Zero β] : NetworkInfo β :=
  { NetworkInfo.zeroed β with
    name := ascii "@zenoh/node/drone1"
    msgType := ascii "presence"
    nodeHostname := ascii "drone1" }

/-- The cache with that row. -/
def someHostCache (β : Type) [Zero β] : DiagnosticsCache β := ({} : DiagnosticsCache β).update
  [someHost β] 0

private theorem hostNames_someHost (β : Type) [Zero β] :
    hostNames config (someHostCache β) ≠ [] := by
  apply List.ne_nil_of_mem (a := ascii "drone1")
  refine mem_hostNames.mpr (Or.inr ⟨someHost β, ?_, rfl, by decide⟩)
  rw [DiagnosticsCache.nodeSnapshot, List.mem_filter]
  have hindexed : (indexBy NetworkInfo.name [someHost β])[(someHost β).name]? =
      some (someHost β) := by
    apply getElem?_indexBy_self
    · exact List.mem_singleton_self _
    · intro row hrow _
      exact List.mem_singleton.mp hrow
  exact ⟨mem_values_indexBy.mpr hindexed, decide_eq_true rfl⟩

omit [Add β] [Zero β] in
private theorem hostNames_nil (h : ∀ name ∈ config.ipMap, isHost name = false) :
    hostNames config ({} : DiagnosticsCache β) = [] := by
  rw [List.eq_nil_iff_forall_not_mem]
  intro name hm
  rcases mem_hostNames.mp hm with ⟨hname, hhost⟩ | ⟨row, hrow, _⟩
  · rw [h name hname] at hhost
    cases hhost
  · exact absurd hrow (by simp [DiagnosticsCache.nodeSnapshot, DiagnosticsCache.snapshot])

private theorem run_shown (h : ∀ name ∈ config.ipMap, isHost name = false) :
    (app config).run (App.start config ({} : DiagnosticsCache β) 0)
      [.event (.key "3") {}, .render 0 0] =
        some { lastSample := 0, state := { selectedNav := 2, selectedHost := -1 } } := by
  have hnone : hostNames config ({} : DiagnosticsCache β) = [] := hostNames_nil h
  have hstart : App.start config ({} : DiagnosticsCache β) 0 = { lastSample := -1000000000 } := by
    simp [App.start, buildHostEntries, hnone]
  have hkey : App.onEvent config ({ lastSample := -1000000000 } : App β) (.key "3") {} =
      { lastSample := -1000000000, state := { selectedNav := 2 } } := rfl
  have hrender : App.render config ({ lastSample := -1000000000, state := { selectedNav := 2 } } :
      App β) 0 0 = { lastSample := 0, state := { selectedNav := 2, selectedHost := -1 } } := by
    simp only [App.render, buildHostEntries, hnone, sampleHistory, renderScreen]
    rfl
  rw [hstart, Machine.run_cons_eq_some]
  refine ⟨_, congrArg some hkey, ?_⟩
  rw [Machine.run_cons_eq_some]
  exact ⟨_, congrArg some hrender, rfl⟩

/-- The first host that appears then is read at -1. -/
theorem exists_failed (h : ∀ name ∈ config.ipMap, isHost name = false) :
    ∃ (s s' : App β) (host : NetworkInfo β), (app config).Reachable s ∧
      hostNames config s.cache = [] ∧ s.state.selectedHost = -1 ∧
      (app config).run s [.diagnostics [host] 0, .render 0 0] = some s' ∧ s'.failed = true := by
  have hne : hostNames config (someHostCache β) ≠ [] := hostNames_someHost β
  have hpos := List.length_pos_iff.mpr hne
  let s : App β := {
    lastSample := 0
    state := { selectedNav := 2, selectedHost := -1 }
    cache := someHostCache β }
  have hshown : (app config).Reachable
      ({ lastSample := 0, state := { selectedNav := 2, selectedHost := -1 } } : App β) :=
    ⟨_, _, ⟨{}, 0, rfl⟩, run_shown h⟩
  refine ⟨_, s.render config 0 0, someHost β, hshown, hostNames_nil h, rfl, rfl, ?_⟩
  have hselected : (s.buildHostEntries config).state.selectedHost = -1 := by
    simp only [buildHostEntries]
    split
    · next hempty => exact absurd (List.isEmpty_iff.mp hempty) hne
    · show min (-1 : Int) (_ - 1) = -1
      omega
  rcases (s.buildHostEntries config).sampleHistory_eq 0 0 with ⟨_, _, _, hsampled⟩
  show (((s.buildHostEntries config).sampleHistory 0 0).renderScreen config).failed = true
  rw [hsampled]
  exact failed_renderScreen rfl hne hselected

end App

/-- The screens never read beyond their lists exactly if the user interface has a configured host.
Without one there is a run that leaves the index at -1 for want of hosts, and reads there when the
first one is discovered. -/
theorem screens_in_bounds_iff (β : Type) [Add β] [Zero β] (config : BridgeConfig) :
    ((∀ s : App β, (app config).Reachable s → s.failed = false) ↔
      ∃ name ∈ config.ipMap, App.isHost name = true) ∧
    ((∀ name ∈ config.ipMap, App.isHost name = false) →
      ∃ (s s' : App β) (host : NetworkInfo β), (app config).Reachable s ∧
        App.hostNames config s.cache = [] ∧ s.state.selectedHost = -1 ∧
        (app config).run s [.diagnostics [host] 0, .render 0 0] = some s' ∧ s'.failed = true) := by
  refine ⟨⟨?_, ?_⟩, App.exists_failed⟩
  · intro h
    by_contra hnone
    push Not at hnone
    have hread : ∃ (s s' : App β) (host : NetworkInfo β), _ :=
      App.exists_failed fun name hname ↦ Bool.eq_false_iff.mpr (hnone name hname)
    rcases hread with ⟨s, s', _, hs, _, _, hrun, hfailed⟩
    rw [h s' (hs.run hrun)] at hfailed
    cases hfailed
  · rintro ⟨name, hname, hhost⟩ s hs
    exact (App.sound_of_reachable hname hhost hs).inside

end NetBridge.Tui
