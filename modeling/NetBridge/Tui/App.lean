import NetBridge.Base.Machine
import NetBridge.Config.BridgeConfig
import NetBridge.Tui.History
import NetBridge.Tui.Menu
import Std.Data.ExtTreeSet

/-!
# The user interface

`App`, `src/swarm_ros_bridge/src/tui/app.cpp:26–62,176–392`, over `ViewState`,
`include/tui/view_state.hpp`: terminal events and the ticks of the refresh thread are handled, the
screen is drawn, and the spinner thread updates the cache, in any order. Of the screens there is
what they read at an index and what drawing changes; texts and colours are left out.
-/

namespace NetBridge.Tui

open NetBridge.Base NetBridge.Config NetBridge.Diagnostics

variable {β : Type}

/-- `ViewState` without its constant lists and the frame of the animations;
`view_state.hpp:10–31`. -/
structure ViewState where
  selectedNav : Int := 0
  selectedTopic : Int := 0
  selectedHost : Int := 0
  selectedLogLevel : Int := 0
  showHelp : Bool := false
  showQuitConfirm : Bool := false
deriving DecidableEq

/-- The number of `nav_items`; `view_state.hpp:18–19`. -/
def navItems : Nat := 4

/-- The number of `log_levels`; `view_state.hpp:20–21`. -/
def logLevels : Nat := 4

/-- The time between two samples of the history, 500 ms. -/
def sampleInterval : Int := 500000000

/-- A sample of the history: when it was taken, when the cache was found fresh, and the cache. -/
structure Sampling (β : Type) where
  time : Int
  checked : Int
  cache : DiagnosticsCache β

/-- `App` with what `Run` has on its stack: the selector of the outer container and the time of the
last sample. It is recorded whether the loop was told to exit, whether a list was read beyond its
ends, and the samples. -/
structure App (β : Type) where
  state : ViewState := {}
  hostEntries : List Bytes := []
  selector : Int := 0
  cache : DiagnosticsCache β := {}
  history : HistoryStore β := {}
  lastSample : Int
  exitRequested : Bool := false
  failed : Bool := false
  samples : List (Sampling β) := []

/-- The boxes of the components after the last layout. -/
structure Layout where
  nav : Boxes := {}
  topics : Boxes := {}
  hosts : Boxes := {}
  logLevels : Boxes := {}
  main : Boxes := {}

/-- What happens to the user interface, with the readings of the steady clock: for the sampling and
for the age of the diagnostics. -/
inductive AppAction (β : Type) where
  | event (event : Event) (layout : Layout)
  | render (now checked : Int)
  | diagnostics (info : List (NetworkInfo β)) (now : Int)

namespace App

/-- A configured name that is a host; `app.cpp:44`. -/
def isHost (name : Bytes) : Bool := name ≠ ascii "all" && name ≠ ascii "all_drone"

section

variable (config : BridgeConfig)

/-- The `hosts` of `BuildHostEntries`; `app.cpp:42–55`. -/
def hostNames (cache : DiagnosticsCache β) : List Bytes :=
  let configured := config.ipMap.keys.filter isHost
  let observed := (cache.nodeSnapshot.map NetworkInfo.nodeHostname).filter (!·.isEmpty)
  (Std.ExtTreeSet.ofList (configured ++ observed)).toList

/-- `BuildHostEntries`; `app.cpp:41–62`. -/
def buildHostEntries (s : App β) : App β :=
  let hostEntries := hostNames config s.cache
  { s with
    hostEntries
    state.selectedHost :=
      if hostEntries.isEmpty then 0 else min s.state.selectedHost (hostEntries.length - 1) }

/-! ## Events -/

/-- The pane of the selected tab takes the focus, if it has something to select. -/
def contentFocusable (s : App β) : Bool :=
  if s.state.selectedNav = 0 then false
  else if s.state.selectedNav = 1 then config.topics ≠ []
  else if s.state.selectedNav = 2 then s.hostEntries ≠ []
  else true

/-- `OnEvent` of the tab bar, and the focus if it takes it. -/
def navEvent (s : App β) (event : Event) (layout : Layout) : Bool × App β :=
  let result :=
    Menu.onEvent .right navItems (s.selector = 0) layout.nav event s.state.selectedNav
  (result.handled, { s with
    state.selectedNav := result.selected
    selector := if result.takesFocus then 0 else s.selector })

/-- `OnEvent` of the pane of the selected tab; `container.cpp:28–42,217–239`. -/
def contentEvent (s : App β) (event : Event) (layout : Layout) : Bool × App β :=
  let focused := s.selector = 1 && s.contentFocusable config
  let takes (result : MenuResult) : Int := if result.takesFocus then 1 else s.selector
  if event.mouse = none ∧ !focused then (false, s)
  else if s.state.selectedNav = 0 then (false, s)
  else if s.state.selectedNav = 1 then
    let result := Menu.onEvent .down config.topics.length focused layout.topics event
      s.state.selectedTopic
    (result.handled, { s with
      state.selectedTopic := result.selected
      selector := takes result })
  else if s.state.selectedNav = 2 then
    let result := Menu.onEvent .down s.hostEntries.length focused layout.hosts event
      s.state.selectedHost
    (result.handled, { s with
      state.selectedHost := result.selected
      selector := takes result })
  else
    let result := Menu.onEvent .right logLevels focused layout.logLevels event
      s.state.selectedLogLevel
    (result.handled, { s with
      state.selectedLogLevel := result.selected
      selector := takes result })

/-- `MoveSelector` between the tab bar, which can always have the focus, and the content;
`container.cpp:72–80`. -/
def moveSelector (s : App β) (down : Bool) : App β :=
  if down then
    if s.selector = 0 ∧ s.contentFocusable config then { s with selector := 1 } else s
  else { s with selector := 0 }

/-- `EventHandler` of the outer container for a key; `container.cpp:113–150`. Where several moves
are made the second one finds no other component. -/
def mainKey (s : App β) (input : Bytes) (layout : Layout) : App β :=
  if input = Event.arrowUp ∨ input = ascii "k" ∨ input = Event.home then
    s.moveSelector config false
  else if input = Event.arrowDown ∨ input = ascii "j" ∨ input = Event.toEnd then
    s.moveSelector config true
  else if input = Event.pageUp ∧ 0 < layout.main.height then s.moveSelector config false
  else if input = Event.pageDown ∧ 0 < layout.main.height then s.moveSelector config true
  else if input = Event.tab ∨ input = Event.tabReverse then
    if s.selector = 0 then s.moveSelector config true else { s with selector := 0 }
  else s

/-- `OnEvent` of the outer container: for a key the component with the focus, for the mouse one
after the other, and what none of them handles; `container.cpp:28–42,152–176`. -/
def mainEvent (s : App β) (event : Event) (layout : Layout) : App β :=
  match event.mouse with
  | none =>
    let (handled, s) :=
      if s.selector = 0 then s.navEvent event layout else s.contentEvent config event layout
    if handled then s else s.mainKey config event.input layout
  | some mouse =>
    let (handled, s) := s.navEvent event layout
    if handled then s
    else
      let (handled, s) := s.contentEvent config event layout
      if handled then s
      else if !layout.main.inside then s
      else if mouse.button = .wheelUp then s.moveSelector config false
      else if mouse.button = .wheelDown then s.moveSelector config true
      else s

/-- The handler around the components; `app.cpp:346–386`. -/
def onEvent (s : App β) (event : Event) (layout : Layout) : App β :=
  if s.state.showQuitConfirm then
    if event.input = ascii "q" then { s with exitRequested := true }
    else { s with state.showQuitConfirm := false }
  else if s.state.showHelp then
    if event.input = ascii "?" ∨ event.input = Event.escape then
      { s with state.showHelp := false }
    else s
  else if event.input = ascii "?" then { s with state.showHelp := true }
  else if event.input = ascii "q" then { s with state.showQuitConfirm := true }
  else if event.input = ascii "f" ∧ s.state.selectedNav = 3 then
    { s with state.selectedLogLevel := (s.state.selectedLogLevel + 1).tmod logLevels }
  else if event.input = ascii "1" then { s with state.selectedNav := 0 }
  else if event.input = ascii "2" then { s with state.selectedNav := 1 }
  else if event.input = ascii "3" then { s with state.selectedNav := 2 }
  else if event.input = ascii "4" then { s with state.selectedNav := 3 }
  else s.mainEvent config event layout

/-! ## Drawing -/

/-- A list of this size has an entry at the index. -/
def inBounds (size : Nat) (index : Int) : Bool := 0 ≤ index && index < size

/-- The history is sampled twice a second while the diagnostics are fresh; `app.cpp:292–298`. -/
def sampleHistory [Add β] [Zero β] (s : App β) (now checked : Int) : App β :=
  if sampleInterval ≤ now - s.lastSample then
    if s.cache.isFresh checked then { s with
      lastSample := now
      history := s.history.sample s.cache.snapshot
      samples := s.samples ++ [⟨now, checked, s.cache⟩] }
    else { s with lastSample := now }
  else s

/-- The screen of the selected tab: the entry that it reads, and `Clamp` of the menu that it draws;
`app.cpp:304–325`, `topics_screen.cpp:255–258`, `hosts_screen.cpp:105–108`,
`logs_screen.cpp:50–53`. -/
def renderScreen (s : App β) : App β :=
  if s.state.selectedNav = 0 then s
  else if s.state.selectedNav = 1 then { s with
    failed := s.failed || (config.topics ≠ [] && !inBounds config.topics.length
      (min s.state.selectedTopic (config.topics.length - 1)))
    state.selectedTopic := Menu.clamped config.topics.length s.state.selectedTopic }
  else if s.state.selectedNav = 2 then { s with
    failed := s.failed || (s.hostEntries ≠ [] && !inBounds s.hostEntries.length
      (min s.state.selectedHost (s.hostEntries.length - 1)))
    state.selectedHost := Menu.clamped s.hostEntries.length s.state.selectedHost }
  else { s with
    failed := s.failed || !inBounds logLevels (max 0 (min s.state.selectedLogLevel (logLevels - 1)))
    state.selectedLogLevel := Menu.clamped logLevels s.state.selectedLogLevel }

/-- The function that draws; `app.cpp:287–344`. The tab bar is drawn last. No diagnostics arrive
between its readings of the cache. -/
def render [Add β] [Zero β] (s : App β) (now checked : Int) : App β :=
  let s := s.buildHostEntries config
  let s := s.sampleHistory now checked
  let s := s.renderScreen config
  { s with state.selectedNav := Menu.clamped navItems s.state.selectedNav }

/-- One step. -/
def step [Add β] [Zero β] (s : App β) : AppAction β → Option (App β)
  | .event event layout => some (s.onEvent config event layout)
  | .render now checked => some (s.render config now checked)
  | .diagnostics info now => some { s with cache := s.cache.update info now }

/-- `Run` before the loop, with what the cache has got so far; `app.cpp:176–179,284`. -/
def start (cache : DiagnosticsCache β) (now : Int) : App β :=
  buildHostEntries config { cache, lastSample := now - 1000000000 }

end

variable {config : BridgeConfig}

/-! ## What an event leaves alone -/

/-- At most selected entries and the focus have changed. -/
structure Moves (s t : App β) : Prop where
  help : t.state.showHelp = s.state.showHelp
  quitConfirm : t.state.showQuitConfirm = s.state.showQuitConfirm
  rest : ∃ state selector, t = { s with state, selector }

/-- Other changes of the view are moves. -/
theorem Moves.of_eq {s : App β} {state : ViewState} {selector : Int}
    (hhelp : state.showHelp = s.state.showHelp)
    (hquit : state.showQuitConfirm = s.state.showQuitConfirm) :
    Moves s { s with state, selector } :=
  ⟨hhelp, hquit, _, _, rfl⟩

/-- Two moves are one. -/
theorem Moves.trans {s t u : App β} (h : Moves s t) (h' : Moves t u) : Moves s u := by
  rcases h.rest with ⟨state, selector, rfl⟩
  rcases h'.rest with ⟨state', selector', rfl⟩
  exact .of_eq (h'.help.trans h.help) (h'.quitConfirm.trans h.quitConfirm)

private theorem moves_contentEvent (s : App β) (event : Event) (layout : Layout) :
    Moves s (s.contentEvent config event layout).2 := by
  unfold contentEvent
  dsimp only
  split
  · exact .of_eq rfl rfl
  · split
    · exact .of_eq rfl rfl
    · split
      · exact .of_eq rfl rfl
      · split
        · exact .of_eq rfl rfl
        · exact .of_eq rfl rfl

private theorem moves_moveSelector (s : App β) (down : Bool) :
    Moves s (s.moveSelector config down) := by
  unfold moveSelector
  split
  · split
    · exact .of_eq rfl rfl
    · exact .of_eq rfl rfl
  · exact .of_eq rfl rfl

private theorem moves_mainKey (s : App β) (input : Bytes) (layout : Layout) :
    Moves s (s.mainKey config input layout) := by
  unfold mainKey
  split
  · exact moves_moveSelector s _
  · split
    · exact moves_moveSelector s _
    · split
      · exact moves_moveSelector s _
      · split
        · exact moves_moveSelector s _
        · split
          · split
            · exact moves_moveSelector s _
            · exact .of_eq rfl rfl
          · exact .of_eq rfl rfl

/-- The components know nothing of the overlays. -/
theorem moves_mainEvent (s : App β) (event : Event) (layout : Layout) :
    Moves s (s.mainEvent config event layout) := by
  have hnav : Moves s (s.navEvent event layout).2 := .of_eq rfl rfl
  have hfocused : Moves s (if s.selector = 0 then s.navEvent event layout
      else s.contentEvent config event layout).2 := by
    split
    · exact hnav
    · exact moves_contentEvent s event layout
  unfold mainEvent
  split
  · split
    next handled t heq =>
      rw [heq] at hfocused
      split
      · exact hfocused
      · exact hfocused.trans (moves_mainKey t event.input layout)
  · dsimp only
    split
    · exact hnav
    · have hcontent : Moves s (contentEvent config (s.navEvent event layout).2 event layout).2 :=
        hnav.trans (moves_contentEvent _ event layout)
      split
      · exact hcontent
      · split
        · exact hcontent
        · split
          · exact hcontent.trans (moves_moveSelector _ _)
          · split
            · exact hcontent.trans (moves_moveSelector _ _)
            · exact hcontent

/-- At most the view state, the focus and the request to exit have changed. -/
structure Handles (s t : App β) : Prop where
  rest : ∃ state selector exitRequested, t = { s with state, selector, exitRequested }

/-- An event changes nothing else. -/
theorem handles_onEvent (s : App β) (event : Event) (layout : Layout) :
    Handles s (s.onEvent config event layout) := by
  unfold onEvent
  split
  · split
    · exact ⟨_, _, _, rfl⟩
    · exact ⟨_, _, _, rfl⟩
  · split
    · split
      · exact ⟨_, _, _, rfl⟩
      · exact ⟨_, _, _, rfl⟩
    · split
      · exact ⟨_, _, _, rfl⟩
      · split
        · exact ⟨_, _, _, rfl⟩
        · split
          · exact ⟨_, _, _, rfl⟩
          · split
            · exact ⟨_, _, _, rfl⟩
            · split
              · exact ⟨_, _, _, rfl⟩
              · split
                · exact ⟨_, _, _, rfl⟩
                · split
                  · exact ⟨_, _, _, rfl⟩
                  · rcases (moves_mainEvent s event layout).rest with ⟨state, selector, hmain⟩
                    exact ⟨state, selector, s.exitRequested, hmain⟩

/-- Sampling concerns the history alone. -/
theorem sampleHistory_eq [Add β] [Zero β] (s : App β) (now checked : Int) :
    ∃ lastSample history samples,
      s.sampleHistory now checked = { s with lastSample, history, samples } := by
  unfold sampleHistory
  split
  · split
    · exact ⟨_, _, _, rfl⟩
    · exact ⟨_, _, _, rfl⟩
  · exact ⟨_, _, _, rfl⟩

end App

/-- The user interface of a configuration. -/
def app [Add β] [Zero β] (config : BridgeConfig) : Machine (App β) (AppAction β) where
  init s := ∃ cache now, s = App.start config cache now
  step := App.step config

end NetBridge.Tui
