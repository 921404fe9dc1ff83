import NetBridge.Tui.App

/-!
# Leaving the user interface

The overlays of the event handler, `src/swarm_ros_bridge/src/tui/app.cpp:346–386`. The first `q`
asks, and any event but another `q` withdraws it, so also the tick that the refresh thread posts
every 125 ms (`app.cpp:277–282`). The exit of FTXUI itself at Ctrl-C is outside of the handler.
-/

namespace NetBridge.Tui

open NetBridge.Base NetBridge.Config NetBridge.Diagnostics

/-- What is shown over the screens. -/
inductive Overlay where
  | none
  | help
  | quitConfirm
deriving DecidableEq

/-- What the input of an event makes of it. -/
def Overlay.next : Overlay → Bytes → Overlay
  | .quitConfirm, input => if input = ascii "q" then .quitConfirm else .none
  | .help, input => if input = ascii "?" ∨ input = Event.escape then .none else .help
  | .none, input =>
    if input = ascii "?" then .help else if input = ascii "q" then .quitConfirm else .none

/-- What is shown after some inputs. -/
def Overlay.after (inputs : List Bytes) : Overlay := inputs.foldl next .none

/-- The loop is told to exit: two inputs `q` follow each other, the first without the help. -/
def Quits (inputs : List Bytes) : Prop :=
  ∃ before rest, inputs = before ++ [ascii "q", ascii "q"] ++ rest ∧
    Overlay.after before ≠ .help

/-- The input of an event. -/
def AppAction.input? {β : Type} : AppAction β → Option Bytes
  | .event e _ => some e.input
  | .render _ _ | .diagnostics _ _ => Option.none

/-! ## The overlays -/

/-- One more input is handled last. -/
@[simp] theorem Overlay.after_concat (inputs : List Bytes) (input : Bytes) :
    Overlay.after (inputs ++ [input]) = (Overlay.after inputs).next input := by
  rw [Overlay.after, List.foldl_append]
  rfl

/-- The question is shown right after a `q` that was not read by the help. -/
theorem Overlay.after_eq_quitConfirm {inputs : List Bytes} :
    Overlay.after inputs = .quitConfirm ↔
      ∃ before, inputs = before ++ [ascii "q"] ∧ Overlay.after before ≠ .help := by
  constructor
  · intro h
    cases inputs using List.reverseRecOn with
    | nil => cases h
    | append_singleton before input =>
      rw [Overlay.after_concat] at h
      refine ⟨before, ?_⟩
      cases hbefore : Overlay.after before with
      | none =>
        rw [hbefore] at h
        simp only [Overlay.next] at h
        split at h
        · cases h
        · split at h
          · next hq => exact ⟨by rw [hq], nofun⟩
          · cases h
      | help =>
        rw [hbefore] at h
        simp only [Overlay.next] at h
        split at h
        · cases h
        · cases h
      | quitConfirm =>
        rw [hbefore] at h
        simp only [Overlay.next] at h
        split at h
        · next hq => exact ⟨by rw [hq], nofun⟩
        · cases h
  · rintro ⟨before, rfl, hhelp⟩
    rw [Overlay.after_concat]
    cases hbefore : Overlay.after before with
    | none => rfl
    | help => exact absurd hbefore hhelp
    | quitConfirm => rfl

/-- One more input tells the loop to exit if it is a `q` that answers the question. -/
theorem quits_concat {inputs : List Bytes} {input : Bytes} :
    Quits (inputs ++ [input]) ↔
      Quits inputs ∨ (Overlay.after inputs = .quitConfirm ∧ input = ascii "q") := by
  constructor
  · rintro ⟨before, rest, heq, hhelp⟩
    cases rest using List.reverseRecOn with
    | nil =>
      right
      rw [List.append_nil, show before ++ [ascii "q", ascii "q"] =
        (before ++ [ascii "q"]) ++ [ascii "q"] by simp] at heq
      rcases List.append_inj' heq rfl with ⟨hinputs, hinput⟩
      exact ⟨Overlay.after_eq_quitConfirm.mpr ⟨before, hinputs, hhelp⟩,
        List.singleton_inj.mp hinput⟩
    | append_singleton rest last =>
      left
      rw [← List.append_assoc] at heq
      rcases List.append_inj' heq rfl with ⟨hinputs, _⟩
      exact ⟨before, rest, hinputs, hhelp⟩
  · rintro (⟨before, rest, rfl, hhelp⟩ | ⟨hquit, rfl⟩)
    · exact ⟨before, rest ++ [input], by simp, hhelp⟩
    · rcases Overlay.after_eq_quitConfirm.mp hquit with ⟨before, rfl, hhelp⟩
      exact ⟨before, [], by simp, hhelp⟩

namespace App

variable {β : Type} {config : BridgeConfig}

/-- What is shown over the screens. -/
def overlay (s : App β) : Overlay :=
  if s.state.showQuitConfirm then .quitConfirm else if s.state.showHelp then .help else .none

/-! ## Runs -/

/-- The state after some inputs: one overlay at most, which is the one that the inputs have left,
and a request to exit if they contain one. -/
structure Asked (inputs : List Bytes) (s : App β) : Prop where
  alone : s.state.showQuitConfirm = true → s.state.showHelp = false
  overlay : s.overlay = Overlay.after inputs
  exitRequested : s.exitRequested = true ↔ Quits inputs

private theorem Asked.concat {inputs : List Bytes} {s t : App β} (hs : Asked inputs s)
    (input : Bytes) (hnot : Overlay.after inputs ≠ .quitConfirm)
    (hexit : t.exitRequested = s.exitRequested)
    (halone : t.state.showQuitConfirm = true → t.state.showHelp = false)
    (hoverlay : t.overlay = (Overlay.after inputs).next input) : Asked (inputs ++ [input]) t := by
  refine ⟨halone, ?_, ?_⟩
  · rw [hoverlay, Overlay.after_concat]
  · rw [hexit, hs.exitRequested, quits_concat]
    constructor
    · exact Or.inl
    · rintro (h | ⟨h, _⟩)
      · exact h
      · exact absurd h hnot

/-- An event adds its input. -/
theorem asked_onEvent {inputs : List Bytes} {s : App β} (hs : Asked inputs s) (event : Event)
    (layout : Layout) : Asked (inputs ++ [event.input]) (s.onEvent config event layout) := by
  have hoverlay := hs.overlay
  unfold App.overlay at hoverlay
  unfold onEvent
  split
  · next hquit =>
    have hafter : Overlay.after inputs = .quitConfirm := by
      rw [← hoverlay, if_pos hquit]
    split
    · next hinput =>
      refine ⟨hs.alone, ?_, ?_⟩
      · rw [Overlay.after_concat, hafter, hinput]
        show (if s.state.showQuitConfirm then Overlay.quitConfirm else _) = _
        rw [if_pos hquit]
        rfl
      · rw [quits_concat]
        exact ⟨fun _ ↦ Or.inr ⟨hafter, hinput⟩, fun _ ↦ rfl⟩
    · next hinput =>
      refine ⟨nofun, ?_, ?_⟩
      · rw [Overlay.after_concat, hafter, Overlay.next, if_neg hinput]
        show (if s.state.showHelp then Overlay.help else .none) = _
        rw [hs.alone hquit]
        rfl
      · rw [quits_concat, ← hs.exitRequested]
        exact ⟨Or.inl, fun h ↦ h.resolve_right fun h ↦ hinput h.2⟩
  · next hquit =>
    rw [if_neg hquit] at hoverlay
    have hnot : Overlay.after inputs ≠ .quitConfirm := by
      rw [← hoverlay]
      split <;> exact nofun
    split
    · next hhelp =>
      rw [if_pos hhelp] at hoverlay
      split
      · next hinput =>
        refine hs.concat _ hnot ?_ ?_ ?_
        · rfl
        · exact fun _ ↦ rfl
        · rw [← hoverlay, Overlay.next, if_pos hinput]
          show (if s.state.showQuitConfirm then Overlay.quitConfirm else Overlay.none) = _
          rw [if_neg hquit]
      · next hinput =>
        apply hs.concat _ hnot rfl hs.alone
        rw [← hoverlay, Overlay.next, if_neg hinput, App.overlay, if_neg hquit, if_pos hhelp]
    · next hhelp =>
      rw [if_neg hhelp] at hoverlay
      split
      · next hinput =>
        refine hs.concat _ hnot ?_ ?_ ?_
        · rfl
        · exact fun h ↦ absurd h hquit
        · rw [← hoverlay, Overlay.next, if_pos hinput]
          show (if s.state.showQuitConfirm then Overlay.quitConfirm else Overlay.help) = _
          rw [if_neg hquit]
      · next hother =>
        split
        · next hinput =>
          refine hs.concat _ hnot ?_ ?_ ?_
          · rfl
          · exact fun _ ↦ Bool.eq_false_iff.mpr hhelp
          · rw [← hoverlay, Overlay.next, if_neg hother, if_pos hinput]
            rfl
        · next hq =>
          have hkept : ∀ t : App β, Moves s t → Asked (inputs ++ [event.input]) t := by
            intro t ht
            rcases ht.rest with ⟨state, selector, rfl⟩
            refine hs.concat _ hnot rfl ?_ ?_
            · rw [ht.quitConfirm]
              exact fun h ↦ absurd h hquit
            · rw [App.overlay, ht.quitConfirm, ht.help, if_neg hquit, if_neg hhelp, ← hoverlay,
                Overlay.next, if_neg hother, if_neg hq]
          split
          · exact hkept _ (.of_eq rfl rfl)
          · split
            · exact hkept _ (.of_eq rfl rfl)
            · split
              · exact hkept _ (.of_eq rfl rfl)
              · split
                · exact hkept _ (.of_eq rfl rfl)
                · split
                  · exact hkept _ (.of_eq rfl rfl)
                  · exact hkept _ (moves_mainEvent s event layout)

variable [Add β] [Zero β]

private theorem asked_render {inputs : List Bytes} {s : App β} (hs : Asked inputs s)
    (now checked : Int) : Asked inputs (s.render config now checked) := by
  rcases (s.buildHostEntries config).sampleHistory_eq now checked with ⟨_, _, _, hsampled⟩
  have hbuilt : Asked inputs ((s.buildHostEntries config).sampleHistory now checked) := by
    rw [hsampled]
    exact ⟨hs.alone, hs.overlay, hs.exitRequested⟩
  have hscreen : ∀ t : App β, Asked inputs t → Asked inputs (t.renderScreen config) := by
    intro t ht
    unfold renderScreen
    split
    · exact ht
    · split
      · exact ⟨ht.alone, ht.overlay, ht.exitRequested⟩
      · split
        · exact ⟨ht.alone, ht.overlay, ht.exitRequested⟩
        · exact ⟨ht.alone, ht.overlay, ht.exitRequested⟩
  have hdrawn := hscreen _ hbuilt
  exact ⟨hdrawn.alone, hdrawn.overlay, hdrawn.exitRequested⟩

/-- A run adds the inputs of its events. -/
theorem asked_of_run {inputs : List Bytes} {s t : App β} {actions : List (AppAction β)}
    (hs : Asked inputs s) (h : (app config).run s actions = some t) :
    Asked (inputs ++ actions.filterMap AppAction.input?) t := by
  induction actions generalizing inputs s with
  | nil =>
    cases h
    rwa [List.filterMap_nil, List.append_nil]
  | cons action actions ih =>
    rcases Machine.run_cons_eq_some.mp h with ⟨s', hstep, hrun⟩
    change App.step config s action = some s' at hstep
    cases action with
    | event event layout =>
      cases hstep
      have hnext := ih (asked_onEvent hs event layout) hrun
      rwa [List.append_assoc] at hnext
    | render now checked =>
      cases hstep
      exact ih (asked_render hs now checked) hrun
    | diagnostics info now =>
      cases hstep
      have hkept : Asked inputs { s with cache := s.cache.update info now } :=
        ⟨hs.alone, hs.overlay, hs.exitRequested⟩
      exact ih hkept hrun

end App

/-- However events, drawing and diagnostics follow each other: the handler of the interface tells
the loop to exit exactly when two events `q` follow each other with no event in between, not even a
tick, and the help was not shown at the first. -/
theorem quits_iff {β : Type} [Add β] [Zero β] (config : BridgeConfig) (cache : DiagnosticsCache β)
    (start : Int) (actions : List (AppAction β)) (s : App β)
    (h : (app config).run (App.start config cache start) actions = some s) :
    s.exitRequested = true ↔ Quits (actions.filterMap AppAction.input?) := by
  have hstart : App.Asked [] (App.start config cache start) := by
    refine ⟨nofun, rfl, ?_⟩
    constructor
    · exact nofun
    · rintro ⟨before, rest, heq, _⟩
      simp at heq
  exact (App.asked_of_run hstart h).exitRequested

/-- Two `q` tell the loop to exit. -/
theorem quits_iff_twice : ∃ s : App Int, (app {}).run (App.start {} {} 0)
    [.event (.key "q") {}, .render 0 0, .event (.key "q") {}] = some s ∧
      s.exitRequested = true := by
  have hrun : ((app {} : Machine (App Int) (AppAction Int)).run (App.start {} {} 0)
      [.event (.key "q") {}, .render 0 0, .event (.key "q") {}]).isSome := rfl
  rcases Option.isSome_iff_exists.mp hrun with ⟨s, hs⟩
  exact ⟨s, hs, (quits_iff {} {} 0 _ s hs).mpr ⟨[], [], rfl, nofun⟩⟩

/-- A tick between them withdraws the question. -/
example : ((app {} : Machine (App Int) (AppAction Int)).run (App.start {} {} 0)
    [.event (.key "q") {}, .event .custom {}, .event (.key "q") {}]).map App.exitRequested =
      some false := rfl

end NetBridge.Tui
