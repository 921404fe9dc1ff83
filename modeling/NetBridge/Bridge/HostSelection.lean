import NetBridge.Bridge.Config

/-!
# Host selections

Which hosts a list of selectors selects: `expandHostSelection`,
`src/swarm_ros_bridge/src/bridge_factory.cpp:152–179`, on the maps of topics (`490–495`) and
services (`675–682`), which begin with no host selected.
-/

namespace NetBridge.Bridge

open NetBridge.Base NetBridge.Topic

/-- The list of selectors as a parameter. -/
def selection (selectors : List Bytes) : XmlRpcValue := .array (selectors.map .string)

/-- The hosts that a route or a service selects; `bridge_factory.cpp:490–495,675–682`. -/
def selectedHosts (hostMap : Inventory) (selectors : List Bytes) : Accepted HostMap :=
  expandHostSelection (selection selectors) (unselected hostMap)

/-- A selector that is a keyword or the name of a host. -/
def Known (hostMap : Inventory) (selected : Bytes) : Prop :=
  selected = ascii "all" ∨ selected = ascii "all_drone" ∨ selected ∈ hostMap

/-- The selector selects the host. The keyword `all_drone` is not taken for a name. -/
def Selects (selected host : Bytes) : Prop :=
  selected = ascii "all" ∨
    (selected = ascii "all_drone" ∧ startsWith host (ascii "drone") = true) ∨
    (selected ≠ ascii "all_drone" ∧ selected = host)

instance (selected host : Bytes) : Decidable (Selects selected host) :=
  inferInstanceAs (Decidable (_ ∨ _ ∧ _ ∨ _ ∧ _))

/-- The map is `output` with all hosts that the selectors select added. -/
def Expanded (selectors : List Bytes) (output output' : HostMap) : Prop :=
  ∀ host, output'[host]? =
    output[host]?.map (· || selectors.any fun selected ↦ Selects selected host)

/-- A selector that names no host ends the constructor. -/
theorem selectHost_unknown {output : HostMap} {selected : Bytes}
    (hall : selected ≠ ascii "all") (hdrone : selected ≠ ascii "all_drone")
    (hhost : selected ∉ output) :
    selectHost output (.string selected) =
      .error (.invalidArgument (ascii "unknown host in route: " ++ selected)) := by
  show (if selected = ascii "all" then _ else if selected = ascii "all_drone" then _
    else if selected ∈ output then _ else _) = _
  rw [if_neg hall, if_neg hdrone, if_neg hhost]
  rfl

/-- A known selector adds the hosts that it selects. -/
theorem selectHost_known {output : HostMap} {selected : Bytes}
    (h : selected = ascii "all" ∨ selected = ascii "all_drone" ∨ selected ∈ output) :
    ∃ output', selectHost output (.string selected) = .ok output' ∧
      Expanded [selected] output output' := by
  simp only [Expanded, List.any_cons, List.any_nil, Bool.or_false]
  show ∃ output', (if selected = ascii "all" then _ else if selected = ascii "all_drone" then _
    else if selected ∈ output then _ else _) = _ ∧ _
  by_cases hall : selected = ascii "all"
  · rw [if_pos hall]
    refine ⟨_, rfl, ?_⟩
    intro host
    have hs : Selects selected host := Or.inl hall
    simp only [Std.ExtTreeMap.getElem?_map, decide_eq_true hs, Bool.or_true]
  · rw [if_neg hall]
    by_cases hdrone : selected = ascii "all_drone"
    · rw [if_pos hdrone]
      refine ⟨_, rfl, ?_⟩
      intro host
      have hs : Selects selected host ↔ startsWith host (ascii "drone") = true := by
        simp [Selects, hdrone, ascii]
      rw [Std.ExtTreeMap.getElem?_map, decide_eq_decide.mpr hs]
      congr 1
      funext value
      by_cases hd : startsWith host (ascii "drone") = true
      · rw [if_pos hd, decide_eq_true hd, Bool.or_true]
      · rw [if_neg hd, decide_eq_false hd, Bool.or_false]
    · have hmem : selected ∈ output := by
        rcases h with h | h | h
        · exact absurd h hall
        · exact absurd h hdrone
        · exact h
      rw [if_neg hdrone, if_pos hmem]
      refine ⟨_, rfl, ?_⟩
      intro host
      have hs : Selects selected host ↔ selected = host := by
        simp [Selects, hall, hdrone]
      rw [getElem?_insert_eq, decide_eq_decide.mpr hs]
      by_cases he : selected = host
      · rw [if_pos he, decide_eq_true he, ← he]
        rw [Std.ExtTreeMap.mem_iff_isSome_getElem?] at hmem
        rcases Option.isSome_iff_exists.mp hmem with ⟨value, hvalue⟩
        rw [hvalue, Option.map_some, Bool.or_true]
      · rw [if_neg he, decide_eq_false he]
        simp

/-- Adding hosts keeps the hosts of the map. -/
theorem Expanded.mem_iff {selectors : List Bytes} {output output' : HostMap}
    (h : Expanded selectors output output') (host : Bytes) : host ∈ output' ↔ host ∈ output := by
  rw [Std.ExtTreeMap.mem_iff_isSome_getElem?, Std.ExtTreeMap.mem_iff_isSome_getElem?, h host,
    Option.isSome_map]

/-- Selectors one after another. -/
theorem Expanded.trans {front back : List Bytes} {output mid output' : HostMap}
    (hfront : Expanded front output mid) (hback : Expanded back mid output') :
    Expanded (front ++ back) output output' := by
  intro host
  rw [hback host, hfront host, Option.map_map, List.any_append]
  congr 1
  funext value
  exact Bool.or_assoc _ _ _

/-- A list of selectors is expanded one by one. -/
theorem expandHostSelection_selection (selectors : List Bytes) (output : HostMap) :
    expandHostSelection (selection selectors) output =
      (selectors.map .string).foldlM selectHost output := rfl

/-- Known selectors add the hosts that they select. -/
theorem expandHostSelection_known {output : HostMap} {selectors : List Bytes}
    (h : ∀ selected ∈ selectors, selected = ascii "all" ∨ selected = ascii "all_drone" ∨
      selected ∈ output) :
    ∃ output', expandHostSelection (selection selectors) output = .ok output' ∧
      Expanded selectors output output' := by
  simp only [expandHostSelection_selection]
  induction selectors generalizing output with
  | nil =>
    refine ⟨output, rfl, ?_⟩
    intro host
    simp
  | cons selected selectors ih =>
    rcases selectHost_known (h selected List.mem_cons_self) with ⟨mid, hmid, hone⟩
    have hrest : ∀ other ∈ selectors, other = ascii "all" ∨ other = ascii "all_drone" ∨
        other ∈ mid := by
      intro other hm
      rw [hone.mem_iff]
      exact h other (List.mem_cons_of_mem selected hm)
    rcases ih hrest with ⟨output', hrun, hback⟩
    refine ⟨output', ?_, hone.trans hback⟩
    rw [List.map_cons, List.foldlM_cons, hmid]
    exact hrun

/-- The first selector that is not known ends the constructor. -/
theorem expandHostSelection_unknown {output : HostMap} {selectors : List Bytes}
    (h : ¬∀ selected ∈ selectors, selected = ascii "all" ∨ selected = ascii "all_drone" ∨
      selected ∈ output) :
    ∃ selected ∈ selectors, expandHostSelection (selection selectors) output =
      .error (.invalidArgument (ascii "unknown host in route: " ++ selected)) := by
  simp only [expandHostSelection_selection]
  induction selectors generalizing output with
  | nil => exact absurd (fun selected hm ↦ absurd hm List.not_mem_nil) h
  | cons selected selectors ih =>
    rw [List.map_cons, List.foldlM_cons]
    by_cases hknown : selected = ascii "all" ∨ selected = ascii "all_drone" ∨ selected ∈ output
    · rcases selectHost_known hknown with ⟨mid, hmid, hone⟩
      have hrest : ¬∀ other ∈ selectors, other = ascii "all" ∨ other = ascii "all_drone" ∨
          other ∈ mid := by
        intro hall
        apply h
        intro other hm
        cases List.mem_cons.mp hm with
        | inl he => exact he ▸ hknown
        | inr hm =>
          rw [← hone.mem_iff]
          exact hall other hm
      rcases ih hrest with ⟨other, hm, hrun⟩
      refine ⟨other, List.mem_cons_of_mem selected hm, ?_⟩
      rw [hmid]
      exact hrun
    · simp only [not_or] at hknown
      refine ⟨selected, List.mem_cons_self, ?_⟩
      rw [selectHost_unknown hknown.1 hknown.2.1 hknown.2.2]
      rfl

/-- From a map with no host selected, a host is selected exactly when a selector selects it. -/
theorem Expanded.selected_iff {hostMap : Inventory} {selectors : List Bytes} {output' : HostMap}
    (h : Expanded selectors (unselected hostMap) output') (host : Bytes) :
    output'[host]? = some true ↔
      host ∈ hostMap ∧ ∃ selected ∈ selectors, Selects selected host := by
  rw [h host, unselected, Std.ExtTreeMap.getElem?_map, Option.map_map,
    Std.ExtTreeMap.mem_iff_isSome_getElem?]
  cases hostMap[host]? with
  | none => simp
  | some address => simp

/-- The selection of known selectors. -/
theorem selectedHosts_known {hostMap : Inventory} {selectors : List Bytes}
    (h : ∀ selected ∈ selectors, Known hostMap selected) :
    ∃ output, selectedHosts hostMap selectors = .ok output ∧
      Expanded selectors (unselected hostMap) output := by
  apply expandHostSelection_known
  intro selected hm
  rw [unselected, Std.ExtTreeMap.mem_map]
  exact h selected hm

/-- A selector that is not known ends the constructor. -/
theorem selectedHosts_unknown {hostMap : Inventory} {selectors : List Bytes}
    (h : ¬∀ selected ∈ selectors, Known hostMap selected) :
    ∃ what, selectedHosts hostMap selectors = .error (.invalidArgument what) := by
  have hunknown : ¬∀ selected ∈ selectors, selected = ascii "all" ∨
      selected = ascii "all_drone" ∨ selected ∈ unselected hostMap := by
    intro hall
    apply h
    intro selected hm
    rw [Known, ← Std.ExtTreeMap.mem_map (t := hostMap) (f := fun _ _ ↦ false)]
    exact hall selected hm
  rcases expandHostSelection_unknown hunknown with ⟨selected, -, hrun⟩
  exact ⟨_, hrun⟩

/-- What was accepted is the selection of known selectors. -/
theorem selectedHosts_eq_ok {hostMap : Inventory} {selectors : List Bytes} {output : HostMap}
    (h : selectedHosts hostMap selectors = .ok output) :
    (∀ selected ∈ selectors, Known hostMap selected) ∧
      Expanded selectors (unselected hostMap) output := by
  by_cases hknown : ∀ selected ∈ selectors, Known hostMap selected
  · rcases selectedHosts_known hknown with ⟨output', hrun, hexpanded⟩
    rw [h] at hrun
    cases hrun
    exact ⟨hknown, hexpanded⟩
  · rcases selectedHosts_unknown hknown with ⟨what, hrun⟩
    rw [h] at hrun
    cases hrun

/-- A list of known selectors is expanded, any other is refused. -/
theorem exists_selectedHosts_iff {hostMap : Inventory} {selectors : List Bytes} :
    (∃ output, selectedHosts hostMap selectors = .ok output) ↔
      ∀ selected ∈ selectors, Known hostMap selected := by
  constructor
  · rintro ⟨output, h⟩
    exact (selectedHosts_eq_ok h).1
  · intro h
    rcases selectedHosts_known h with ⟨output, hrun, -⟩
    exact ⟨output, hrun⟩

/-- Order and repetition of selectors do not matter. -/
theorem selectedHosts_of_same {hostMap : Inventory} {selectors selectors' : List Bytes}
    {output : HostMap} (h : selectedHosts hostMap selectors = .ok output)
    (hsame : ∀ selected, selected ∈ selectors' ↔ selected ∈ selectors) :
    selectedHosts hostMap selectors' = .ok output := by
  rcases selectedHosts_eq_ok h with ⟨hknown, hexpanded⟩
  rcases selectedHosts_known fun selected hm ↦ hknown selected ((hsame selected).mp hm) with
    ⟨output', hrun, hexpanded'⟩
  rw [hrun]
  congr 1
  apply Std.ExtTreeMap.ext_getElem?
  intro host
  have hany : (selectors'.any fun selected ↦ Selects selected host) =
      selectors.any fun selected ↦ Selects selected host := by
    rw [Bool.eq_iff_iff, List.any_eq_true, List.any_eq_true]
    simp only [hsame]
  rw [hexpanded host, hexpanded' host, hany]

/-- Two lists together select what either selects. -/
theorem exists_selectedHosts_append {hostMap : Inventory} {selectors selectors' : List Bytes}
    {output output' : HostMap} (h : selectedHosts hostMap selectors = .ok output)
    (h' : selectedHosts hostMap selectors' = .ok output') :
    ∃ union : HostMap, selectedHosts hostMap (selectors ++ selectors') = .ok union ∧
      ∀ host : Bytes, union[host]? = some true ↔
        output[host]? = some true ∨ output'[host]? = some true := by
  rcases selectedHosts_eq_ok h with ⟨hknown, hexpanded⟩
  rcases selectedHosts_eq_ok h' with ⟨hknown', hexpanded'⟩
  have hboth : ∀ selected ∈ selectors ++ selectors', Known hostMap selected := by
    intro selected hm
    exact (List.mem_append.mp hm).elim (hknown selected) (hknown' selected)
  rcases selectedHosts_known hboth with ⟨union, hrun, hunion⟩
  refine ⟨union, hrun, ?_⟩
  intro host
  rw [hunion.selected_iff, hexpanded.selected_iff, hexpanded'.selected_iff, ← and_or_left]
  simp only [List.mem_append, or_and_right, exists_or]

/-- A list of selectors is refused exactly when one is neither a keyword nor a host. Otherwise it
selects the hosts that a selector selects, in whichever order and however often it names them;
lists together select what each does, and the hosts of the map stay. -/
theorem host_selection (hostMap : Inventory) (selectors : List Bytes) :
    ((∃ what, selectedHosts hostMap selectors = .error (.invalidArgument what)) ↔
      ∃ selected ∈ selectors, ¬Known hostMap selected) ∧
    ((∃ output, selectedHosts hostMap selectors = .ok output) ↔
      ∀ selected ∈ selectors, Known hostMap selected) ∧
    ∀ output : HostMap, selectedHosts hostMap selectors = .ok output →
      (∀ host : Bytes, output[host]? = some true ↔
        host ∈ hostMap ∧ ∃ selected ∈ selectors, Selects selected host) ∧
      (∀ host : Bytes, host ∈ output ↔ host ∈ hostMap) ∧
      (∀ selectors', (∀ selected, selected ∈ selectors' ↔ selected ∈ selectors) →
        selectedHosts hostMap selectors' = .ok output) ∧
      ∀ (selectors' : List Bytes) (output' : HostMap),
        selectedHosts hostMap selectors' = .ok output' →
        ∃ union : HostMap, selectedHosts hostMap (selectors ++ selectors') = .ok union ∧
          ∀ host : Bytes, union[host]? = some true ↔
            output[host]? = some true ∨ output'[host]? = some true := by
  refine ⟨?_, exists_selectedHosts_iff, ?_⟩
  · constructor
    · rintro ⟨what, h⟩
      by_contra hno
      obtain ⟨output, hrun⟩ := exists_selectedHosts_iff.mpr fun selected hm ↦
        Classical.byContradiction fun hk ↦ hno ⟨selected, hm, hk⟩
      rw [h] at hrun
      cases hrun
    · rintro ⟨selected, hm, hk⟩
      exact selectedHosts_unknown fun hall ↦ hk (hall selected hm)
  · intro output h
    have hexpanded := (selectedHosts_eq_ok h).2
    refine ⟨hexpanded.selected_iff, ?_, ?_, ?_⟩
    · intro host
      rw [hexpanded.mem_iff, unselected, Std.ExtTreeMap.mem_map]
    · intro selectors' hsame
      exact selectedHosts_of_same h hsame
    · intro selectors' output' h'
      exact exists_selectedHosts_append h h'

/-- A host of the name of a keyword. -/
def reservedHosts : Inventory := (∅ : Inventory).insert (ascii "all_drone") []

/-- The keyword does not select the host of its name. -/
theorem keyword_is_no_host :
    hostInventory { hosts := some (.array [.string (ascii "all_drone")]) } = .ok reservedHosts ∧
    ∃ output : HostMap, selectedHosts reservedHosts [ascii "all_drone"] = .ok output ∧
      ascii "all_drone" ∈ reservedHosts ∧ output[ascii "all_drone"]? ≠ some true := by
  have hmem : ascii "all_drone" ∈ reservedHosts := by simp [reservedHosts]
  have h := host_selection reservedHosts [ascii "all_drone"]
  rcases h.2.1.mpr (by simp [Known]) with ⟨output, hrun⟩
  refine ⟨rfl, output, hrun, hmem, ?_⟩
  intro htrue
  rcases ((h.2.2 output hrun).1 _).mp htrue with ⟨-, selected, hm, hs⟩
  rw [List.mem_singleton.mp hm] at hs
  revert hs
  decide

end NetBridge.Bridge
