import NetBridge.Base.Spacing
import NetBridge.Tui.App

/-!
# The samples of the history

What `BandwidthTrend` draws: the drawing function samples the cache into the history
(`src/swarm_ros_bridge/src/tui/app.cpp:284–298`), and `HistoryStore::Sample`
(`src/tui/history_store.cpp:16–36`) adds the bandwidths of the topics up.
-/

namespace NetBridge.Tui

open NetBridge.Base NetBridge.Config NetBridge.Diagnostics

variable {β : Type} [Add β] [Zero β] {config : BridgeConfig}

/-- The sum of the bandwidths of the topics, in the order of the rows. -/
def totalKbps (rows : List (NetworkInfo β)) : β :=
  ((rows.filter isTopicRow).map NetworkInfo.bandwidthKbps).foldl (· + ·) 0

omit [Zero β] in
private theorem fst_sampleRows (rows : List (NetworkInfo β))
    (sampled : β × Std.ExtTreeMap Bytes (List β)) : (rows.foldl sampleRow sampled).1 =
      ((rows.filter isTopicRow).map NetworkInfo.bandwidthKbps).foldl (· + ·) sampled.1 := by
  induction rows generalizing sampled with
  | nil => rfl
  | cons row rows ih =>
    rw [List.foldl_cons, ih]
    cases hrow : isTopicRow row with
    | true => simp [sampleRow, hrow]
    | false => simp [sampleRow, hrow]

/-- A sample adds one value to the series of the totals. -/
theorem total_sample (store : HistoryStore β) (rows : List (NetworkInfo β)) :
    (store.sample rows).totalBandwidthKbps = push store.totalBandwidthKbps (totalKbps rows) := by
  rw [totalKbps, ← fst_sampleRows rows (0, store.perKey)]
  rfl

namespace App

/-- The series of the totals has the last samples of fresh diagnostics, which lie half a second
apart. -/
structure Sampled (s : App β) : Prop where
  total : s.history.totalBandwidthKbps =
    (s.samples.map fun sample ↦ totalKbps sample.cache.snapshot).rtake kCapacity
  fresh : ∀ sample ∈ s.samples, sample.cache.isFresh sample.checked = true
  spaced : Spaced sampleInterval (s.samples.map Sampling.time)
  /-- A full series covers 59.5 s: its 120 samples lie 119 intervals apart at least. -/
  covers : ∀ first rest, (s.samples.rtake kCapacity).map Sampling.time = first :: rest →
    (s.history.totalBandwidthKbps.length - 1 : Nat) * sampleInterval ≤ rest.getLastD first - first

/-- What the samples keep to, with the time of the last attempt. -/
private structure Keeping (s : App β) : Prop where
  total : s.history.totalBandwidthKbps =
    (s.samples.map fun sample ↦ totalKbps sample.cache.snapshot).rtake kCapacity
  fresh : ∀ sample ∈ s.samples, sample.cache.isFresh sample.checked = true
  spaced : Spaced sampleInterval (s.samples.map Sampling.time)
  last : ∀ time ∈ (s.samples.map Sampling.time).getLast?, time ≤ s.lastSample

private theorem Keeping.of_eq {s t : App β} (hs : Keeping s) (hhistory : t.history = s.history)
    (hsamples : t.samples = s.samples) (hlast : s.lastSample ≤ t.lastSample) : Keeping t where
  total := by rw [hhistory, hsamples, hs.total]
  fresh := by
    rw [hsamples]
    exact hs.fresh
  spaced := by
    rw [hsamples]
    exact hs.spaced
  last := by
    rw [hsamples]
    exact fun time hm ↦ (hs.last time hm).trans hlast

private theorem keeping_sampleHistory {s : App β} (hs : Keeping s) (now checked : Int) :
    Keeping (s.sampleHistory now checked) := by
  unfold sampleHistory
  split
  · next hgap =>
    have hinterval : 0 < sampleInterval := by decide
    split
    · next hfresh =>
      refine ⟨?_, ?_, ?_, ?_⟩
      · show (s.history.sample s.cache.snapshot).totalBandwidthKbps = _
        rw [total_sample, hs.total, push, rtake_concat_rtake, List.map_append]
        rfl
      · intro sample hm
        rcases List.mem_append.mp hm with hm | hm
        · exact hs.fresh sample hm
        · rw [List.mem_singleton.mp hm]
          exact hfresh
      · show Spaced sampleInterval ((s.samples ++ [_]).map Sampling.time)
        rw [List.map_append]
        apply List.isChain_append.mpr
        refine ⟨hs.spaced, List.isChain_singleton _, ?_⟩
        intro last hlast time htime
        cases htime
        have hle := hs.last last hlast
        show sampleInterval ≤ now - last
        omega
      · intro time hm
        have hlast : ((s.samples ++ [(⟨now, checked, s.cache⟩ : Sampling β)]).map
            Sampling.time).getLast? = some now := by
          simp
        have htime : some now = some time := hlast.symm.trans hm
        cases htime
        exact Int.le_refl now
    · refine hs.of_eq rfl rfl ?_
      show s.lastSample ≤ now
      omega
  · exact hs

private theorem keeping_of_reachable {s : App β} (h : (app config).Reachable s) : Keeping s := by
  apply h.invariant
  · rintro _ ⟨cache, now, rfl⟩
    exact ⟨rfl, nofun, List.isChain_nil, nofun⟩
  · intro s a s' hs hstep
    change App.step config s a = some s' at hstep
    cases a with
    | event event layout =>
      cases hstep
      have hhandled : Handles s (s.onEvent config event layout) := handles_onEvent s event layout
      rcases hhandled.rest with ⟨_, _, _, heq⟩
      rw [heq]
      exact hs.of_eq rfl rfl (Int.le_refl _)
    | render now checked =>
      cases hstep
      have hbuilt : Keeping (s.buildHostEntries config) := hs.of_eq rfl rfl (Int.le_refl _)
      have hscreen : ∀ t : App β, Keeping t → Keeping (t.renderScreen config) := by
        intro t ht
        unfold renderScreen
        split
        · exact ht
        · split
          · exact ht.of_eq rfl rfl (Int.le_refl _)
          · split
            · exact ht.of_eq rfl rfl (Int.le_refl _)
            · exact ht.of_eq rfl rfl (Int.le_refl _)
      exact (hscreen _ (keeping_sampleHistory hbuilt now checked)).of_eq rfl rfl (Int.le_refl _)
    | diagnostics info now =>
      cases hstep
      exact hs.of_eq rfl rfl (Int.le_refl _)

end App

/-- In every run the series of the totals are those of the last samples, each of fresh diagnostics
and half a second behind the one before. -/
theorem history_sampled {β : Type} [Add β] [Zero β] (config : BridgeConfig) (s : App β)
    (h : (app config).Reachable s) : s.Sampled := by
  have hs := App.keeping_of_reachable h
  refine ⟨hs.total, hs.fresh, hs.spaced, ?_⟩
  intro first rest hlast
  have hpart : Spaced sampleInterval (first :: rest) := by
    rw [← hlast]
    apply hs.spaced.sublist (by decide)
    exact (List.drop_sublist _ _).map _
  have hspan := hpart.length_nsmul_le
  have hlength : s.history.totalBandwidthKbps.length = rest.length + 1 := by
    have hmap := congrArg List.length hlast
    rw [List.length_map, length_rtake, List.length_cons] at hmap
    rw [hs.total, length_rtake, List.length_map, hmap]
  rw [hlength, Nat.add_sub_cancel, ← nsmul_eq_mul]
  exact hspan

/-- Diagnostics are drawn three times: the second time comes too early, and the third one is half a
second behind the first. -/
theorem history_sampled_twice : ∃ s : App Int, s.history.totalBandwidthKbps = [7, 9] ∧
    s.samples.map Sampling.time = [10, 500000010] ∧ s.Sampled := by
  let row (bandwidthKbps : Int) : NetworkInfo Int :=
    { NetworkInfo.zeroed Int with name := ascii "/t", bandwidthKbps }
  have hrun : (((app {} : Machine (App Int) (AppAction Int)).run (App.start {} {} 0)
      [.diagnostics [row 7] 5, .render 10 10, .diagnostics [row 8] 20, .render 499999999 499999999,
        .diagnostics [row 9] 499999999, .render 500000010 500000010]).map fun s ↦
          (s.history.totalBandwidthKbps, s.samples.map Sampling.time)) =
            some ([7, 9], [10, 500000010]) := by
    decide +kernel
  rcases Option.map_eq_some_iff.mp hrun with ⟨s, hs, heq⟩
  rcases Prod.mk.inj heq with ⟨htotal, htimes⟩
  exact ⟨s, htotal, htimes, history_sampled {} s ⟨_, _, ⟨{}, 0, rfl⟩, hs⟩⟩

end NetBridge.Tui
