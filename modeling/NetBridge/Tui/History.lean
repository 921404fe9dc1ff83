import NetBridge.Base.Series
import NetBridge.Diagnostics.Cache
import Mathlib.Algebra.Ring.Int.Defs

/-!
# Bandwidth history

`HistoryStore`, `src/swarm_ros_bridge/src/tui/history_store.cpp`: one bounded series of bandwidths
for each row name and one of their sums. Every method holds `mutex_`, so it is one step.
Bandwidths are numbers, not NaN, and enter through their order, their sum and zero.
-/

namespace NetBridge.Tui

open NetBridge.Base NetBridge.Diagnostics

variable {β : Type}

/-- `kCapacity`; `history_store.hpp:32`. -/
def kCapacity : Nat := 120

/-- `HistoryStore`; `history_store.hpp:18–33`. -/
structure HistoryStore (β : Type) where
  total : List β := []
  perKey : Std.ExtTreeMap Bytes (List β) := ∅
  sampleCount : UInt64 := 0

/-- `IsTopicRow`; `history_store.cpp:11–13`. -/
def isTopicRow (info : NetworkInfo β) : Bool :=
  info.msgType ≠ ascii "transport" && info.msgType ≠ ascii "presence"

/-- `Push`; `history_store.cpp:16–21`. -/
def push (series : List β) (value : β) : List β := (series ++ [value]).rtake kCapacity

/-- One row of a snapshot; `history_store.cpp:29–33`. -/
def sampleRow [Add β] (sampled : β × Std.ExtTreeMap Bytes (List β)) (info : NetworkInfo β) :
    β × Std.ExtTreeMap Bytes (List β) :=
  if !isTopicRow info then sampled
  else
    (sampled.1 + info.bandwidthKbps,
      sampled.2.insert info.name (push (sampled.2[info.name]?.getD []) info.bandwidthKbps))

namespace HistoryStore

/-- `Sample`; `history_store.cpp:23–36`. -/
def sample [Add β] [Zero β] (store : HistoryStore β) (snapshot : List (NetworkInfo β)) :
    HistoryStore β :=
  let (total, perKey) := snapshot.foldl sampleRow (0, store.perKey)
  { total := push store.total total, perKey, sampleCount := store.sampleCount + 1 }

/-- `TotalBandwidthKbps`; `history_store.cpp:38–41`. -/
def totalBandwidthKbps (store : HistoryStore β) : List β := store.total

/-- `BandwidthKbps`; `history_store.cpp:43–70`. -/
def bandwidthKbps [Max β] (store : HistoryStore β) (keys : List Bytes) : List β :=
  keys.foldl (fun merged key ↦
    match store.perKey[key]? with
    | none => merged
    | some series => if merged.isEmpty then series else overlay max merged series) []

end HistoryStore

/-- A snapshot of the cache: its topic rows have distinct names. -/
structure Snapshot (β : Type) where
  rows : List (NetworkInfo β)
  distinct : ((rows.filter isTopicRow).map NetworkInfo.name).Nodup

/-- What `DiagnosticsCache::Snapshot` returns; `app.cpp:296`. -/
def Snapshot.ofCache (cache : DiagnosticsCache β) (info : List (NetworkInfo β)) (now : Int) :
    Snapshot β where
  rows := (cache.update info now).snapshot
  distinct := (cache.nodup_snapshot info now).sublist (List.filter_sublist.map _)

/-- The names and types of the rows, without what they report. -/
def Snapshot.pattern (snapshot : Snapshot β) : List (Bytes × Bytes) :=
  snapshot.rows.map fun row ↦ (row.name, row.msgType)

/-- The snapshot in which every row reports the same bandwidth. -/
def Snapshot.withBandwidth (snapshot : Snapshot β) (value : β) : Snapshot β where
  rows := snapshot.rows.map fun row ↦ { row with bandwidthKbps := value }
  distinct := by
    rw [List.filter_map, List.map_map]
    exact snapshot.distinct

/-- The bandwidth that a key reports in a snapshot. -/
def reported (snapshot : Snapshot β) (key : Bytes) : Option β :=
  (snapshot.rows.find? fun row ↦ isTopicRow row && row.name = key).map NetworkInfo.bandwidthKbps

/-- The bandwidths that a key has reported. -/
def reports (samples : List (Snapshot β)) (key : Bytes) : List β :=
  samples.filterMap fun snapshot ↦ reported snapshot key

/-- The bandwidths of a key that are retained. -/
def retained (samples : List (Snapshot β)) (key : Bytes) : List β :=
  (reports samples key).rtake kCapacity

/-- The keys that have reported. -/
def reporting (samples : List (Snapshot β)) (keys : List Bytes) : List Bytes :=
  keys.filter fun key ↦ !(reports samples key).isEmpty

/-- The store after calls of `Sample`. -/
def storeAfter [Add β] [Zero β] (samples : List (Snapshot β)) : HistoryStore β :=
  samples.foldl (fun store snapshot ↦ store.sample snapshot.rows) {}

/-- The merged history is aligned in time: its `j`-th value from the end is the greatest bandwidth
that the keys reported in the `j`-th most recent call, the order of the keys does not matter, and
no retained value of a key is beyond the history. -/
structure TimeAligned [LinearOrder β] [Add β] [Zero β] (samples : List (Snapshot β))
    (keys : List Bytes) : Prop where
  value : ∀ (j : Nat) (v : β), ((storeAfter samples).bandwidthKbps keys).reverse[j]? = some v →
    ∃ snapshot, samples.reverse[j]? = some snapshot ∧
      v = ((keys.filterMap (reported snapshot)).max?).getD 0
  order : ∀ keys' : List Bytes, keys'.Perm keys →
    (storeAfter samples).bandwidthKbps keys' = (storeAfter samples).bandwidthKbps keys
  kept : ∀ key ∈ keys, ∀ series : List β, (storeAfter samples).perKey[key]? = some series →
    series.length ≤ ((storeAfter samples).bandwidthKbps keys).length

/-- The keys that have ever reported have series of one length, and each of them has reported in
every call that far back. -/
def InStep (samples : List (Snapshot β)) (keys : List Bytes) : Prop :=
  ∃ m, ∀ key ∈ keys, reports samples key ≠ [] →
    min kCapacity (reports samples key).length = m ∧
      ∀ snapshot ∈ samples.reverse.take m, (reported snapshot key).isSome

/-! ## The series of a key -/

/-- A call adds the bandwidth that a key reports to the series of the key. -/
theorem perKey_sampleRows [Add β] {rows : List (NetworkInfo β)}
    (hdistinct : ((rows.filter isTopicRow).map NetworkInfo.name).Nodup)
    (sampled : β × Std.ExtTreeMap Bytes (List β)) (key : Bytes) :
    (rows.foldl sampleRow sampled).2[key]? =
      match (rows.find? fun row ↦ isTopicRow row && row.name = key) with
      | none => sampled.2[key]?
      | some row => some (push (sampled.2[key]?.getD []) row.bandwidthKbps) := by
  induction rows generalizing sampled with
  | nil => rfl
  | cons row rows ih =>
    rw [List.foldl_cons]
    by_cases htopic : isTopicRow row = true
    · rw [List.filter_cons_of_pos htopic, List.map_cons, List.nodup_cons] at hdistinct
      rw [ih hdistinct.2]
      have hstep : (sampleRow sampled row).2 = sampled.2.insert row.name
          (push (sampled.2[row.name]?.getD []) row.bandwidthKbps) := by
        simp [sampleRow, htopic]
      rw [hstep, getElem?_insert_eq]
      by_cases hname : row.name = key
      · -- no later topic row has the name, so the series stays as this row leaves it
        have hlater : rows.find? (fun row ↦ isTopicRow row && row.name = key) = none := by
          rw [List.find?_eq_none]
          intro other hm hother
          rw [Bool.and_eq_true, decide_eq_true_eq] at hother
          apply hdistinct.1
          rw [hname, ← hother.2]
          exact List.mem_map_of_mem (List.mem_filter.mpr ⟨hm, hother.1⟩)
        rw [hlater, List.find?_cons_of_pos (by simp [htopic, hname]), if_pos hname, hname]
      · rw [List.find?_cons_of_neg (by simp [hname]), if_neg hname]
    · rw [List.filter_cons_of_neg htopic] at hdistinct
      have hstep : sampleRow sampled row = sampled := by simp [sampleRow, htopic]
      rw [List.find?_cons_of_neg (by simp [htopic]), ih hdistinct, hstep]

section

variable [Add β] [Zero β]

/-- What a call leaves of the series of a key. -/
theorem perKey_sample (store : HistoryStore β) (snapshot : Snapshot β) (key : Bytes) :
    (store.sample snapshot.rows).perKey[key]? =
      match reported snapshot key with
      | none => store.perKey[key]?
      | some value => some (push (store.perKey[key]?.getD []) value) := by
  have hrows := perKey_sampleRows snapshot.distinct (0, store.perKey) key
  unfold reported
  cases hfind : snapshot.rows.find? (fun row ↦ isTopicRow row && row.name = key) with
  | none =>
    rw [hfind] at hrows
    exact hrows
  | some row =>
    rw [hfind] at hrows
    exact hrows

/-- After any calls a key that has reported has the last 120 of its reports. -/
theorem perKey_storeAfter (samples : List (Snapshot β)) (key : Bytes) :
    (storeAfter samples).perKey[key]? =
      if reports samples key = [] then none else some (retained samples key) := by
  induction samples using List.reverseRecOn with
  | nil => exact Std.ExtTreeMap.getElem?_empty
  | append_singleton samples snapshot ih =>
    have hseries : ((storeAfter samples).perKey[key]?.getD []) =
        retained samples key := by
      rw [ih]
      split
      · next hnil =>
        rw [retained, hnil, List.rtake_nil, Option.getD_none]
      · rw [Option.getD_some]
    have hstep := perKey_sample (storeAfter samples) snapshot key
    rw [hseries] at hstep
    have hfold : storeAfter (samples ++ [snapshot]) =
        (storeAfter samples).sample snapshot.rows := by
      rw [storeAfter, List.foldl_append]
      rfl
    have hreports : reports (samples ++ [snapshot]) key =
        reports samples key ++ (reported snapshot key).toList := by
      rw [reports, List.filterMap_append]
      rfl
    rw [hfold, hstep]
    cases hreported : reported snapshot key with
    | none =>
      rw [hreported, Option.toList_none, List.append_nil] at hreports
      have hretained : retained (samples ++ [snapshot]) key = retained samples key := by
        rw [retained, hreports, retained]
      rw [hretained, hreports]
      exact ih
    | some value =>
      rw [hreported, Option.toList_some] at hreports
      have hne : reports samples key ++ [value] ≠ [] := by simp
      have hretained : retained (samples ++ [snapshot]) key =
          push (retained samples key) value := by
        rw [retained, hreports]
        exact (rtake_concat_rtake kCapacity (reports samples key) value).symm
      rw [hretained, hreports, if_neg hne]

end

/-! ## The merged history -/

section

variable [LinearOrder β]

private theorem foldl_merge {store : HistoryStore β} {keys : List Bytes} {merged : List β}
    (hne : merged ≠ []) :
    keys.foldl (fun merged key ↦
      match store.perKey[key]? with
      | none => merged
      | some series => if merged.isEmpty then series else overlay max merged series) merged =
    (keys.filterMap fun key ↦ store.perKey[key]?).foldl (overlay max) merged := by
  induction keys generalizing merged with
  | nil => rfl
  | cons key keys ih =>
    rw [List.foldl_cons, List.filterMap_cons]
    cases store.perKey[key]? with
    | none => exact ih hne
    | some series =>
      have hlength := length_overlay max merged series
      have hstep : overlay max merged series ≠ [] := by
        intro hnil
        rw [hnil] at hlength
        exact hne (List.length_eq_zero_iff.mp hlength.symm)
      have hempty : merged.isEmpty = false := by simpa using hne
      simp only [hempty, Bool.false_eq_true, if_false, List.foldl_cons]
      exact ih hstep

/-- The merged history is the series of the first key that has one, under those of the others. -/
theorem bandwidthKbps_eq {store : HistoryStore β}
    (hne : ∀ (key : Bytes) (series : List β), store.perKey[key]? = some series → series ≠ [])
    (keys : List Bytes) :
    store.bandwidthKbps keys =
      match keys.filterMap (fun key ↦ store.perKey[key]?) with
      | [] => []
      | series :: others => others.foldl (overlay max) series := by
  induction keys with
  | nil => rfl
  | cons key keys ih =>
    rw [HistoryStore.bandwidthKbps, List.foldl_cons, List.filterMap_cons]
    cases hkey : store.perKey[key]? with
    | none => exact ih
    | some series => exact foldl_merge (hne key series hkey)

variable [Add β] [Zero β]

/-- The merged history of calls, in terms of what the keys that have reported retain. -/
theorem bandwidthKbps_storeAfter (samples : List (Snapshot β)) (keys : List Bytes) :
    (storeAfter samples).bandwidthKbps keys =
      match (reporting samples keys).map (retained samples) with
      | [] => []
      | series :: others => others.foldl (overlay max) series := by
  have hfound : keys.filterMap (fun key ↦ (storeAfter samples).perKey[key]?) =
      (reporting samples keys).map (retained samples) := by
    induction keys with
    | nil => rfl
    | cons key keys ih =>
      rw [List.filterMap_cons, perKey_storeAfter, reporting, List.filter_cons]
      by_cases hnil : reports samples key = []
      · rw [if_pos hnil, if_neg (by simp [hnil])]
        exact ih
      · rw [if_neg hnil, if_pos (by simp [hnil]), List.map_cons]
        exact congrArg (retained samples key :: ·) ih
  rw [bandwidthKbps_eq ?_, hfound]
  intro key series hseries
  rw [perKey_storeAfter] at hseries
  split at hseries
  · cases hseries
  · next hnil =>
    cases hseries
    have hlength := List.length_pos_iff.mpr hnil
    apply List.length_pos_iff.mp
    rw [retained, length_rtake, kCapacity]
    omega

omit [LinearOrder β] [Add β] [Zero β] in
/-- A key that has reported is one with a report. -/
theorem mem_reporting {samples : List (Snapshot β)} {keys : List Bytes} {key : Bytes} :
    key ∈ reporting samples keys ↔ key ∈ keys ∧ reports samples key ≠ [] := by
  simp [reporting]

/-- The merged history is as long as the series of the first key that has one. -/
theorem length_bandwidthKbps {samples : List (Snapshot β)} {keys rest : List Bytes} {key : Bytes}
    (h : reporting samples keys = key :: rest) :
    ((storeAfter samples).bandwidthKbps keys).length = (retained samples key).length := by
  rw [bandwidthKbps_storeAfter, h, List.map_cons, length_foldl_overlay]

/-- When the keys retain equally many values, the merged history holds the greatest at each
position. -/
theorem getElem?_bandwidthKbps {samples : List (Snapshot β)} {keys : List Bytes} {m : Nat}
    (h : ∀ key ∈ reporting samples keys, (retained samples key).length = m) (i : Nat) :
    ((storeAfter samples).bandwidthKbps keys)[i]? =
      ((reporting samples keys).filterMap fun key ↦ (retained samples key)[i]?).max? := by
  rw [bandwidthKbps_storeAfter]
  cases hkeys : reporting samples keys with
  | nil => rfl
  | cons key rest =>
    rw [hkeys, List.forall_mem_cons] at h
    rw [List.map_cons, getElem?_foldl_overlay_max]
    · rw [← List.map_cons, List.filterMap_map]
      rfl
    · intro series hseries
      obtain ⟨other, hother, rfl⟩ := List.mem_map.mp hseries
      rw [h.1, h.2 other hother]

omit [LinearOrder β] [Add β] [Zero β] in
/-- A key that has reported in each of the last `m` calls, as many as it retains values, has the
values of these calls. -/
theorem getElem?_retained {samples : List (Snapshot β)} {key : Bytes} {m j : Nat}
    (hlength : (retained samples key).length = m) (hj : j < m)
    (hall : ∀ snapshot ∈ samples.reverse.take m, (reported snapshot key).isSome) :
    (retained samples key)[m - 1 - j]? =
      samples.reverse[j]?.bind fun snapshot ↦ reported snapshot key := by
  have hcapacity : m ≤ kCapacity := by
    rw [← hlength, retained, length_rtake]
    exact Nat.min_le_left ..
  rw [← hlength, ← List.getElem?_reverse (by omega), retained, reverse_rtake,
    List.getElem?_take_of_lt (by omega), reports, ← List.filterMap_reverse]
  exact getElem?_filterMap_of_isSome hall hj

omit [LinearOrder β] [Add β] [Zero β] in
/-- The length of the series of keys in step. -/
theorem InStep.length_retained {samples : List (Snapshot β)} {keys : List Bytes}
    (h : InStep samples keys) :
    ∃ m, ∀ key ∈ reporting samples keys, (retained samples key).length = m ∧
      ∀ snapshot ∈ samples.reverse.take m, (reported snapshot key).isSome := by
  obtain ⟨m, hm⟩ := h
  refine ⟨m, fun key hkey ↦ ?_⟩
  obtain ⟨hmem, hne⟩ := mem_reporting.mp hkey
  rw [retained, length_rtake]
  exact hm key hmem hne

/-- The merged history of keys in step has at each position from the end the greatest bandwidth of
that call. -/
theorem InStep.value {samples : List (Snapshot β)} {keys : List Bytes}
    (h : InStep samples keys) {j : Nat} {v : β}
    (hv : ((storeAfter samples).bandwidthKbps keys).reverse[j]? = some v) :
    ∃ snapshot, samples.reverse[j]? = some snapshot ∧
      (keys.filterMap (reported snapshot)).max? = some v := by
  obtain ⟨m, hm⟩ := h.length_retained
  have hlengths := fun key hkey ↦ (hm key hkey).1
  have hj : j < ((storeAfter samples).bandwidthKbps keys).length := by
    rw [← List.length_reverse]
    exact (List.getElem?_eq_some_iff.mp hv).1
  cases hkeys : reporting samples keys with
  | nil =>
    rw [bandwidthKbps_storeAfter, hkeys] at hj
    cases hj
  | cons first rest =>
    have hfirst : first ∈ reporting samples keys := by
      rw [hkeys]
      exact List.mem_cons_self
    rw [length_bandwidthKbps hkeys, (hm first hfirst).1] at hj
    rw [List.getElem?_reverse (by rw [length_bandwidthKbps hkeys, (hm first hfirst).1]; exact hj),
      length_bandwidthKbps hkeys, (hm first hfirst).1, getElem?_bandwidthKbps hlengths] at hv
    have hcalls :
        (reporting samples keys).filterMap (fun key ↦ (retained samples key)[m - 1 - j]?) =
        (reporting samples keys).filterMap fun key ↦
          samples.reverse[j]?.bind fun snapshot ↦ reported snapshot key :=
      List.filterMap_congr fun key hkey ↦ getElem?_retained (hm key hkey).1 hj (hm key hkey).2
    rw [hcalls] at hv
    cases hsnapshot : samples.reverse[j]? with
    | none =>
      rw [hsnapshot] at hv
      simp at hv
    | some snapshot =>
      refine ⟨snapshot, rfl, ?_⟩
      rw [hsnapshot] at hv
      have hall : (reporting samples keys).filterMap (reported snapshot) =
          keys.filterMap (reported snapshot) := by
        rw [reporting, List.filterMap_filter]
        apply List.filterMap_congr
        intro key _
        split
        · rfl
        · next hnone =>
          -- a key without a report has none in this call
          have hmem : snapshot ∈ samples := List.mem_reverse.mp (List.mem_of_getElem? hsnapshot)
          have hnil : reports samples key = [] := by simpa using hnone
          exact (List.filterMap_eq_nil_iff.mp hnil snapshot hmem).symm
      rw [← hall]
      exact hv

/-- The merged history of keys in step is aligned in time. -/
theorem InStep.timeAligned {samples : List (Snapshot β)} {keys : List Bytes}
    (h : InStep samples keys) : TimeAligned samples keys := by
  obtain ⟨m, hm⟩ := h.length_retained
  have hlengths := fun key hkey ↦ (hm key hkey).1
  constructor
  · intro j v hv
    obtain ⟨snapshot, hsnapshot, hmax⟩ := h.value hv
    exact ⟨snapshot, hsnapshot, by rw [hmax, Option.getD_some]⟩
  · intro keys' hperm
    have hreporting : (reporting samples keys').Perm (reporting samples keys) := hperm.filter _
    ext1 i
    rw [getElem?_bandwidthKbps hlengths,
      getElem?_bandwidthKbps fun key hkey ↦ hlengths key (hreporting.mem_iff.mp hkey)]
    exact max?_eq_of_perm (hreporting.filterMap _)
  · intro key hkey series hseries
    rw [perKey_storeAfter] at hseries
    split at hseries
    · cases hseries
    · next hne =>
      have hmem : key ∈ reporting samples keys := mem_reporting.mpr ⟨hkey, hne⟩
      rw [← Option.some.inj hseries]
      cases hkeys : reporting samples keys with
      | nil =>
        rw [hkeys] at hmem
        exact absurd hmem List.not_mem_nil
      | cons first rest =>
        have hfirst : first ∈ reporting samples keys := by
          rw [hkeys]
          exact List.mem_cons_self
        rw [length_bandwidthKbps hkeys, hlengths first hfirst, hlengths key hmem]

/-- When the order of the keys does not matter, they retain equally many values. -/
theorem TimeAligned.length_retained {samples : List (Snapshot β)} {keys : List Bytes}
    (h : TimeAligned samples keys) {key : Bytes} (hkey : key ∈ reporting samples keys) :
    (retained samples key).length = ((storeAfter samples).bandwidthKbps keys).length := by
  obtain ⟨hmem, hne⟩ := mem_reporting.mp hkey
  have hfront : reporting samples (key :: keys.erase key) =
      key :: reporting samples (keys.erase key) := by
    rw [reporting, List.filter_cons_of_pos (by simpa using hne), reporting]
  rw [← h.order _ (List.perm_cons_erase hmem).symm, length_bandwidthKbps hfront]

omit [LinearOrder β] [Add β] [Zero β] in
/-- The rows of a snapshot keep their names and types under another bandwidth. -/
theorem pattern_withBandwidth (snapshot : Snapshot β) (value : β) :
    (snapshot.withBandwidth value).pattern = snapshot.pattern := by
  simp [Snapshot.pattern, Snapshot.withBandwidth]

omit [LinearOrder β] [Add β] [Zero β] in
/-- A key that reports, reports the one bandwidth. -/
theorem reported_withBandwidth (snapshot : Snapshot β) (value : β) (key : Bytes) :
    reported (snapshot.withBandwidth value) key =
      (reported snapshot key).map fun _ ↦ value := by
  rw [reported, Snapshot.withBandwidth, List.find?_map, reported, Option.map_map, Option.map_map]
  rfl

omit [LinearOrder β] [Add β] [Zero β] in
/-- A series under one bandwidth. -/
theorem reports_withBandwidth (samples : List (Snapshot β)) (value : β) (key : Bytes) :
    reports (samples.map (·.withBandwidth value)) key =
      (reports samples key).map fun _ ↦ value := by
  rw [reports, List.filterMap_map, reports, List.map_filterMap]
  exact List.filterMap_congr fun snapshot _ ↦ reported_withBandwidth snapshot value key

/-- Calls of which one reports nothing but zeros and all others nothing but `b`. -/
def probe (b : β) (before : List (Snapshot β)) (snapshot : Snapshot β)
    (recent : List (Snapshot β)) : List (Snapshot β) :=
  before.map (·.withBandwidth b) ++ snapshot.withBandwidth 0 :: recent.map (·.withBandwidth b)

omit [LinearOrder β] [Add β] in
/-- The calls keep the names and types of their rows. -/
theorem pattern_probe (b : β) (before : List (Snapshot β)) (snapshot : Snapshot β)
    (recent : List (Snapshot β)) :
    (probe b before snapshot recent).map Snapshot.pattern =
      (before ++ snapshot :: recent).map Snapshot.pattern := by
  have hsame : Snapshot.pattern ∘ (·.withBandwidth b) = Snapshot.pattern :=
    funext fun s ↦ pattern_withBandwidth s b
  simp only [probe, List.map_append, List.map_cons, List.map_map, hsame, pattern_withBandwidth]

omit [LinearOrder β] [Add β] in
/-- A key that does not report in the call of the zeros retains nothing but `b`. -/
theorem retained_probe (b : β) {before recent : List (Snapshot β)} {snapshot : Snapshot β}
    {key : Bytes} (hnone : reported snapshot key = none) :
    retained (probe b before snapshot recent) key =
      (retained (before ++ snapshot :: recent) key).map fun _ ↦ b := by
  have hwithout : ∀ {xs ys : List (Snapshot β)} {s : Snapshot β}, reported s key = none →
      reports (xs ++ s :: ys) key = reports xs key ++ reports ys key := by
    intro xs ys s hs
    simp only [reports, List.filterMap_append, List.filterMap_cons, hs]
  have hzero : reported (snapshot.withBandwidth 0) key = none := by
    rw [reported_withBandwidth, hnone, Option.map_none]
  rw [retained, probe, hwithout hzero, reports_withBandwidth, reports_withBandwidth,
    ← List.map_append, retained, hwithout hnone, List.rtake, List.length_map, ← List.map_drop,
    List.rtake]

omit [Add β] in
/-- Zeros and nothing are both worth zero. -/
theorem greatest_withBandwidth_zero (snapshot : Snapshot β) (keys : List Bytes) :
    (keys.filterMap (reported (snapshot.withBandwidth 0))).max?.getD 0 = 0 := by
  cases hmax : (keys.filterMap (reported (snapshot.withBandwidth 0))).max? with
  | none => rfl
  | some greatest =>
    obtain ⟨key, -, hkey⟩ := List.mem_filterMap.mp (List.max?_eq_some_iff.mp hmax).1
    rw [reported_withBandwidth, Option.map_eq_some_iff] at hkey
    obtain ⟨_, -, hzero⟩ := hkey
    exact hzero.symm

/-- If whatever the keys report their merged history is aligned in time, then they are in step. -/
theorem inStep_of_timeAligned {b : β} (hb : 0 < b) {samples : List (Snapshot β)}
    {keys : List Bytes}
    (h : ∀ samples' : List (Snapshot β),
      samples'.map Snapshot.pattern = samples.map Snapshot.pattern → TimeAligned samples' keys) :
    InStep samples keys := by
  refine ⟨((storeAfter samples).bandwidthKbps keys).length, fun key hmem hne ↦ ?_⟩
  have hlength := (h samples rfl).length_retained (mem_reporting.mpr ⟨hmem, hne⟩)
  rw [← hlength]
  refine ⟨(length_rtake kCapacity (reports samples key)).symm, ?_⟩
  intro snapshot hsnapshot
  by_contra hnone
  rw [Option.not_isSome_iff_eq_none] at hnone
  obtain ⟨before, recent, hsplit, hj⟩ := exists_split_of_mem_take_reverse hsnapshot
  -- only this call reports zeros, so that the law asks for zero where the key has `b`
  have hprobe := h (probe b before snapshot recent) (by rw [pattern_probe, hsplit])
  have hretained : retained (probe b before snapshot recent) key =
      (retained samples key).map fun _ ↦ b := by
    rw [hsplit]
    exact retained_probe b hnone
  have hreporting : key ∈ reporting (probe b before snapshot recent) keys := by
    apply mem_reporting.mpr ⟨hmem, ?_⟩
    intro hnil
    rw [retained, hnil, List.rtake_nil] at hretained
    rw [List.map_eq_nil_iff.mp hretained.symm] at hj
    exact absurd hj (Nat.not_lt_zero _)
  have hlengths := fun (other : Bytes)
      (hother : other ∈ reporting (probe b before snapshot recent) keys) ↦
    hprobe.length_retained hother
  have hsame := hlengths key hreporting
  rw [hretained, List.length_map] at hsame
  obtain ⟨v, hv⟩ : ∃ v, ((storeAfter (probe b before snapshot recent)).bandwidthKbps
      keys).reverse[recent.length]? = some v := by
    apply Option.isSome_iff_exists.mp
    rw [isSome_getElem?, List.length_reverse, ← hsame]
    exact hj
  obtain ⟨call, hcall, hlaw⟩ := hprobe.value _ v hv
  have hat : (probe b before snapshot recent).reverse[recent.length]? =
      some (snapshot.withBandwidth 0) := by
    simp [probe]
  obtain rfl := Option.some.inj (hat.symm.trans hcall)
  rw [greatest_withBandwidth_zero] at hlaw
  have hle : b ≤ v := by
    rw [List.getElem?_reverse (by rw [← hsame]; exact hj), ← hsame,
      getElem?_bandwidthKbps (fun key hkey ↦ (hlengths key hkey).trans hsame.symm)] at hv
    apply (List.max?_eq_some_iff.mp hv).2
    refine List.mem_filterMap.mpr ⟨key, hreporting, ?_⟩
    rw [hretained, List.getElem?_map, List.getElem?_eq_getElem (by omega), Option.map_some]
  rw [hlaw] at hle
  exact absurd hb (not_lt_of_ge hle)

/-- Whether a key is listed under these names and types. -/
def listed (pattern : List (Bytes × Bytes)) (key : Bytes) : Bool :=
  pattern.any fun row ↦
    (row.2 ≠ ascii "transport" && row.2 ≠ ascii "presence") && row.1 = key

omit [LinearOrder β] [Add β] [Zero β] in
/-- A key reports in the calls in which it is listed. -/
theorem isSome_reported (snapshot : Snapshot β) (key : Bytes) :
    (reported snapshot key).isSome = listed snapshot.pattern key := by
  rw [reported, Option.isSome_map, List.isSome_find?, listed, Snapshot.pattern, List.any_map]
  rfl

omit [LinearOrder β] [Add β] [Zero β] in
/-- Being in step is about the names and types in the calls. -/
theorem InStep.of_pattern {samples samples' : List (Snapshot β)} {keys : List Bytes}
    (h : InStep samples keys)
    (hpattern : samples'.map Snapshot.pattern = samples.map Snapshot.pattern) :
    InStep samples' keys := by
  have hlength : ∀ (samples : List (Snapshot β)) (key : Bytes),
      (reports samples key).length =
        (samples.map Snapshot.pattern).countP (listed · key) := by
    intro samples key
    rw [reports, List.length_filterMap_eq_countP, List.countP_map]
    exact List.countP_congr fun snapshot _ ↦ by
      rw [isSome_reported, Function.comp_apply]
  have hcalls : ∀ (samples : List (Snapshot β)) (m : Nat) (key : Bytes),
      (∀ snapshot ∈ samples.reverse.take m, (reported snapshot key).isSome) ↔
        ∀ pattern ∈ (samples.map Snapshot.pattern).reverse.take m, listed pattern key := by
    intro samples m key
    rw [← List.map_reverse, ← List.map_take, List.forall_mem_map]
    exact forall₂_congr fun snapshot _ ↦ by rw [isSome_reported]
  obtain ⟨m, hm⟩ := h
  refine ⟨m, fun key hkey hne ↦ ?_⟩
  have hsame : (reports samples' key).length = (reports samples key).length := by
    rw [hlength, hlength, hpattern]
  have hne' : reports samples key ≠ [] := by
    apply List.length_pos_iff.mp
    rw [← hsame]
    exact List.length_pos_iff.mpr hne
  obtain ⟨hmin, hall⟩ := hm key hkey hne'
  rw [hcalls, ← hpattern, ← hcalls] at hall
  exact ⟨by rw [hsame]; exact hmin, hall⟩

/-- The merged history is aligned in time, whatever the keys report in the calls in which they are
listed, exactly when they are in step. -/
theorem merged_history_aligned {b : β} (hb : 0 < b) (samples : List (Snapshot β))
    (keys : List Bytes) :
    (∀ samples' : List (Snapshot β),
        samples'.map Snapshot.pattern = samples.map Snapshot.pattern →
          TimeAligned samples' keys) ↔
      InStep samples keys := by
  constructor
  · exact inStep_of_timeAligned hb
  · intro h samples' hpattern
    exact (h.of_pattern hpattern).timeAligned

end

/-- A topic row with a bandwidth. -/
def topicRow (name : Bytes) (bandwidthKbps : Int) : NetworkInfo Int :=
  { NetworkInfo.zeroed Int with name, msgType := ascii "std_msgs/String", bandwidthKbps }

/-- Two calls: the first one lists only `/bridge/t`, the second one only `/t`. -/
def takingTurns : List (Snapshot Int) :=
  [⟨[topicRow (ascii "/bridge/t") 9], by decide⟩, ⟨[topicRow (ascii "/t") 7], by decide⟩]

/-- Two calls that list both names. -/
def together : List (Snapshot Int) :=
  [⟨[topicRow (ascii "/bridge/t") 9, topicRow (ascii "/t") 3], by decide⟩,
    ⟨[topicRow (ascii "/bridge/t") 4, topicRow (ascii "/t") 7], by decide⟩]

example : (storeAfter together).bandwidthKbps [ascii "/t", ascii "/bridge/t"] = [9, 7] := by decide

/-- Two aliases that report together are in step, so their history is aligned whatever they
report. -/
theorem merged_history_aligned_together :
    InStep together [ascii "/t", ascii "/bridge/t"] ∧
      ∀ samples' : List (Snapshot Int),
        samples'.map Snapshot.pattern = together.map Snapshot.pattern →
          TimeAligned samples' [ascii "/t", ascii "/bridge/t"] := by
  have hstep : InStep together [ascii "/t", ascii "/bridge/t"] := ⟨2, by decide⟩
  exact ⟨hstep, (merged_history_aligned Int.one_pos together _).mpr hstep⟩

/-- The names take turns, as the comment at the merge expects, and the older report is shown as
the latest bandwidth. -/
theorem merged_history_misaligned :
    ¬ TimeAligned takingTurns [ascii "/t", ascii "/bridge/t"] := by
  intro h
  obtain ⟨snapshot, hsnapshot, hgreatest⟩ := h.value 0 9 (by decide)
  cases hsnapshot
  exact absurd hgreatest (by decide)

end NetBridge.Tui
