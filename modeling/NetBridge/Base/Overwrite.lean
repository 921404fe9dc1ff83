import NetBridge.Base.Throwing

/-!
# Maps filled by a loop

Two ways of filling a map rule by rule, in a loop that an exception may end. With plain
assignment the last rule of a key decides what the map holds; when an occupied key is refused,
every rule of a loop that ends keeps its entry.
-/

namespace NetBridge.Base

variable {ρ κ ν ε : Type}

/-- The last element with a property, when one is added. -/
theorem find?_reverse_concat {α : Type} (p : α → Bool) (l : List α) (a : α) :
    (l ++ [a]).reverse.find? p = if p a then some a else l.reverse.find? p := by
  rw [List.reverse_append, List.reverse_singleton, List.singleton_append, List.find?_cons]
  cases p a with
  | true => rfl
  | false => rfl

/-- Among elements of which one has a property there is a last one with it. -/
theorem exists_find?_reverse {α : Type} {p : α → Bool} {l : List α} {a : α} (hm : a ∈ l)
    (h : p a = true) : ∃ last ∈ l, p last = true ∧ l.reverse.find? p = some last := by
  have hsome : (l.reverse.find? p).isSome = true :=
    List.find?_isSome.mpr ⟨a, List.mem_reverse.mpr hm, h⟩
  obtain ⟨last, hlast⟩ := Option.isSome_iff_exists.mp hsome
  exact ⟨last, List.mem_reverse.mp (List.mem_of_find?_eq_some hlast), List.find?_some hlast, hlast⟩

/-! ## The last assignment -/

section

variable [DecidableEq κ]

/-- The value that a rule assigns to a key. -/
def assigned (entry : ρ → Except ε (Option (κ × ν))) (key : κ) (rule : ρ) : Option ν :=
  match entry rule with
  | .ok (some (k, value)) => if k = key then some value else none
  | _ => none

/-- The value that the last rule with a key assigns to it. -/
def lastAssigned (entry : ρ → Except ε (Option (κ × ν))) (key : κ) : List ρ → Option ν
  | [] => none
  | rule :: rules => (lastAssigned entry key rules).or (assigned entry key rule)

/-- What a rule assigns is its entry. -/
theorem assigned_eq_some {entry : ρ → Except ε (Option (κ × ν))} {key : κ} {rule : ρ}
    {value : ν} : assigned entry key rule = some value ↔ entry rule = .ok (some (key, value)) := by
  unfold assigned
  constructor
  · intro h
    split at h
    · next k v he =>
      split at h
      · next hk =>
        cases h
        rw [← hk]
        exact he
      · cases h
    · cases h
  · intro h
    rw [h]
    exact if_pos rfl

/-- The last assigned value comes from a rule. -/
theorem exists_of_lastAssigned {entry : ρ → Except ε (Option (κ × ν))} {key : κ}
    {rules : List ρ} {value : ν} (h : lastAssigned entry key rules = some value) :
    ∃ rule ∈ rules, entry rule = .ok (some (key, value)) := by
  induction rules with
  | nil => cases h
  | cons rule rules ih =>
    rw [lastAssigned, Option.or_eq_some_iff] at h
    rcases h with h | ⟨-, h⟩
    · obtain ⟨rule', hm, he⟩ := ih h
      exact ⟨rule', List.mem_cons_of_mem rule hm, he⟩
    · exact ⟨rule, List.mem_cons_self, assigned_eq_some.mp h⟩

/-- A key is assigned nothing when no rule has an entry for it. -/
theorem lastAssigned_eq_none {entry : ρ → Except ε (Option (κ × ν))} {key : κ} {rules : List ρ} :
    lastAssigned entry key rules = none ↔
      ∀ rule ∈ rules, ∀ value, entry rule ≠ .ok (some (key, value)) := by
  induction rules with
  | nil => simp [lastAssigned]
  | cons rule rules ih =>
    have hrule : assigned entry key rule = none ↔
        ∀ value, entry rule ≠ .ok (some (key, value)) := by
      simp only [Option.eq_none_iff_forall_ne_some, ne_eq, assigned_eq_some]
    rw [lastAssigned, Option.or_eq_none_iff, ih, hrule, List.forall_mem_cons, and_comm]

/-- A key that has one value in all entries is assigned that value. -/
theorem lastAssigned_of_mem {entry : ρ → Except ε (Option (κ × ν))} {key : κ} {rules : List ρ}
    {rule : ρ} {value : ν} (hm : rule ∈ rules) (h : entry rule = .ok (some (key, value)))
    (hsame : ∀ rule ∈ rules, ∀ v, entry rule = .ok (some (key, v)) → v = value) :
    lastAssigned entry key rules = some value := by
  cases hlast : lastAssigned entry key rules with
  | none => exact absurd h (lastAssigned_eq_none.mp hlast rule hm value)
  | some v =>
    rcases exists_of_lastAssigned hlast with ⟨rule', hm', he⟩
    rw [hsame rule' hm' v he]

/-- The last rule that has an entry for a key decides its value. -/
theorem lastAssigned_of_find? {entry : ρ → Except ε (Option (κ × ν))} {key : κ} {p : ρ → Bool}
    {rules : List ρ}
    (hp : ∀ rule ∈ rules, p rule = true ↔ ∃ value, entry rule = .ok (some (key, value)))
    {last : ρ} (h : rules.reverse.find? p = some last) :
    ∃ value, lastAssigned entry key rules = some value ∧
      entry last = .ok (some (key, value)) := by
  induction rules with
  | nil => cases h
  | cons rule rules ih =>
    rw [List.reverse_cons, List.find?_append, Option.or_eq_some_iff] at h
    rw [lastAssigned]
    rcases h with h | ⟨hnone, h⟩
    · rcases ih (fun r hr ↦ hp r (List.mem_cons_of_mem rule hr)) h with ⟨value, hv, he⟩
      exact ⟨value, by rw [hv, Option.some_or], he⟩
    · have hrest : lastAssigned entry key rules = none := by
        apply lastAssigned_eq_none.mpr
        intro r hr value he
        apply List.find?_eq_none.mp hnone r (List.mem_reverse.mpr hr)
        exact (hp r (List.mem_cons_of_mem rule hr)).mpr ⟨value, he⟩
      rw [List.find?_singleton] at h
      split at h
      · next hrule =>
        cases h
        rcases (hp _ List.mem_cons_self).mp hrule with ⟨value, he⟩
        exact ⟨value, by rw [hrest, Option.none_or, assigned_eq_some.mpr he], he⟩
      · cases h

end

/-! ## Maps -/

section

variable [Ord κ] [Std.TransOrd κ] [Std.LawfulEqOrd κ]

/-- Looking up after an assignment. -/
theorem getElem?_insert_eq [DecidableEq κ] (map : Std.ExtTreeMap κ ν) (key : κ) (value : ν)
    (k : κ) : (map.insert key value)[k]? = if key = k then some value else map[k]? := by
  rw [Std.ExtTreeMap.getElem?_insert]
  by_cases hk : key = k
  · rw [if_pos hk, if_pos (Std.LawfulEqCmp.compare_eq_iff_eq.mpr hk)]
  · rw [if_neg hk, if_neg fun h ↦ hk (Std.LawfulEqCmp.compare_eq_iff_eq.mp h)]

/-- `map[key] = value` with the entry of a rule, if it has one. -/
def assign (entry : ρ → Except ε (Option (κ × ν))) (map : Std.ExtTreeMap κ ν) (rule : ρ) :
    Except ε (Std.ExtTreeMap κ ν) := do
  match ← entry rule with
  | none => pure map
  | some (key, value) => pure (map.insert key value)

private theorem getElem?_assign [DecidableEq κ] {entry : ρ → Except ε (Option (κ × ν))}
    {map map' : Std.ExtTreeMap κ ν} {rule : ρ} (h : assign entry map rule = .ok map') (key : κ) :
    map'[key]? = (assigned entry key rule).or map[key]? := by
  unfold assign at h
  unfold assigned
  cases he : entry rule with
  | error e =>
    rw [he] at h
    cases h
  | ok o =>
    rw [he] at h
    cases o with
    | none =>
      cases h
      rfl
    | some e =>
      cases h
      dsimp only
      rw [getElem?_insert_eq]
      by_cases hk : e.1 = key
      · rw [if_pos hk, if_pos hk, Option.some_or]
      · rw [if_neg hk, if_neg hk, Option.none_or]

/-- After a loop of assignments a key holds the value of the last rule that assigned it. -/
theorem getElem?_of_assigns [DecidableEq κ] {entry : ρ → Except ε (Option (κ × ν))}
    {rules : List ρ} {map map' : Std.ExtTreeMap κ ν}
    (h : rules.foldlM (assign entry) map = .ok map') (key : κ) :
    map'[key]? = (lastAssigned entry key rules).or map[key]? := by
  induction rules generalizing map with
  | nil =>
    cases h
    rfl
  | cons rule rules ih =>
    rw [List.foldlM_cons] at h
    obtain ⟨mid, hr, h⟩ := bind_eq_ok.mp h
    rw [ih h, getElem?_assign hr, lastAssigned, Option.or_assoc]

omit [Std.LawfulEqOrd κ] in
/-- A loop of assignments that ends has read the entry of every rule. -/
theorem entry_of_assigns {entry : ρ → Except ε (Option (κ × ν))} {rules : List ρ}
    {map map' : Std.ExtTreeMap κ ν} (h : rules.foldlM (assign entry) map = .ok map') :
    ∀ rule ∈ rules, ∃ e, entry rule = .ok e := by
  intro rule hm
  obtain ⟨before, after, hr⟩ := exists_round_of_mem h hm
  obtain ⟨e, he, -⟩ := bind_eq_ok.mp hr
  exact ⟨e, he⟩

/-! ## Refusal of occupied keys -/

/-- Every entry of the first map is in the second. -/
def Extends (a b : Std.ExtTreeMap κ ν) : Prop :=
  ∀ (key : κ) (value : ν), a[key]? = some value → b[key]? = some value

/-- An entry under a free key extends the map. -/
theorem Extends.insert {map : Std.ExtTreeMap κ ν} {key : κ} (h : key ∉ map) (value : ν) :
    Extends map (map.insert key value) := by
  intro k v hk
  rw [Std.ExtTreeMap.getElem?_insert]
  rw [if_neg]
  · exact hk
  · intro he
    rw [Std.LawfulEqCmp.compare_eq_iff_eq] at he
    rw [he] at h
    exact h (Std.ExtTreeMap.mem_iff_isSome_getElem?.mpr (by rw [hk]; rfl))

/-- Every rule has put its entry under a key of its own, and there are no other entries. -/
structure Filled (Entry : ρ → κ → ν → Prop) (rules : List ρ) (map : Std.ExtTreeMap κ ν) : Prop where
  complete : ∀ rule ∈ rules, ∃ key value, Entry rule key value ∧ map[key]? = some value
  sound : ∀ (key : κ) (value : ν), map[key]? = some value → ∃ rule ∈ rules, Entry rule key value
  apart : rules.Pairwise fun rule rule' ↦
    ∃ key value key' value', Entry rule key value ∧ Entry rule' key' value' ∧ key ≠ key'

private theorem Filled.concat {Entry : ρ → κ → ν → Prop} {rules : List ρ}
    {map : Std.ExtTreeMap κ ν} (h : Filled Entry rules map) {rule : ρ} {key : κ} {value : ν}
    (hentry : Entry rule key value) (hfree : key ∉ map) :
    Filled Entry (rules ++ [rule]) (map.insert key value) := by
  have hext : Extends map (map.insert key value) := Extends.insert hfree value
  constructor
  · intro r hr
    rcases List.mem_append.mp hr with hr | hr
    · rcases h.complete r hr with ⟨k, v, he, hm⟩
      exact ⟨k, v, he, hext k v hm⟩
    · rw [List.mem_singleton] at hr
      rw [hr]
      exact ⟨key, value, hentry, Std.ExtTreeMap.getElem?_insert_self⟩
  · intro k v hm
    rw [Std.ExtTreeMap.getElem?_insert] at hm
    split at hm
    · next hk =>
      cases hm
      rw [← Std.LawfulEqCmp.compare_eq_iff_eq.mp hk]
      exact ⟨rule, by simp, hentry⟩
    · rcases h.sound k v hm with ⟨r, hr, he⟩
      exact ⟨r, List.mem_append_left _ hr, he⟩
  · rw [List.pairwise_append]
    refine ⟨h.apart, List.pairwise_singleton _ _, ?_⟩
    intro r hr r' hr'
    rw [List.mem_singleton] at hr'
    rw [hr']
    rcases h.complete r hr with ⟨k, v, he, hm⟩
    refine ⟨k, v, key, value, he, hentry, ?_⟩
    rintro rfl
    exact hfree (Std.ExtTreeMap.mem_iff_isSome_getElem?.mpr (by rw [hm]; rfl))

/-- A loop whose rounds add an entry under a free key each fills the map. -/
theorem filled_of_foldlM {Entry : ρ → κ → ν → Prop}
    {round : Std.ExtTreeMap κ ν → ρ → Except ε (Std.ExtTreeMap κ ν)}
    (hround : ∀ (map : Std.ExtTreeMap κ ν) (rule : ρ) (map' : Std.ExtTreeMap κ ν),
      round map rule = .ok map' →
        ∃ key value, Entry rule key value ∧ key ∉ map ∧ map' = map.insert key value)
    {rules : List ρ} {map : Std.ExtTreeMap κ ν} (h : rules.foldlM round ∅ = Except.ok map) :
    Filled Entry rules map := by
  apply foldlM_invariant _ _ h
  · intro rules rule mid map hfilled hr
    rcases hround mid rule map hr with ⟨key, value, hentry, hfree, rfl⟩
    exact hfilled.concat hentry hfree
  · exact ⟨by simp, by simp, .nil⟩

end

end NetBridge.Base
