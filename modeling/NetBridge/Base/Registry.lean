import Mathlib.Data.List.Induction

/-!
# Exclusive names

A registry gives each name to one holder at a time: claiming a taken name fails. Holders sit in
slots, and a new holder claims its name before the one that it replaces gives up its own. So a
slot that is filled again under an unchanged name ends without it every second time.
-/

namespace NetBridge.Base

/-- A registry of exclusive names, and what it promises. -/
structure Registry (α : Type) where
  State : Type
  empty : State
  taken : State → α → Bool
  claim : State → α → Bool × State
  release : State → α → State
  taken_empty : ∀ a, taken empty a = false
  claim_fst : ∀ s a, (claim s a).1 = !taken s a
  taken_claim : ∀ s a b, taken (claim s a).2 b = true ↔ taken s b = true ∨ b = a
  taken_release : ∀ s a b, taken (release s a) b = true ↔ taken s b = true ∧ b ≠ a

namespace Registry

variable {α κ : Type} (r : Registry α)

/-- What a claim returns: the name, if it was free. -/
def acquire (s : r.State) (a : α) : Option α × r.State :=
  (if (r.claim s a).1 then some a else none, (r.claim s a).2)

/-- The end of a holder, which may have a name. -/
def giveUp (s : r.State) (handle : Option α) : r.State :=
  match handle with
  | some a => r.release s a
  | none => s

/-- A registry and the names that the holders in the slots have. -/
structure Slots (κ : Type) where
  registry : r.State
  held : κ → Option α

/-- No holder yet. -/
def Slots.empty (κ : Type) : r.Slots κ := ⟨r.empty, fun _ ↦ none⟩

variable {r}

/-- The names are those of the registry, each in one slot. -/
structure Slots.Exclusive (s : r.Slots κ) : Prop where
  taken : ∀ a, r.taken s.registry a = true ↔ ∃ k, s.held k = some a
  unique : ∀ {k k' : κ} {a : α}, s.held k = some a → s.held k' = some a → k = k'

/-- A claim returns the name exactly when it was free. -/
theorem acquire_fst (s : r.State) (a : α) :
    (r.acquire s a).1 = if r.taken s a then none else some a := by
  rw [acquire, r.claim_fst]
  cases r.taken s a with
  | true => rfl
  | false => rfl

private theorem taken_acquire (s : r.State) (a b : α) :
    r.taken (r.acquire s a).2 b = true ↔ r.taken s b = true ∨ b = a := r.taken_claim s a b

private theorem taken_giveUp (s : r.State) (handle : Option α) (b : α) :
    r.taken (r.giveUp s handle) b = true ↔ r.taken s b = true ∧ handle ≠ some b := by
  cases handle with
  | none => exact ⟨fun h ↦ ⟨h, by simp⟩, And.left⟩
  | some a =>
    rw [giveUp, r.taken_release]
    constructor
    · intro h
      refine ⟨h.1, ?_⟩
      intro he
      exact h.2 (Option.some.inj he).symm
    · intro h
      refine ⟨h.1, ?_⟩
      intro he
      exact h.2 (by rw [he])

variable [DecidableEq κ]

/-- A new holder in a slot: it claims its name while the old holder still has its own. -/
def Slots.replace (s : r.Slots κ) (k : κ) (a : α) : r.Slots κ where
  registry := r.giveUp (r.acquire s.registry a).2 (s.held k)
  held k' := if k' = k then (r.acquire s.registry a).1 else s.held k'

/-- The holders of a list, one after the other. -/
def Slots.replaceAll (s : r.Slots κ) (holders : List (κ × α)) : r.Slots κ :=
  holders.foldl (fun s holder ↦ s.replace holder.1 holder.2) s

omit [DecidableEq κ] in
/-- Empty slots hold no name. -/
theorem Slots.exclusive_empty : (Slots.empty r κ).Exclusive where
  taken a := by
    constructor
    · intro h
      rw [Slots.empty, r.taken_empty] at h
      cases h
    · intro h
      obtain ⟨k, hk⟩ := h
      cases hk
  unique h _ := by cases h

/-- What the slots hold after a replacement. -/
theorem Slots.held_replace (s : r.Slots κ) (k : κ) (a : α) (k' : κ) :
    (s.replace k a).held k' =
      if k' = k then (if r.taken s.registry a then none else some a) else s.held k' := by
  rw [replace, acquire_fst]

private theorem Slots.taken_replace (s : r.Slots κ) (k : κ) (a b : α) :
    r.taken (s.replace k a).registry b = true ↔
      (r.taken s.registry b = true ∨ b = a) ∧ s.held k ≠ some b := by
  show r.taken (r.giveUp (r.acquire s.registry a).2 (s.held k)) b = true ↔ _
  rw [taken_giveUp, taken_acquire]

/-- A replacement keeps the names exclusive. -/
theorem Slots.Exclusive.replace {s : r.Slots κ} (h : s.Exclusive) (k : κ) (a : α) :
    (s.replace k a).Exclusive := by
  constructor
  · intro b
    rw [taken_replace]
    constructor
    · intro hb
      obtain ⟨hb, hold⟩ := hb
      by_cases hb' : r.taken s.registry b = true
      · obtain ⟨k', hk'⟩ := (h.taken b).mp hb'
        refine ⟨k', ?_⟩
        rw [held_replace, if_neg]
        · exact hk'
        · intro he
          rw [he] at hk'
          exact hold hk'
      · have hba : b = a := hb.resolve_left hb'
        refine ⟨k, ?_⟩
        rw [held_replace, if_pos rfl, ← hba, if_neg hb']
    · intro hb
      obtain ⟨k', hk'⟩ := hb
      rw [held_replace] at hk'
      split at hk'
      · split at hk'
        · cases hk'
        · next hfree =>
          cases hk'
          refine ⟨Or.inr rfl, ?_⟩
          intro hold
          exact hfree ((h.taken a).mpr ⟨k, hold⟩)
      · next hne =>
        refine ⟨Or.inl ((h.taken b).mpr ⟨k', hk'⟩), ?_⟩
        intro hold
        exact hne (h.unique hk' hold)
  · intro k₁ k₂ b h₁ h₂
    rw [held_replace] at h₁ h₂
    have hfresh : ∀ {k' : κ}, r.taken s.registry a ≠ true → s.held k' ≠ some a := by
      intro k' hfree hk'
      exact hfree ((h.taken a).mpr ⟨k', hk'⟩)
    split at h₁
    · next he₁ =>
      split at h₂
      · next he₂ => rw [he₁, he₂]
      · split at h₁
        · cases h₁
        · next hfree =>
          cases h₁
          exact absurd h₂ (hfresh hfree)
    · split at h₂
      · split at h₂
        · cases h₂
        · next hfree =>
          cases h₂
          exact absurd h₁ (hfresh hfree)
      · exact h.unique h₁ h₂

/-- One more holder is put into its slot last. -/
theorem Slots.replaceAll_concat (s : r.Slots κ) (holders : List (κ × α)) (holder : κ × α) :
    s.replaceAll (holders ++ [holder]) = (s.replaceAll holders).replace holder.1 holder.2 := by
  rw [replaceAll, List.foldl_append]
  rfl

/-- Names stay exclusive over any list of holders. -/
theorem Slots.Exclusive.replaceAll {s : r.Slots κ} (h : s.Exclusive) (holders : List (κ × α)) :
    (s.replaceAll holders).Exclusive := by
  induction holders generalizing s with
  | nil => exact h
  | cons holder holders ih => exact ih (h.replace holder.1 holder.2)

/-- The number of holders that a slot has had. -/
def fills (holders : List (κ × α)) (k : κ) : Nat := holders.countP fun holder ↦ holder.1 = k

/-- One more holder fills its slot once more. -/
theorem fills_concat (holders : List (κ × α)) (holder : κ × α) (k : κ) :
    fills (holders ++ [holder]) k = fills holders k + if holder.1 = k then 1 else 0 := by
  rw [fills, List.countP_append, List.countP_singleton]
  by_cases hk : holder.1 = k
  · rw [if_pos hk, if_pos (decide_eq_true hk)]
    rfl
  · rw [if_neg hk, if_neg (by rw [decide_eq_true_eq]; exact hk)]
    rfl

private theorem exists_of_fills {holders : List (κ × α)} {k : κ} (h : fills holders k % 2 = 1) :
    ∃ holder ∈ holders, holder.1 = k := by
  have hpos : 0 < holders.countP fun holder ↦ holder.1 = k := by
    have : fills holders k = holders.countP fun holder ↦ holder.1 = k := rfl
    omega
  obtain ⟨holder, hm, hk⟩ := List.countP_pos_iff.mp hpos
  exact ⟨holder, hm, of_decide_eq_true hk⟩

/-- Where every slot has a name of its own, a slot holds it after an odd number of holders and
nothing after an even number. -/
theorem held_replaceAll_empty {holders : List (κ × α)} {name : κ → α}
    (hname : ∀ holder ∈ holders, holder.2 = name holder.1)
    (hown : ∀ holder ∈ holders, ∀ holder' ∈ holders, name holder.1 = name holder'.1 →
      holder.1 = holder'.1) (k : κ) :
    ((Slots.empty r κ).replaceAll holders).held k =
      if fills holders k % 2 = 1 then some (name k) else none := by
  induction holders using List.reverseRecOn generalizing k with
  | nil => rfl
  | append_singleton holders holder ih =>
    have hmem : ∀ {h : κ × α}, h ∈ holders → h ∈ holders ++ [holder] :=
      fun hm ↦ List.mem_append_left _ hm
    have hlast : holder ∈ holders ++ [holder] :=
      List.mem_append_right _ (List.mem_singleton_self holder)
    have hheld := ih (fun h hm ↦ hname h (hmem hm)) fun h hm h' hm' ↦
      hown h (hmem hm) h' (hmem hm')
    -- The name of the new holder is taken exactly when its own slot has it.
    have htaken : r.taken ((Slots.empty r κ).replaceAll holders).registry (name holder.1) = true ↔
        fills holders holder.1 % 2 = 1 := by
      rw [(Slots.exclusive_empty.replaceAll holders).taken]
      constructor
      · intro h
        obtain ⟨k', hk'⟩ := h
        rw [hheld] at hk'
        split at hk'
        · next hodd =>
          obtain ⟨holder', hm', he⟩ := exists_of_fills hodd
          have hslot : holder'.1 = holder.1 := by
            apply hown holder' (hmem hm') holder hlast
            rw [he]
            exact Option.some.inj hk'
          rw [← hslot, he]
          exact hodd
        · cases hk'
      · intro hodd
        refine ⟨holder.1, ?_⟩
        rw [hheld, if_pos hodd]
    rw [Slots.replaceAll_concat, Slots.held_replace, hname holder hlast, fills_concat]
    by_cases hk : k = holder.1
    · rw [if_pos hk, hk, if_pos rfl]
      by_cases hodd : fills holders holder.1 % 2 = 1
      · rw [if_pos (htaken.mpr hodd), if_neg (by omega)]
      · rw [if_neg fun ht ↦ hodd (htaken.mp ht), if_pos (by omega)]
    · rw [if_neg hk, hheld, if_neg (Ne.symm hk), Nat.add_zero]

end Registry

end NetBridge.Base
