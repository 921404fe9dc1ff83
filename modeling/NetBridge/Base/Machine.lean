/-!
# Labelled machines

A machine is a set of initial states and a partial step function over action labels. A run is
a list of actions; the label resolves every choice, so a run has at most one end. Guards
restrict the runs under consideration without changing the machine.
-/

namespace NetBridge.Base

/-- Initial states, and the step of each action where it is enabled. -/
structure Machine (σ α : Type) where
  init : σ → Prop
  step : σ → α → Option σ

namespace Machine

variable {σ α : Type} (m : Machine σ α)

/-- The state after a list of actions, if each was enabled in turn. -/
def run : σ → List α → Option σ
  | s, [] => some s
  | s, a :: as => (m.step s a).bind fun t ↦ run t as

/-- Every step of the run meets `G` in the state it is taken from. -/
def Along (G : σ → α → Prop) : σ → List α → Prop
  | _, [] => True
  | s, a :: as => G s a ∧ ∀ t, m.step s a = some t → Along G t as

/-- Every state of the run, its first and last included, satisfies `P`. -/
def Always (P : σ → Prop) (s : σ) (as : List α) : Prop :=
  ∀ pre post t, as = pre ++ post → m.run s pre = some t → P t

/-- The states some run reaches. -/
def Reachable (t : σ) : Prop := ∃ s as, m.init s ∧ m.run s as = some t

variable {m} {G : σ → α → Prop} {I P : σ → Prop}

/-- A run without actions stays. -/
@[simp] theorem run_nil (s : σ) : m.run s [] = some s := rfl

/-- A run is its first step and the run after it. -/
theorem run_cons (s : σ) (a : α) (as : List α) :
    m.run s (a :: as) = (m.step s a).bind fun t ↦ m.run t as := rfl

/-- The steps of a run whose end is known. -/
theorem run_cons_eq_some {s u : σ} {a : α} {as : List α} :
    m.run s (a :: as) = some u ↔ ∃ t, m.step s a = some t ∧ m.run t as = some u := by
  rw [run_cons, Option.bind_eq_some_iff]

/-- Runs compose. -/
theorem run_append (s : σ) (as bs : List α) :
    m.run s (as ++ bs) = (m.run s as).bind fun t ↦ m.run t bs := by
  induction as generalizing s with
  | nil => rfl
  | cons a as ih =>
    rw [List.cons_append, run_cons, run_cons]
    cases m.step s a with
    | none => rfl
    | some t => exact ih t

/-- The guard of a first step that is enabled, and the guards of the steps after it. -/
theorem along_cons_of_some {s t : σ} {a : α} {as : List α} (h : m.step s a = some t) :
    m.Along G s (a :: as) ↔ G s a ∧ m.Along G t as := by
  constructor
  · intro hg
    exact ⟨hg.1, hg.2 t h⟩
  · intro hg
    refine ⟨hg.1, ?_⟩
    intro t' ht'
    rw [h] at ht'
    cases ht'
    exact hg.2

/-- A run that stops at its first step has one guard to meet. -/
theorem along_cons_of_none {s : σ} {a : α} {as : List α} (h : m.step s a = none) :
    m.Along G s (a :: as) ↔ G s a := by
  constructor
  · exact And.left
  · intro hg
    refine ⟨hg, ?_⟩
    intro t ht
    rw [h] at ht
    cases ht

/-- Decidable guards can be checked along a run. -/
instance decidableAlong [∀ s a, Decidable (G s a)] :
    (s : σ) → (as : List α) → Decidable (m.Along G s as)
  | _, [] => isTrue trivial
  | s, a :: as =>
    match h : m.step s a with
    | none => decidable_of_iff _ (along_cons_of_none h).symm
    | some t =>
      have : Decidable (m.Along G t as) := decidableAlong t as
      decidable_of_iff _ (along_cons_of_some h).symm

/-- A guarded run has guarded prefixes. -/
theorem Along.prefix {s : σ} {as bs : List α} (h : m.Along G s (as ++ bs)) :
    m.Along G s as := by
  induction as generalizing s with
  | nil => trivial
  | cons a as ih =>
    refine ⟨h.1, ?_⟩
    intro t ht
    exact ih (h.2 t ht)

/-- A run is guarded once the guard holds at each of its steps. -/
theorem along_of_forall {s : σ} {as : List α}
    (h : ∀ pre a post t, as = pre ++ a :: post → m.run s pre = some t → G t a) :
    m.Along G s as := by
  induction as generalizing s with
  | nil => trivial
  | cons a as ih =>
    refine ⟨h [] a as s rfl rfl, ?_⟩
    intro t ht
    apply ih
    intro pre b post u heq hr
    apply h (a :: pre) b post u
    · rw [heq, List.cons_append]
    · exact run_cons_eq_some.mpr ⟨t, ht, hr⟩

/-- An unguarded run is guarded by a trivial guard. -/
theorem along_true (s : σ) (as : List α) : m.Along (fun _ _ ↦ True) s as :=
  along_of_forall fun _ _ _ _ _ _ ↦ trivial

/-- Invariant rule: what every guarded step keeps, every guarded run keeps. -/
theorem run_invariant (hstep : ∀ s a t, I s → G s a → m.step s a = some t → I t)
    {s t : σ} {as : List α} (hs : I s) (hg : m.Along G s as) (hr : m.run s as = some t) :
    I t := by
  induction as generalizing s with
  | nil =>
    cases hr
    exact hs
  | cons a as ih =>
    obtain ⟨u, hu, hr⟩ := run_cons_eq_some.mp hr
    exact ih (hstep s a u hs hg.1 hu) (hg.2 u hu) hr

/-- Invariant rule for the states passed on the way. -/
theorem always_of_invariant (hstep : ∀ s a t, I s → G s a → m.step s a = some t → I t)
    (hP : ∀ s, I s → P s) {s : σ} {as : List α} (hs : I s) (hg : m.Along G s as) :
    m.Always P s as := by
  intro pre post t heq hr
  rw [heq] at hg
  exact hP t (run_invariant hstep hs hg.prefix hr)

/-- Invariant rule for reachable states. -/
theorem Reachable.invariant (hinit : ∀ s, m.init s → I s)
    (hstep : ∀ s a t, I s → m.step s a = some t → I t) {t : σ} (h : m.Reachable t) : I t := by
  obtain ⟨s, as, hs, hr⟩ := h
  exact run_invariant (G := fun _ _ ↦ True) (fun s a t hi _ ht ↦ hstep s a t hi ht) (hinit s hs)
    (along_true s as) hr

/-- Initial states are reachable. -/
theorem Reachable.of_init {s : σ} (h : m.init s) : m.Reachable s := ⟨s, [], h, rfl⟩

/-- What a run leads to is reachable. -/
theorem Reachable.run {s t : σ} {as : List α} (h : m.Reachable s) (ht : m.run s as = some t) :
    m.Reachable t := by
  obtain ⟨start, before, hstart, hbefore⟩ := h
  refine ⟨start, before ++ as, hstart, ?_⟩
  rw [run_append, hbefore, Option.bind_some, ht]

/-- What a step leads to is reachable. -/
theorem Reachable.step {s t : σ} {a : α} (h : m.Reachable s) (ht : m.step s a = some t) :
    m.Reachable t := by
  have hrun : m.run s [a] = some t := by
    rw [run_cons, ht]
    rfl
  exact h.run hrun

/-- A state of a run is also a state of each longer run. -/
theorem Always.prefix {s : σ} {as bs : List α} (h : m.Always P s (as ++ bs)) :
    m.Always P s as := by
  intro pre post t heq hr
  apply h pre (post ++ bs) t _ hr
  rw [heq, List.append_assoc]

/-- The states after the first step are states of the run. -/
theorem Always.tail {s t : σ} {a : α} {as : List α} (h : m.Always P s (a :: as))
    (ht : m.step s a = some t) : m.Always P t as := by
  intro pre post u heq hr
  apply h (a :: pre) post u
  · rw [heq, List.cons_append]
  · exact run_cons_eq_some.mpr ⟨t, ht, hr⟩

/-- Exactness rule: where guarded steps keep an invariant that implies `P`, and a step that
breaks the guard ends outside `P`, a run stays in `P` exactly when it is guarded. -/
theorem always_iff_along (hstep : ∀ s a t, I s → G s a → m.step s a = some t → I t)
    (hP : ∀ s, I s → P s) (hbad : ∀ s a t, I s → ¬G s a → m.step s a = some t → ¬P t)
    {s : σ} {as : List α} (hs : I s) (hrun : (m.run s as).isSome = true) :
    m.Always P s as ↔ m.Along G s as := by
  constructor
  · intro h
    induction as generalizing s with
    | nil => trivial
    | cons a as ih =>
      obtain ⟨u, hu⟩ := Option.isSome_iff_exists.mp hrun
      obtain ⟨t, ht, hr⟩ := run_cons_eq_some.mp hu
      have hg : G s a := by
        apply Classical.byContradiction
        intro hn
        exact hbad s a t hs hn ht (h.tail ht [] as t rfl rfl)
      refine ⟨hg, ?_⟩
      intro t' ht'
      rw [ht] at ht'
      cases ht'
      exact ih (hstep s a t hs hg ht) (by rw [hr]; rfl) (h.tail ht)
  · exact always_of_invariant hstep hP hs

end Machine

end NetBridge.Base
