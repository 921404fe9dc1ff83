import Mathlib.Data.List.Induction

/-!
# Edges of a signal

A signal is the list of its values, one after another. It rises where a true value directly
follows a false one, and it counts as false before its first value. A history is a signal with
the time of each value.
-/

namespace NetBridge.Base

variable {α τ : Type}

/-- Each value of a signal with the one before it, where `before` is before the first. -/
def steps (before : α) (signal : List α) : List (α × α) := (before :: signal).zip signal

/-- How often the signal rises. -/
def rises (signal : List Bool) : Nat :=
  (steps false signal).countP fun step ↦ !step.1 && step.2

/-- A further value makes a step from the last one. -/
theorem steps_concat (before : α) (signal : List α) (a : α) :
    steps before (signal ++ [a]) = steps before signal ++ [(signal.getLast?.getD before, a)] := by
  induction signal generalizing before with
  | nil => rfl
  | cons b signal ih =>
    show (before, b) :: steps b (signal ++ [a]) = (before, b) :: steps b signal ++ _
    rw [ih, List.getLast?_cons, List.cons_append]
    rfl

/-- Nothing rises before the first value. -/
@[simp] theorem rises_nil : rises [] = 0 := rfl

/-- A further value makes an edge when it is true and the last one is not. -/
theorem rises_concat (signal : List Bool) (b : Bool) :
    rises (signal ++ [b]) =
      rises signal + if (!signal.getLast?.getD false && b) = true then 1 else 0 := by
  rw [rises, steps_concat, List.countP_append, List.countP_singleton]
  rfl

/-- The last value of a history. -/
def lastValue (history : List (α × τ)) : Option α := history.getLast?.map Prod.fst

/-- The time of the latest change of a history; its first value is a change. -/
def LatestChange (history : List (α × τ)) (time : τ) : Prop :=
  ∃ front change back, history = front ++ change :: back ∧ lastValue front ≠ some change.1 ∧
    (∀ later ∈ back, later.1 = change.1) ∧ change.2 = time

/-- A new entry is the last one. -/
@[simp] theorem lastValue_concat (history : List (α × τ)) (entry : α × τ) :
    lastValue (history ++ [entry]) = some entry.1 := by
  rw [lastValue, List.getLast?_concat, Option.map_some]

/-- The last value of a history is the last value of its signal. -/
theorem getLast?_map_fst (history : List (α × τ)) :
    (history.map Prod.fst).getLast? = lastValue history := List.getLast?_map

/-- A value that differs from the last one changes the history. -/
theorem LatestChange.of_changed {history : List (α × τ)} {a : α} {time : τ}
    (h : lastValue history ≠ some a) : LatestChange (history ++ [(a, time)]) time :=
  ⟨history, (a, time), [], rfl, h, fun _ hm ↦ absurd hm List.not_mem_nil, rfl⟩

/-- A value that repeats the last one does not. -/
theorem LatestChange.of_repeated {history : List (α × τ)} {a : α} {time now : τ}
    (h : LatestChange history time) (hlast : lastValue history = some a) :
    LatestChange (history ++ [(a, now)]) time := by
  rcases h with ⟨front, change, back, rfl, hchange, hback, rfl⟩
  have hvalue : change.1 = a := by
    induction back using List.reverseRecOn with
    | nil =>
      rw [lastValue_concat] at hlast
      exact Option.some.inj hlast
    | append_singleton back entry _ =>
      rw [← List.cons_append, ← List.append_assoc, lastValue_concat] at hlast
      have hentry := hback entry (List.mem_append_right _ List.mem_cons_self)
      exact hentry.symm.trans (Option.some.inj hlast)
  refine ⟨front, change, back ++ [(a, now)], by simp, hchange, ?_, rfl⟩
  intro later hm
  cases List.mem_append.mp hm with
  | inl hm => exact hback later hm
  | inr hm =>
    rw [List.mem_singleton.mp hm]
    exact hvalue.symm

end NetBridge.Base
