import Mathlib.Algebra.Ring.Nat

/-!
# Cooldowns

A step may fire, and does so only when a counter has passed its value at the last firing by a fixed
number. Firings are then rare in every part of a run: the counter pays for all but the first one.
-/

namespace NetBridge.Base

variable {σ ε : Type} (step : σ → ε → σ) (fires : σ → ε → Bool)

/-- The number of steps that fire. -/
def firings : σ → List ε → Nat
  | _, [] => 0
  | s, e :: es => (if fires s e then 1 else 0) + firings (step s e) es

/-- A step counts its ticks, and if it fires, a cooldown has passed since the last firing. -/
structure Cooldown (total last : σ → Nat) (ticks : ε → Nat) (cooldown : Nat) (s : σ) (e : ε) :
    Prop where
  ticked : total (step s e) = total s + ticks e
  waited : fires s e = true →
    last s + cooldown ≤ total (step s e) ∧ last (step s e) = total (step s e)
  kept : fires s e = false → last s ≤ last (step s e) ∧ last (step s e) ≤ total (step s e)

variable {step fires} {total last : σ → Nat} {ticks : ε → Nat} {cooldown : Nat}

private theorem cooldown_tail {s : σ} {e : ε} {es : List ε}
    (h : ∀ pre e' post, e :: es = pre ++ e' :: post →
      Cooldown step fires total last ticks cooldown (pre.foldl step s) e') :
    ∀ pre e' post, es = pre ++ e' :: post →
      Cooldown step fires total last ticks cooldown (pre.foldl step (step s e)) e' := by
  intro pre e' post heq
  apply h (e :: pre) e' post
  rw [heq, List.cons_append]

/-- From a state on, the ticks and those since the last firing pay for all firings. -/
theorem firings_mul_add_le {s : σ} {es : List ε} (hs : last s ≤ total s)
    (h : ∀ pre e post, es = pre ++ e :: post →
      Cooldown step fires total last ticks cooldown (pre.foldl step s) e) :
    firings step fires s es * cooldown + last s ≤ total s + (es.map ticks).sum := by
  induction es generalizing s with
  | nil =>
    rw [firings, Nat.zero_mul, Nat.zero_add, List.map_nil, List.sum_nil, Nat.add_zero]
    exact hs
  | cons e es ih =>
    have hstep : Cooldown step fires total last ticks cooldown s e := h [] e es rfl
    have hticked := hstep.ticked
    rw [List.map_cons, List.sum_cons, firings]
    cases hfires : fires s e with
    | true =>
      rcases hstep.waited hfires with ⟨hwaited, hlast⟩
      have hrest := ih (Nat.le_of_eq hlast) (cooldown_tail h)
      rw [if_pos rfl, Nat.add_mul, Nat.one_mul]
      omega
    | false =>
      rcases hstep.kept hfires with ⟨hkept, hle⟩
      have hrest := ih hle (cooldown_tail h)
      rw [if_neg Bool.false_ne_true, Nat.zero_add]
      omega

/-- In every part of a run the ticks pay for all firings but one. -/
theorem firings_mul_le {s : σ} {es : List ε}
    (h : ∀ pre e post, es = pre ++ e :: post →
      Cooldown step fires total last ticks cooldown (pre.foldl step s) e) :
    firings step fires s es * cooldown ≤ (es.map ticks).sum + cooldown := by
  induction es generalizing s with
  | nil =>
    rw [firings, Nat.zero_mul]
    exact Nat.zero_le _
  | cons e es ih =>
    have hstep : Cooldown step fires total last ticks cooldown s e := h [] e es rfl
    rw [List.map_cons, List.sum_cons, firings]
    cases hfires : fires s e with
    | true =>
      rcases hstep.waited hfires with ⟨_, hlast⟩
      have hrest := firings_mul_add_le (Nat.le_of_eq hlast) (cooldown_tail h)
      rw [if_pos rfl, Nat.add_mul, Nat.one_mul]
      omega
    | false =>
      have hrest := ih (cooldown_tail h)
      rw [if_neg Bool.false_ne_true, Nat.zero_add]
      omega

end NetBridge.Base
