/-!
# While loops

A `while` loop is its round: the next state, or none where the loop is left. Fuel bounds the
rounds, and a measure that every round lowers bounds the fuel.
-/

namespace NetBridge.Base

variable {σ : Type}

/-- The state in which a loop is left; `none` when the fuel does not reach it. -/
def whileLoop (round : σ → Option σ) : Nat → σ → Option σ
  | 0, _ => none
  | fuel + 1, s =>
    match round s with
    | none => some s
    | some s' => whileLoop round fuel s'

/-- A loop whose rounds keep an invariant and lower a measure is left, in a state of the invariant
that is the same for any fuel above the measure. -/
theorem exists_whileLoop {round : σ → Option σ} {I : σ → Prop} {μ : σ → Nat}
    (hround : ∀ s s', I s → round s = some s' → I s' ∧ μ s' < μ s) {s : σ} (hs : I s) :
    ∃ s', (∀ fuel, μ s < fuel → whileLoop round fuel s = some s') ∧ I s' ∧ round s' = none := by
  induction hμ : μ s using Nat.strongRecOn generalizing s with
  | ind n ih =>
    subst hμ
    cases hr : round s with
    | none =>
      refine ⟨s, ?_, hs, hr⟩
      intro fuel hfuel
      cases fuel with
      | zero => exact absurd hfuel (Nat.not_lt_zero _)
      | succ fuel => rw [whileLoop, hr]
    | some next =>
      obtain ⟨hnext, hlower⟩ := hround s next hs hr
      obtain ⟨s', hloop, hend⟩ := ih (μ next) hlower hnext rfl
      refine ⟨s', ?_, hend⟩
      intro fuel hfuel
      cases fuel with
      | zero => exact absurd hfuel (Nat.not_lt_zero _)
      | succ fuel =>
        rw [whileLoop, hr]
        exact hloop fuel (by omega)

end NetBridge.Base
