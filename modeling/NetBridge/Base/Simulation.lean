import NetBridge.Base.Machine

/-!
# Simulations between machines

A relation between the states of two machines that every step of the first keeps, while the second
takes any number of steps of its own. What holds of all reachable states of the second then holds
of the related states of the first.
-/

namespace NetBridge.Base

namespace Machine

variable {σ τ α β : Type} {m : Machine σ α} {n : Machine τ β}

/-- Each initial state is related to one, and each step is followed by a run. -/
structure Simulates (m : Machine σ α) (n : Machine τ β) (R : σ → τ → Prop) : Prop where
  init : ∀ s, m.init s → ∃ t, n.init t ∧ R s t
  step : ∀ s t a s', R s t → m.step s a = some s' → ∃ as t', n.run t as = some t' ∧ R s' t'

/-- Simulation rule: every reachable state is related to a reachable one. -/
theorem Simulates.reachable {R : σ → τ → Prop} (h : Simulates m n R) {s : σ}
    (hs : m.Reachable s) : ∃ t, n.Reachable t ∧ R s t := by
  apply hs.invariant (I := fun s ↦ ∃ t, n.Reachable t ∧ R s t)
  · intro s hinit
    obtain ⟨t, ht, hrelated⟩ := h.init s hinit
    exact ⟨t, .of_init ht, hrelated⟩
  · rintro s a s' ⟨t, ht, hrelated⟩ hstep
    obtain ⟨as, t', hrun, hrelated'⟩ := h.step s t a s' hrelated hstep
    exact ⟨t', ht.run hrun, hrelated'⟩

end Machine

end NetBridge.Base
