import NetBridge.Base.Simulation

/-!
# Lossy channels that keep the order

What is sent is inside the channel until it is received, oldest first, or lost. A channel has no
other means: it neither repeats nor makes up anything.
-/

namespace NetBridge.Base

/-- What has been sent, what is inside, and what has been received. -/
structure Channel (α : Type) where
  sent : List α := []
  inside : List α := []
  received : List α := []

/-- What may happen in a channel. -/
inductive ChannelAction (α : Type) where
  | send (values : List α)
  /-- Of what is inside only this is kept. -/
  | lose (kept : List α)
  | receive

namespace Channel

variable {α : Type} [DecidableEq α]

/-- One step, where it is enabled. -/
def step (c : Channel α) : ChannelAction α → Option (Channel α)
  | .send values => some { c with sent := c.sent ++ values, inside := c.inside ++ values }
  | .lose kept => if kept.Sublist c.inside then some { c with inside := kept } else none
  | .receive =>
    match c.inside with
    | [] => none
    | value :: inside => some { c with inside, received := c.received ++ [value] }

/-- In order and without repetition: what was received and what is inside are among what was
sent. -/
def InOrder (c : Channel α) : Prop := (c.received ++ c.inside).Sublist c.sent

/-- A step keeps the order. -/
theorem inOrder_step (c : Channel α) (a : ChannelAction α) (c' : Channel α) (hc : c.InOrder)
    (h : c.step a = some c') : c'.InOrder := by
  unfold InOrder at hc ⊢
  cases a with
  | send values =>
    cases h
    rw [← List.append_assoc]
    exact hc.append_right values
  | lose kept =>
    simp only [step] at h
    split at h
    · next hkept =>
      cases h
      exact (hkept.append_left c.received).trans hc
    · cases h
  | receive =>
    simp only [step] at h
    split at h
    · cases h
    · next value inside hinside =>
      cases h
      rw [hinside] at hc
      rwa [List.append_assoc]

/-- Something may be lost, or nothing. -/
theorem run_lose {n : Machine (Channel α) (ChannelAction α)} (hn : n.step = Channel.step)
    (c : Channel α) {kept : List α} (h : kept.Sublist c.inside) :
    n.run c [.lose kept] = some { c with inside := kept } := by
  rw [Machine.run_cons, hn, step, if_pos h]
  rfl

end Channel

/-- An empty channel to begin with. -/
def lossyFifo (α : Type) [DecidableEq α] : Machine (Channel α) (ChannelAction α) where
  init c := c = {}
  step := Channel.step

namespace Channel

variable {α : Type} [DecidableEq α] {c : Channel α}

/-- Every run keeps the order. -/
theorem inOrder_of_reachable (h : (lossyFifo α).Reachable c) : c.InOrder := by
  apply h.invariant
  · rintro _ rfl
    exact .refl _
  · exact inOrder_step

end Channel

end NetBridge.Base
