import NetBridge.Base.Checked

/-!
# Computations with an output pointer

Checked computations over the target of an output pointer, which may be null. What was assigned
before an early end stays assigned, so that a trace of a refused computation can be told.
-/

namespace NetBridge.Base

/-- A checked computation that may assign to the target of its output pointer. -/
abbrev Assigning (ω α : Type) := EStateM Stop (Option ω) α

namespace Assigning

variable {ω α β : Type}

/-- A computation without the output. -/
def ofChecked (c : Checked α) : Assigning ω α := fun output ↦
  match c with
  | .ok a => .ok a output
  | .error stop => .error stop output

instance : MonadLift Checked (Assigning ω) := ⟨ofChecked⟩

/-- `if (output == nullptr) return false`. -/
def requireOutput : Assigning ω Unit := fun output ↦
  if output.isSome then .ok () output else .error .rejected output

/-- `*output = value`. -/
def assign (value : ω) : Assigning ω Unit := fun output ↦
  match output with
  | some _ => .ok () (some value)
  | none => .error (.fault .nullPointer) none

/-- What a caller sees of a function that returns whether it succeeded: the flag and the target of
the output pointer, or a fault. -/
def call (c : Assigning ω Unit) (output : Option ω) : Except Fault (Bool × Option ω) :=
  match c output with
  | .ok () output => .ok (true, output)
  | .error .rejected output => .ok (false, output)
  | .error (.fault fault) _ => .error fault

/-- The output is not touched. -/
def Silent (c : Assigning ω α) : Prop := ∀ output,
  (∃ a, c output = .ok a output) ∨ ∃ stop, c output = .error stop output

/-- The output is not touched by a run that ends early. -/
def Traceless (c : Assigning ω α) : Prop :=
  ∀ output stop output', c output = .error stop output' → output' = output

/-- A checked computation assigns nothing. -/
theorem silent_ofChecked (c : Checked α) : Silent (ofChecked c : Assigning ω α) := by
  intro output
  cases c with
  | ok a => exact Or.inl ⟨a, rfl⟩
  | error stop => exact Or.inr ⟨stop, rfl⟩

/-- The check of the output pointer assigns nothing. -/
theorem silent_requireOutput : Silent (requireOutput : Assigning ω Unit) := by
  intro output
  cases output with
  | none => exact Or.inr ⟨.rejected, rfl⟩
  | some value => exact Or.inl ⟨(), rfl⟩

/-- An assignment ends early only where there is nothing to assign to. -/
theorem traceless_assign (value : ω) : Traceless (assign value) := by
  intro output stop output' h
  cases output with
  | none =>
    cases h
    rfl
  | some _ => cases h

private theorem bind_apply (c : Assigning ω α) (f : α → Assigning ω β) (output : Option ω) :
    (c >>= f) output = match c output with
      | .ok a output => f a output
      | .error stop output => .error stop output := by
  show EStateM.bind c f output = _
  unfold EStateM.bind
  cases c output <;> rfl

/-- Nothing before the last part of a computation may touch the output. -/
theorem Silent.bind_traceless {c : Assigning ω α} {f : α → Assigning ω β} (hc : c.Silent)
    (hf : ∀ a, (f a).Traceless) : Traceless (c >>= f) := by
  intro output stop output' h
  rw [bind_apply] at h
  rcases hc output with ⟨a, ha⟩ | ⟨stop', hs⟩
  · rw [ha] at h
    exact hf a output stop output' h
  · rw [hs] at h
    cases h
    rfl

/-- A refusal leaves the output as it was. -/
theorem Traceless.call_false {c : Assigning ω Unit} (hc : c.Traceless) {output output' : Option ω}
    (h : c.call output = .ok (false, output')) : output' = output := by
  unfold call at h
  split at h
  · cases h
  · next target hrun =>
    cases h
    exact hc _ _ _ hrun
  · cases h

/-- A composition of checked computations. -/
theorem ofChecked_bind (c : Checked α) (f : α → Checked β) :
    (ofChecked (c >>= f) : Assigning ω β) = ofChecked c >>= fun a ↦ ofChecked (f a) := by
  funext output
  rw [bind_apply]
  cases c <;> rfl

/-- A checked value. -/
theorem ofChecked_ok (a : α) (f : α → Assigning ω β) : ofChecked (.ok a) >>= f = f a := by
  funext output
  rw [bind_apply]
  rfl

/-- A function that tests its output pointer first and assigns the value of a checked computation
last. -/
theorem call_assign (c : Checked ω) (output : Option ω) :
    call (requireOutput >>= fun _ ↦ ofChecked c >>= assign) output =
      match output with
      | none => .ok (false, none)
      | some prior =>
        match c with
        | .ok value => .ok (true, some value)
        | .error .rejected => .ok (false, some prior)
        | .error (.fault fault) => .error fault := by
  cases output with
  | none => rfl
  | some prior =>
    cases c with
    | ok value => rfl
    | error stop => cases stop <;> rfl

end Assigning

end NetBridge.Base
