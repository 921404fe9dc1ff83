import NetBridge.Base.Throwing

/-!
# Checked computations

Imperative code over buffers and pointers as computations that end in a value, in a refusal
of the code's own (an early `return false`), or in a fault: an access the language leaves
undefined, or an exception nobody catches. Indices are checked against the buffer at hand.
-/

namespace NetBridge.Base

/-- What goes wrong outside the code's own control flow. -/
inductive Fault where
  | nullPointer
  | outOfRange
  /-- A copy into a buffer that is too small for it. -/
  | bufferOverrun
  | divisionByZero
  /-- `std::length_error` of a container. -/
  | lengthError
deriving DecidableEq, Repr

/-- How a computation ends early. -/
inductive Stop where
  | rejected
  | fault (fault : Fault)
deriving DecidableEq, Repr

/-- A computation that may end early. -/
abbrev Checked (α : Type) := Except Stop α

/-- `*pointer`. -/
def deref {α : Type} : Option α → Checked α
  | some value => .ok value
  | none => .error (.fault .nullPointer)

/-- `data[index]`. -/
def readAt {α : Type} (data : List α) (index : Nat) : Checked α :=
  match data[index]? with
  | some value => .ok value
  | none => .error (.fault .outOfRange)

/-- `data[index] = value`. -/
def writeAt {α : Type} (data : List α) (index : Nat) (value : α) : Checked (List α) :=
  if index < data.length then .ok (data.set index value) else .error (.fault .outOfRange)

/-- `memcpy` of all of `source` to the front of `target`. -/
def copyInto {α : Type} (target source : List α) : Checked (List α) :=
  if source.length ≤ target.length then .ok (source ++ target.drop source.length)
  else .error (.fault .bufferOverrun)

/-- `if (!condition) return false`. -/
def require (condition : Bool) : Checked Unit := if condition then .ok () else .error .rejected

/-- A step that may refuse. -/
def orReject {α : Type} : Option α → Checked α
  | some value => .ok value
  | none => .error .rejected

/-- `for (i = 0; i < n; ++i) state = body(i, state)`. -/
def forRange {σ : Type} : Nat → (Nat → σ → Checked σ) → σ → Checked σ
  | 0, _, state => .ok state
  | n + 1, body, state => forRange n body state >>= body n

namespace Checked

variable {α β σ : Type}

/-- The computation ends without a fault. -/
def Safe (c : Checked α) : Prop := ∀ fault, c ≠ .error (.fault fault)

/-- A value is no fault. -/
@[simp] theorem safe_ok (a : α) : Safe (.ok a : Checked α) := fun _ h ↦ by cases h

/-- A refusal is no fault. -/
@[simp] theorem safe_rejected : Safe (.error .rejected : Checked α) := fun _ h ↦ by cases h

/-- A fault is not safe. -/
@[simp] theorem not_safe_fault (fault : Fault) : ¬Safe (.error (.fault fault) : Checked α) :=
  fun h ↦ h fault rfl

/-- A composition is safe when its first part is, and its second part after each value of the
first. -/
theorem safe_bind {c : Checked α} {f : α → Checked β} :
    Safe (c >>= f) ↔ Safe c ∧ ∀ a, c = .ok a → Safe (f a) := by
  cases c with
  | ok a =>
    constructor
    · intro h
      refine ⟨safe_ok a, ?_⟩
      intro b hb
      cases hb
      exact h
    · intro h
      exact h.2 a rfl
  | error stop =>
    constructor
    · intro h
      refine ⟨?_, fun a ha ↦ by cases ha⟩
      intro fault hf
      cases hf
      exact h fault rfl
    · intro h fault hf
      cases stop with
      | rejected => cases hf
      | fault f =>
        cases hf
        exact h.1 fault rfl

/-- `pure` ends well. -/
@[simp] theorem pure_eq (a : α) : (pure a : Checked α) = .ok a := rfl

/-- Composition of a computation that has ended well. -/
@[simp] theorem ok_bind (a : α) (f : α → Checked β) :
    (Except.ok a : Checked α) >>= f = f a := rfl

/-- A computation that has ended early stays so. -/
@[simp] theorem error_bind (stop : Stop) (f : α → Checked β) :
    (Except.error stop : Checked α) >>= f = .error stop := rfl

/-- Reading through a pointer that is set. -/
@[simp] theorem deref_some (a : α) : deref (some a) = .ok a := rfl

/-- Reading inside the buffer. -/
theorem readAt_of_lt {data : List α} {i : Nat} (h : i < data.length) :
    readAt data i = .ok data[i] := by
  rw [readAt, List.getElem?_eq_getElem h]

/-- Writing inside the buffer. -/
theorem writeAt_of_lt {data : List α} {i : Nat} (h : i < data.length) (a : α) :
    writeAt data i a = .ok (data.set i a) := if_pos h

/-- A copy that fits. -/
theorem copyInto_of_le {target source : List α} (h : source.length ≤ target.length) :
    copyInto target source = .ok (source ++ target.drop source.length) := if_pos h

/-- A copy that does not fit. -/
theorem copyInto_of_lt {target source : List α} (h : target.length < source.length) :
    copyInto target source = .error (.fault .bufferOverrun) := if_neg (Nat.not_le.mpr h)

/-- A test that holds lets the computation go on. -/
@[simp] theorem require_true : require true = .ok () := rfl

/-- A test that fails refuses. -/
@[simp] theorem require_false : require false = .error .rejected := rfl

/-- A step that does not refuse. -/
@[simp] theorem orReject_some (a : α) : orReject (some a) = .ok a := rfl

/-- A step that refuses. -/
@[simp] theorem orReject_none : orReject (none : Option α) = .error .rejected := rfl

/-- A test never faults. -/
@[simp] theorem safe_require (b : Bool) : Safe (require b) := by
  cases b with
  | true => exact safe_ok ()
  | false => exact safe_rejected

/-- A step that may refuse never faults. -/
@[simp] theorem safe_orReject (o : Option α) : Safe (orReject o) := by
  cases o with
  | some a => exact safe_ok a
  | none => exact safe_rejected

/-- A test that was passed. -/
theorem require_eq_ok {b : Bool} {u : Unit} : require b = .ok u ↔ b = true := by
  cases b with
  | true => exact ⟨fun _ ↦ rfl, fun _ ↦ rfl⟩
  | false => exact ⟨fun h ↦ (by cases h), fun h ↦ (by cases h)⟩

/-- A step that did not refuse. -/
theorem orReject_eq_ok {o : Option α} {a : α} : orReject o = .ok a ↔ o = some a := by
  cases o with
  | some b =>
    constructor
    · intro h
      cases h
      rfl
    · intro h
      cases h
      rfl
  | none => exact ⟨fun h ↦ (by cases h), fun h ↦ (by cases h)⟩

/-! ## Loops -/

/-- A loop without rounds. -/
@[simp] theorem forRange_zero (body : Nat → σ → Checked σ) (s : σ) :
    forRange 0 body s = .ok s := rfl

/-- The last round of a loop comes after the rounds before it. -/
theorem forRange_succ (n : Nat) (body : Nat → σ → Checked σ) (s : σ) :
    forRange (n + 1) body s = forRange n body s >>= body n := rfl

/-- Total invariant rule: rounds that keep the invariant and end well make a loop that does. -/
theorem forRange_total {body : Nat → σ → Checked σ} {I : Nat → σ → Prop} {n : Nat}
    (hstep : ∀ i s, i < n → I i s → ∃ s', body i s = .ok s' ∧ I (i + 1) s')
    {s : σ} (hs : I 0 s) : ∃ s', forRange n body s = .ok s' ∧ I n s' := by
  induction n with
  | zero => exact ⟨s, rfl, hs⟩
  | succ n ih =>
    have hn : ∃ s', forRange n body s = .ok s' ∧ I n s' :=
      ih fun i s hi hI ↦ hstep i s (Nat.lt_succ_of_lt hi) hI
    obtain ⟨t, ht, hI⟩ := hn
    obtain ⟨u, hu, hJ⟩ := hstep n t (Nat.lt_succ_self n) hI
    refine ⟨u, ?_, hJ⟩
    rw [forRange_succ, ht]
    exact hu

/-- Partial invariant rule: rounds that do not end in a bad way under the invariant, and keep it
when they end well, make a loop that does not end in a bad way. -/
theorem forRange_avoids (bad : Stop → Prop) {body : Nat → σ → Checked σ} {I : Nat → σ → Prop}
    {n : Nat}
    (hstep : ∀ i s, i < n → I i s →
      (∀ stop, body i s = .error stop → ¬bad stop) ∧ ∀ s', body i s = .ok s' → I (i + 1) s')
    {s : σ} (hs : I 0 s) :
    (∀ stop, forRange n body s = .error stop → ¬bad stop) ∧
      ∀ s', forRange n body s = .ok s' → I n s' := by
  induction n with
  | zero =>
    refine ⟨fun _ h ↦ (by cases h), ?_⟩
    intro s' h
    cases h
    exact hs
  | succ n ih =>
    have hn := ih fun i s hi hI ↦ hstep i s (Nat.lt_succ_of_lt hi) hI
    rw [forRange_succ]
    cases hrun : forRange n body s with
    | error stop =>
      constructor
      · intro stop' h
        cases h
        exact hn.1 stop hrun
      · intro s' h
        cases h
    | ok t => exact hstep n t (Nat.lt_succ_self n) (hn.2 t hrun)

/-- Safety rule: rounds that are safe under the invariant, and keep it when they end well, make a
safe loop. -/
theorem forRange_safe {body : Nat → σ → Checked σ} {I : Nat → σ → Prop} {n : Nat}
    (hstep : ∀ i s, i < n → I i s → Safe (body i s) ∧ ∀ s', body i s = .ok s' → I (i + 1) s')
    {s : σ} (hs : I 0 s) :
    Safe (forRange n body s) ∧ ∀ s', forRange n body s = .ok s' → I n s' := by
  have hsafe : ∀ {c : Checked σ},
      (∀ stop, c = .error stop → ¬∃ fault, stop = .fault fault) ↔ Safe c := by
    intro c
    constructor
    · intro h fault hc
      exact h _ hc ⟨fault, rfl⟩
    · rintro h stop hc ⟨fault, rfl⟩
      exact h fault hc
  have hloop := forRange_avoids (fun stop ↦ ∃ fault, stop = .fault fault)
    (fun i s hi hI ↦ ⟨hsafe.mpr (hstep i s hi hI).1, (hstep i s hi hI).2⟩) hs
  exact ⟨hsafe.mp hloop.1, hloop.2⟩

/-- A loop cannot outlive a first round that ends early. -/
theorem forRange_error {body : Nat → σ → Checked σ} {n : Nat} {s : σ} {stop : Stop}
    (hn : 0 < n) (h : body 0 s = .error stop) : forRange n body s = .error stop := by
  induction n with
  | zero => exact absurd hn (Nat.lt_irrefl 0)
  | succ n ih =>
    rw [forRange_succ]
    cases n with
    | zero => exact h
    | succ n =>
      rw [ih (Nat.succ_pos n)]
      rfl

end Checked

end NetBridge.Base
