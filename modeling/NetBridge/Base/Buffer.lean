/-!
# Buffers

First-in first-out buffers over any values, by the record of what happened to them: a value
enters at the back, is refused, leaves at the front, or enters in place of the oldest one. The
record accounts for every value that entered.
-/

namespace NetBridge.Base

variable {α : Type}

/-- What happens to a buffer. -/
inductive BufferEvent (α : Type) where
  | entered (value : α)
  | refused (value : α)
  | left (value : α)
  /-- The oldest value was evicted and another one entered. -/
  | replaced (oldest value : α)
deriving DecidableEq

/-- What has become of a value that entered. -/
inductive Fate where
  | left
  | evicted
  | waiting
deriving DecidableEq

namespace BufferEvent

/-- The value that the event lets in, if any. -/
@[simp] def enters : BufferEvent α → List α
  | entered value => [value]
  | replaced _ value => [value]
  | _ => []

/-- The value that leaves with the event, if any. -/
@[simp] def leaves : BufferEvent α → List α
  | left value => [value]
  | _ => []

/-- The value that the event evicts, if any. -/
@[simp] def evicts : BufferEvent α → List α
  | replaced oldest _ => [oldest]
  | _ => []

/-- The value that is gone after the event, if any, and how it went. -/
@[simp] def gone : BufferEvent α → List (α × Fate)
  | left value => [(value, .left)]
  | replaced oldest _ => [(oldest, .evicted)]
  | _ => []

end BufferEvent

/-- A record leads from an empty buffer to these contents, the oldest value first. -/
inductive Buffered : List (BufferEvent α) → List α → Prop where
  | empty : Buffered [] []
  | enter {record : List (BufferEvent α)} {contents : List α} (value : α) :
      Buffered record contents → Buffered (record ++ [.entered value]) (contents ++ [value])
  | refuse {record : List (BufferEvent α)} {contents : List α} (value : α) :
      Buffered record contents → Buffered (record ++ [.refused value]) contents
  | leave {record : List (BufferEvent α)} {value : α} {contents : List α} :
      Buffered record (value :: contents) → Buffered (record ++ [.left value]) contents
  | replace {record : List (BufferEvent α)} {oldest : α} {contents : List α} (value : α) :
      Buffered record (oldest :: contents) →
        Buffered (record ++ [.replaced oldest value]) (contents ++ [value])

/-- The fates of all values that entered, in the order in which they did. -/
def fates (record : List (BufferEvent α)) (contents : List α) : List (α × Fate) :=
  record.flatMap BufferEvent.gone ++ contents.map fun value ↦ (value, .waiting)

/-- The values of a fate. -/
def withFate (fate : Fate) (values : List (α × Fate)) : List α :=
  (values.filter fun value ↦ value.2 = fate).map Prod.fst

/-- The values with a fate, of two runs of pushes. -/
@[simp] theorem withFate_append (fate : Fate) (values values' : List (α × Fate)) :
    withFate fate (values ++ values') = withFate fate values ++ withFate fate values' := by
  simp [withFate]

@[simp] private theorem withFate_waiting (fate : Fate) (contents : List α) :
    withFate fate (contents.map fun value ↦ (value, .waiting)) =
      if fate = .waiting then contents else [] := by
  cases fate with
  | left | evicted => simp [withFate]
  | waiting => induction contents <;> simp_all [withFate]

private theorem withFate_gone {fate : Fate} {f : BufferEvent α → List α}
    (h : ∀ event : BufferEvent α, withFate fate event.gone = f event)
    (record : List (BufferEvent α)) :
    withFate fate (record.flatMap BufferEvent.gone) = record.flatMap f := by
  induction record with
  | nil => rfl
  | cons event record ih =>
    rw [List.flatMap_cons, List.flatMap_cons, withFate_append, ih, h]

/-- The values that left. -/
theorem withFate_left (record : List (BufferEvent α)) (contents : List α) :
    withFate .left (fates record contents) = record.flatMap BufferEvent.leaves := by
  rw [fates, withFate_append, withFate_waiting, if_neg (by decide), List.append_nil]
  apply withFate_gone
  intro event
  cases event <;> simp [withFate]

/-- The values that were evicted. -/
theorem withFate_evicted (record : List (BufferEvent α)) (contents : List α) :
    withFate .evicted (fates record contents) = record.flatMap BufferEvent.evicts := by
  rw [fates, withFate_append, withFate_waiting, if_neg (by decide), List.append_nil]
  apply withFate_gone
  intro event
  cases event <;> simp [withFate]

/-- The values that wait are the contents. -/
theorem withFate_contents (record : List (BufferEvent α)) (contents : List α) :
    withFate .waiting (fates record contents) = contents := by
  have hgone : withFate .waiting (record.flatMap BufferEvent.gone) =
      record.flatMap fun _ ↦ [] := by
    apply withFate_gone
    intro event
    cases event <;> simp [withFate]
  rw [fates, withFate_append, withFate_waiting, if_pos rfl, hgone]
  simp

namespace Buffered

variable {record : List (BufferEvent α)} {contents : List α}

/-- Every value that entered has one fate. -/
theorem map_fates (h : Buffered record contents) :
    (fates record contents).map Prod.fst = record.flatMap BufferEvent.enters := by
  induction h with
  | empty => rfl
  | refuse | leave => simp_all [fates, Function.comp_def]
  | enter value _ ih | replace value _ ih =>
    rw [List.flatMap_append, ← ih]
    simp [fates, Function.comp_def]

/-- Values leave in the order in which they entered. -/
theorem leaves_sublist (h : Buffered record contents) :
    (record.flatMap BufferEvent.leaves).Sublist (record.flatMap BufferEvent.enters) := by
  rw [← h.map_fates, ← withFate_left record contents]
  exact (List.filter_sublist).map Prod.fst

/-- Without evictions, what entered is what left and the contents behind it. -/
theorem enters_eq (h : Buffered record contents)
    (hkeeps : record.flatMap BufferEvent.evicts = []) :
    record.flatMap BufferEvent.enters = record.flatMap BufferEvent.leaves ++ contents := by
  induction h with
  | empty => rfl
  | enter | refuse | leave | replace => simp_all

/-- Every value that entered has left, was evicted or waits. -/
theorem length_enters (h : Buffered record contents) :
    (record.flatMap BufferEvent.enters).length = (record.flatMap BufferEvent.leaves).length +
      (record.flatMap BufferEvent.evicts).length + contents.length := by
  induction h with
  | empty => rfl
  | enter | refuse | leave | replace => simp_all; try omega

/-- The last value that entered waits or has left: an eviction makes room for another one. -/
theorem newest (h : Buffered record contents) {value : α × Fate}
    (hlast : (fates record contents).getLast? = some value) : value.2 ≠ .evicted := by
  induction h with
  | empty => simp [fates] at hlast
  | enter | replace =>
    simp only [fates, List.map_append, List.map_cons, List.map_nil, ← List.append_assoc,
      List.getLast?_concat, Option.some.injEq] at hlast
    simp [← hlast]
  | refuse _ _ ih => exact ih (by simpa [fates] using hlast)
  | @leave _ oldest contents _ ih =>
    cases contents with
    | nil =>
      have hleft : (oldest, Fate.left) = value := by simpa [fates] using hlast
      simp [← hleft]
    | cons next contents => exact ih (by simpa [fates] using hlast)

end Buffered

end NetBridge.Base
