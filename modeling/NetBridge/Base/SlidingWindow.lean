import Mathlib.Data.List.Induction

/-!
# Sliding windows

A queue of entries from which each event drops the expired entries in front, before it adds an
entry of its own. It holds the entries that no event since has found expired exactly as long as
expired entries stand in front of the others.
-/

namespace NetBridge.Base

variable {α τ : Type*}

/-- Dropping from the front is filtering exactly if what is dropped stands in front. -/
theorem dropWhile_eq_filter_iff (p : α → Bool) (xs : List α) :
    xs.dropWhile p = xs.filter (fun x ↦ !p x) ↔
      xs.Pairwise fun x y ↦ p y = true → p x = true := by
  induction xs with
  | nil => simp
  | cons x xs ih =>
    rw [List.pairwise_cons]
    cases hx : p x with
    | true => simp [hx, ih]
    | false =>
      rw [List.dropWhile_cons_of_neg (by simp [hx]), List.filter_cons_of_pos (by simp [hx])]
      constructor
      · intro hall
        have hnot : ∀ y ∈ xs, p y = false := by
          intro y hm
          have hy := List.filter_eq_self.mp (List.cons_inj_right x |>.mp hall).symm y hm
          simpa using hy
        refine ⟨fun y hm hy ↦ absurd hy (by simp [hnot y hm]), ?_⟩
        exact List.pairwise_of_forall_mem_list fun y _ z hz hpz ↦ absurd hpz (by simp [hnot z hz])
      · rintro ⟨hnot, -⟩
        rw [List.filter_eq_self.mpr]
        intro y hm
        cases hy : p y with
        | true => exact absurd (hnot y hm hy) (by simp)
        | false => rfl

/-- The window after a list of events, each with its time and the entry that it adds. -/
def slide (expired : τ → α → Bool) (events : List (τ × Option α)) : List α :=
  events.foldl (fun window event ↦ window.dropWhile (expired event.1) ++ event.2.toList) []

/-- The entries that no event since has found expired. -/
def retained (expired : τ → α → Bool) : List (τ × Option α) → List α
  | [] => []
  | (_, entry) :: events =>
    (entry.toList.filter fun entry ↦ events.all fun event ↦ !expired event.1 entry) ++
      retained expired events

variable {expired : τ → α → Bool}

/-- One more event drops what has expired in front, and enters. -/
theorem slide_concat (events : List (τ × Option α)) (event : τ × Option α) :
    slide expired (events ++ [event]) =
      (slide expired events).dropWhile (expired event.1) ++ event.2.toList := by
  simp [slide]

/-- One more event removes all that has expired, and enters. -/
theorem retained_concat (events : List (τ × Option α)) (event : τ × Option α) :
    retained expired (events ++ [event]) =
      (retained expired events).filter (fun entry ↦ !expired event.1 entry) ++
        event.2.toList := by
  induction events with
  | nil => simp [retained]
  | cons first events ih =>
    rw [List.cons_append, retained, ih, retained, List.filter_append, List.filter_filter,
      List.append_assoc]
    congr 2
    funext entry
    simp [List.all_append, Bool.and_comm]

/-- The window holds the retained entries after every event exactly if at each event the expired
entries stand in front. -/
theorem slide_eq_retained_iff {β : Type*} (expired : τ → α → Bool) (event : β → τ × Option α)
    (calls : List β) :
    (∀ front, front <+: calls →
      slide expired (front.map event) = retained expired (front.map event)) ↔
      ∀ front call rest, calls = front ++ call :: rest →
        (slide expired (front.map event)).Pairwise fun entry next ↦
          expired (event call).1 next = true → expired (event call).1 entry = true := by
  constructor
  · rintro hslide front call rest rfl
    have hfront := hslide front (List.prefix_append front _)
    have hnext := hslide (front ++ [call]) ⟨rest, by simp⟩
    rw [List.map_append, List.map_singleton, slide_concat, retained_concat, ← hfront] at hnext
    exact (dropWhile_eq_filter_iff _ _).mp (List.append_cancel_right hnext)
  · intro hordered front
    induction front using List.reverseRecOn with
    | nil => exact fun _ ↦ rfl
    | append_singleton front call ih =>
      rintro ⟨rest, hcalls⟩
      have hfront := ih ⟨call :: rest, by rw [← hcalls]; simp⟩
      have hpairwise := hordered front call rest (by rw [← hcalls]; simp)
      rw [List.map_append, List.map_singleton, slide_concat, retained_concat,
        (dropWhile_eq_filter_iff _ _).mpr hpairwise, hfront]

/-- The window only holds entries of the events, in their order. -/
theorem slide_sublist (events : List (τ × Option α)) :
    (slide expired events).Sublist (events.filterMap Prod.snd) := by
  induction events using List.reverseRecOn with
  | nil => exact List.Sublist.slnil
  | append_singleton events event ih =>
    rw [slide_concat, List.filterMap_append]
    apply ((List.dropWhile_sublist _).trans ih).append
    cases hentry : event.2 <;> simp [hentry]

end NetBridge.Base
