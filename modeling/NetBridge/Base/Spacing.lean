import Mathlib.Algebra.Order.Field.Basic
import Mathlib.Algebra.Order.Floor.Semiring
import Mathlib.Data.List.Chain
import Mathlib.Tactic.Linarith

/-!
# Spaced elements of a list

Of a list of timed elements, the ones taken greedily so that each lies at least a gap behind the one
before. They are spaced, a window holds a bounded number of spaced elements, and where the times do
not decrease no other spaced sublist is longer.
-/

namespace NetBridge.Base

variable {α K : Type*}

section Spaced

variable [AddCommGroup K] [LinearOrder K]

/-- Each time lies at least a gap behind the one before. -/
def Spaced (gap : K) (times : List K) : Prop := times.IsChain fun last time ↦ gap ≤ time - last

/-- The elements that lie at least a gap behind the last one taken. -/
def takeSpaced (gap : K) (time : α → K) : Option K → List α → List α
  | _, [] => []
  | none, x :: xs => x :: takeSpaced gap time (some (time x)) xs
  | some last, x :: xs =>
    if gap ≤ time x - last then x :: takeSpaced gap time (some (time x)) xs
    else takeSpaced gap time (some last) xs

variable {gap : K} {time : α → K}

/-- What is taken behind an admitted element keeps the gap. -/
theorem spaced_takeSpaced_some (last : K) (xs : List α) :
    Spaced gap (last :: (takeSpaced gap time (some last) xs).map time) := by
  induction xs generalizing last with
  | nil => exact List.isChain_singleton last
  | cons x xs ih =>
    unfold takeSpaced
    split
    · next hgap => exact List.isChain_cons_cons.mpr ⟨hgap, ih (time x)⟩
    · exact ih last

/-- The elements taken are spaced. -/
theorem spaced_takeSpaced (xs : List α) : Spaced gap ((takeSpaced gap time none xs).map time) := by
  cases xs with
  | nil => exact List.isChain_nil
  | cons x xs => exact spaced_takeSpaced_some (time x) xs

variable [IsOrderedAddMonoid K]

private theorem length_le_takeSpaced_some {xs ys : List α} {u v : K} (hle : u ≤ v)
    (hsub : ys.Sublist xs) (hsorted : xs.Pairwise fun x y ↦ time x ≤ time y)
    (hspaced : Spaced gap (v :: ys.map time)) :
    ys.length ≤ (takeSpaced gap time (some u) xs).length := by
  induction xs generalizing ys u v with
  | nil =>
    rw [List.sublist_nil.mp hsub]
    exact Nat.zero_le _
  | cons x xs ih =>
    rw [List.pairwise_cons] at hsorted
    unfold takeSpaced
    cases hsub with
    | cons _ hsub =>
      split
      · cases ys with
        | nil => exact Nat.zero_le _
        | cons y ys =>
          -- The greedy choice is one element ahead, and not later than `y`.
          have hxy : time x ≤ time y := hsorted.1 y (hsub.subset List.mem_cons_self)
          have hrest := ih hxy ((List.sublist_cons_self y ys).trans hsub) hsorted.2
            (List.isChain_cons_cons.mp hspaced).2
          exact Nat.succ_le_succ hrest
      · exact ih hle hsub hsorted.2 hspaced
    | cons_cons _ hsub =>
      rcases List.isChain_cons_cons.mp hspaced with ⟨hgap, hspaced⟩
      rw [if_pos (le_trans hgap (sub_le_sub_left hle (time x)))]
      exact Nat.succ_le_succ (ih le_rfl hsub hsorted.2 hspaced)

/-- Where the times do not decrease, no spaced sublist is longer than the greedy one. -/
theorem length_le_takeSpaced {xs ys : List α} (hsub : ys.Sublist xs)
    (hsorted : xs.Pairwise fun x y ↦ time x ≤ time y) (hspaced : Spaced gap (ys.map time)) :
    ys.length ≤ (takeSpaced gap time none xs).length := by
  cases xs with
  | nil =>
    rw [List.sublist_nil.mp hsub]
    exact Nat.zero_le _
  | cons x xs =>
    rw [List.pairwise_cons] at hsorted
    cases ys with
    | nil => exact Nat.zero_le _
    | cons y ys =>
      have hrest : ys.Sublist xs := hsub.tail
      have hxy : time x ≤ time y := by
        rcases List.mem_cons.mp (hsub.subset List.mem_cons_self) with rfl | hmem
        · exact le_rfl
        · exact hsorted.1 y hmem
      exact Nat.succ_le_succ (length_le_takeSpaced_some hxy hrest hsorted.2 hspaced)

/-- With a gap that is not negative, a part of spaced times is spaced. -/
theorem Spaced.sublist (hgap : 0 ≤ gap) {times part : List K} (h : Spaced gap times)
    (hsub : part.Sublist times) : Spaced gap part := by
  have htrans : ∀ {u v w : K}, gap ≤ v - u → gap ≤ w - v → gap ≤ w - u := by
    intro u v w huv hvw
    calc gap ≤ gap + gap := le_add_of_nonneg_left hgap
      _ ≤ (w - v) + (v - u) := add_le_add hvw huv
      _ = w - u := sub_add_sub_cancel w v u
  have : Trans (fun u v : K ↦ gap ≤ v - u) (fun u v ↦ gap ≤ v - u) (fun u v ↦ gap ≤ v - u) :=
    ⟨htrans⟩
  exact List.IsChain.sublist h hsub

/-- Spaced times after the first span at least their number of gaps. -/
theorem Spaced.length_nsmul_le {first : K} {times : List K} (h : Spaced gap (first :: times)) :
    times.length • gap ≤ times.getLastD first - first := by
  induction times generalizing first with
  | nil => simp
  | cons time times ih =>
    rcases List.isChain_cons_cons.mp h with ⟨hgap, h⟩
    rw [List.getLastD_cons, List.length_cons, succ_nsmul]
    calc times.length • gap + gap ≤ (times.getLastD time - time) + (time - first) :=
          add_le_add (ih h) hgap
      _ = times.getLastD time - first := sub_add_sub_cancel _ _ _

end Spaced

/-- A closed window of a length holds at most the gaps of the length, and one, of spaced times. -/
theorem Spaced.length_window_le [Field K] [LinearOrder K] [IsStrictOrderedRing K] [FloorSemiring K]
    {gap : K} {times : List K} (hgap : 0 < gap) (h : Spaced gap times) (start length : K) :
    (times.filter fun time ↦ start ≤ time ∧ time ≤ start + length).length ≤
      ⌊length / gap⌋₊ + 1 := by
  have hspaced := h.sublist hgap.le (List.filter_sublist
    (p := fun time ↦ decide (start ≤ time ∧ time ≤ start + length)))
  have hin : ∀ time ∈ times.filter fun time ↦ start ≤ time ∧ time ≤ start + length,
      start ≤ time ∧ time ≤ start + length := fun time hm ↦
    of_decide_eq_true (List.mem_filter.mp hm).2
  cases hwindow : times.filter fun time ↦ start ≤ time ∧ time ≤ start + length with
  | nil => exact Nat.zero_le _
  | cons first rest =>
    rw [hwindow] at hspaced hin
    have hspan := hspaced.length_nsmul_le
    have hfirst := (hin first List.mem_cons_self).1
    have hlast := (hin (rest.getLastD first) (by
      rw [← List.getLast_eq_getLastD (List.cons_ne_nil first rest)]
      exact List.getLast_mem _)).2
    rw [nsmul_eq_mul] at hspan
    apply Nat.succ_le_succ
    apply Nat.le_floor
    rw [le_div_iff₀ hgap]
    linarith

end NetBridge.Base
