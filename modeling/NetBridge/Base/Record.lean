import Mathlib.Data.List.Basic

/-!
# Records that grow

Lists to which a run appends, and whose entries it replaces one at a time: what an extension keeps,
and what the replacement of an entry changes.
-/

namespace NetBridge.Base

variable {α : Type}

/-- An extension keeps every entry. -/
theorem getElem?_of_prefix {xs ys : List α} (h : xs <+: ys) {i : Nat} {a : α}
    (ha : xs[i]? = some a) : ys[i]? = some a := by
  rcases h with ⟨rest, rfl⟩
  rw [List.getElem?_append_left (List.getElem?_eq_some_iff.mp ha).1]
  exact ha

/-- The entries of a longer record are the old ones and the new one. -/
theorem getElem?_concat_eq_some {xs : List α} {a b : α} {i : Nat} :
    (xs ++ [a])[i]? = some b ↔ xs[i]? = some b ∨ i = xs.length ∧ b = a := by
  constructor
  · intro h
    rcases Nat.lt_trichotomy i xs.length with hlt | rfl | hgt
    · rw [List.getElem?_append_left hlt] at h
      exact Or.inl h
    · rw [List.getElem?_concat_length] at h
      exact Or.inr ⟨rfl, (Option.some.inj h).symm⟩
    · have hlt := (List.getElem?_eq_some_iff.mp h).1
      rw [List.length_append, List.length_singleton] at hlt
      omega
  · rintro (h | ⟨rfl, rfl⟩)
    · exact getElem?_of_prefix (List.prefix_append xs [a]) h
    · exact List.getElem?_concat_length

/-- The entries after the replacement of one of them. -/
theorem getElem?_set_eq_some {xs : List α} {a b c : α} {i j : Nat} (ha : xs[i]? = some a) :
    (xs.set i b)[j]? = some c ↔ j = i ∧ c = b ∨ j ≠ i ∧ xs[j]? = some c := by
  have hlt := (List.getElem?_eq_some_iff.mp ha).1
  rw [List.getElem?_set]
  by_cases hj : i = j
  · rw [if_pos hj, if_pos hlt]
    constructor
    · intro h
      exact Or.inl ⟨hj.symm, (Option.some.inj h).symm⟩
    · rintro (⟨-, rfl⟩ | ⟨hne, -⟩)
      · rfl
      · exact absurd hj.symm hne
  · rw [if_neg hj]
    constructor
    · exact fun h ↦ Or.inr ⟨Ne.symm hj, h⟩
    · rintro (⟨rfl, -⟩ | ⟨-, h⟩)
      · exact absurd rfl hj
      · exact h

/-- The entries of a kind after the replacement of one of them. -/
theorem countP_set_add {p : α → Bool} {xs : List α} {a b : α} {i : Nat} (ha : xs[i]? = some a) :
    (xs.set i b).countP p + (if p a then 1 else 0) = xs.countP p + if p b then 1 else 0 := by
  induction xs generalizing i with
  | nil => cases ha
  | cons x xs ih =>
    cases i with
    | zero =>
      cases ha
      simp only [List.set_cons_zero, List.countP_cons]
      omega
    | succ i =>
      have hrest := ih (i := i) ha
      simp only [List.set_cons_succ, List.countP_cons]
      omega

end NetBridge.Base
