import Mathlib.Data.List.DropRight
import Mathlib.Order.MinMax

/-!
# Series of recent values

Bounded series that grow at their end, and how they are laid over one another from there: the last
value of one on the last value of the other.
-/

namespace NetBridge.Base

variable {α γ : Type}

/-! ## Bounded series -/

/-- Reading the last values of a series backwards. -/
theorem reverse_rtake (n : Nat) (series : List α) :
    (series.rtake n).reverse = series.reverse.take n := by
  rw [List.rtake_eq_reverse_take_reverse, List.reverse_reverse]

/-- Keeping `n` values before a value is added and after it is keeping `n` values after it. -/
theorem rtake_concat_rtake (n : Nat) (series : List α) (value : α) :
    (series.rtake n ++ [value]).rtake n = (series ++ [value]).rtake n := by
  apply List.reverse_injective
  rw [reverse_rtake, reverse_rtake, List.reverse_concat, List.reverse_concat, reverse_rtake]
  cases n with
  | zero => rfl
  | succ n =>
    rw [List.take_succ_cons, List.take_succ_cons, List.take_take, Nat.min_eq_left (Nat.le_succ n)]

/-- How many values are kept. -/
theorem length_rtake (n : Nat) (series : List α) :
    (series.rtake n).length = min n series.length := by
  rw [← List.length_reverse, reverse_rtake, List.length_take, List.length_reverse]

/-- The values that some of the rounds add are in step with the rounds, as far back as each of the
rounds adds one. -/
theorem getElem?_filterMap_of_isSome {f : γ → Option α} {rounds : List γ} {m j : Nat}
    (h : ∀ round ∈ rounds.take m, (f round).isSome) (hj : j < m) :
    (rounds.filterMap f)[j]? = rounds[j]?.bind f := by
  induction rounds generalizing m j with
  | nil => rfl
  | cons round rounds ih =>
    cases m with
    | zero => exact absurd hj (Nat.not_lt_zero j)
    | succ m =>
      rw [List.take_succ_cons, List.forall_mem_cons] at h
      obtain ⟨value, hvalue⟩ := Option.isSome_iff_exists.mp h.1
      rw [List.filterMap_cons_some hvalue]
      cases j with
      | zero => exact hvalue.symm
      | succ j => exact ih h.2 (Nat.lt_of_succ_lt_succ hj)

/-- A value among the last ones has fewer values behind it. -/
theorem exists_split_of_mem_take_reverse {values : List α} {n : Nat} {a : α}
    (h : a ∈ values.reverse.take n) :
    ∃ before recent, values = before ++ a :: recent ∧ recent.length < n := by
  obtain ⟨recent, rest, htake⟩ := List.append_of_mem h
  have hshort := List.length_take_le n values.reverse
  have hall := List.take_append_drop n values.reverse
  rw [htake] at hshort hall
  refine ⟨(rest ++ values.reverse.drop n).reverse, recent.reverse, ?_, ?_⟩
  · rw [← values.reverse_reverse]
    nth_rewrite 1 [← hall]
    simp
  · rw [List.length_append, List.length_cons] at hshort
    rw [List.length_reverse]
    omega

/-! ## Values that are kept for what comes behind them -/

/-- The values that pass a test of themselves and of the values behind them. -/
def selectBehind (test : α → List α → Bool) : List α → List α
  | [] => []
  | a :: behind =>
    if test a behind then a :: selectBehind test behind else selectBehind test behind

/-- A value in front is among the last ones if the others leave room for it. -/
theorem rtake_cons (n : Nat) (a : α) (values : List α) :
    (a :: values).rtake n = if values.length < n then a :: values else values.rtake n := by
  unfold List.rtake
  rw [List.length_cons]
  split
  · next hroom =>
    have hall : values.length + 1 - n = 0 := by omega
    rw [hall, List.drop_zero]
  · next hfull =>
    have hskip : values.length + 1 - n = values.length - n + 1 := by omega
    rw [hskip, List.drop_succ_cons]

/-- The last of those values that pass a filter, among the last values of a series. -/
theorem rtake_filter_rtake (p : α → Bool) (m n : Nat) (values : List α) :
    ((values.rtake m).filter p).rtake n = selectBehind (fun a behind ↦
      decide (behind.length < m) && p a && decide (behind.countP p < n)) values := by
  induction values with
  | nil => rw [List.rtake_nil, List.filter_nil, List.rtake_nil, selectBehind]
  | cons a behind ih =>
    rw [rtake_cons, selectBehind, ← ih]
    by_cases hroom : behind.length < m
    · have hall : behind.rtake m = behind := by
        unfold List.rtake
        rw [Nat.sub_eq_zero_of_le (Nat.le_of_lt hroom), List.drop_zero]
      rw [if_pos hroom, decide_eq_true hroom, Bool.true_and, hall]
      by_cases hp : p a = true
      · rw [List.filter_cons_of_pos hp, rtake_cons, hp, Bool.true_and, List.countP_eq_length_filter]
        by_cases hfits : (behind.filter p).length < n
        · have hkept : (behind.filter p).rtake n = behind.filter p := by
            unfold List.rtake
            rw [Nat.sub_eq_zero_of_le (Nat.le_of_lt hfits), List.drop_zero]
          rw [if_pos hfits, if_pos (decide_eq_true hfits), hkept]
        · rw [if_neg hfits, if_neg (by simpa using hfits)]
      · rw [List.filter_cons_of_neg hp, Bool.eq_false_of_not_eq_true hp, Bool.false_and,
          if_neg Bool.false_ne_true]
    · rw [if_neg hroom, decide_eq_false hroom, Bool.false_and, Bool.false_and,
        if_neg Bool.false_ne_true]

/-! ## The greatest value -/

/-- The maximum of a linear order, as lists take it. -/
instance lawfulOrderMax_of_linearOrder [LinearOrder α] : Std.LawfulOrderMax α where
  max_eq_or := max_choice
  max_le_iff _ _ _ := max_le_iff

/-- The order of values does not matter to the greatest one. -/
theorem max?_eq_of_perm [LinearOrder α] {values values' : List α} (h : values.Perm values') :
    values.max? = values'.max? := by
  ext greatest
  simp only [List.max?_eq_some_iff, h.mem_iff]

/-! ## Overlays -/

/-- Combines each value of a series with the one of another as far from its end; what the other
does not reach is left alone. -/
def overlay (combine : α → α → α) (series other : List α) : List α :=
  let overlap := min series.length other.length
  series.take (series.length - overlap) ++
    List.zipWith combine (series.drop (series.length - overlap))
      (other.drop (other.length - overlap))

/-- An overlay is as long as the first series. -/
theorem length_overlay (combine : α → α → α) (series other : List α) :
    (overlay combine series other).length = series.length := by
  simp only [overlay, List.length_append, List.length_take, List.length_zipWith,
    List.length_drop]
  omega

/-- Series of one length are combined value by value. -/
theorem overlay_of_length_eq {combine : α → α → α} {series other : List α}
    (h : series.length = other.length) :
    overlay combine series other = List.zipWith combine series other := by
  simp [overlay, h]

/-- A series stays as long as it was under any overlays. -/
theorem length_foldl_overlay (combine : α → α → α) (series : List α) (others : List (List α)) :
    (others.foldl (overlay combine) series).length = series.length := by
  induction others generalizing series with
  | nil => rfl
  | cons other others ih => rw [List.foldl_cons, ih, length_overlay]

/-- At each position series of one length leave the greatest of their values. -/
theorem getElem?_foldl_overlay_max [LinearOrder α] {series : List α} {others : List (List α)}
    (h : ∀ other ∈ others, other.length = series.length) (i : Nat) :
    (others.foldl (overlay max) series)[i]? =
      ((series :: others).filterMap fun other ↦ other[i]?).max? := by
  induction others generalizing series with
  | nil =>
    cases hi : series[i]? with
    | none => simp [hi]
    | some value => simp [hi]
  | cons other others ih =>
    rw [List.forall_mem_cons] at h
    have hlength : (overlay max series other).length = series.length := length_overlay ..
    rw [List.foldl_cons, ih (by simpa only [hlength] using h.2), overlay_of_length_eq h.1.symm]
    by_cases hi : i < series.length
    · have hs : series[i]? = some series[i] := List.getElem?_eq_getElem hi
      have ho : other[i]? = some other[i] := List.getElem?_eq_getElem (by omega)
      have hzip : (List.zipWith max series other)[i]? = some (max series[i] other[i]) := by
        rw [List.getElem?_zipWith, hs, ho]
      simp only [List.filterMap_cons, hzip, hs, ho, List.max?_cons', List.foldl_cons]
    · have hs : series[i]? = none := List.getElem?_eq_none_iff.mpr (by omega)
      have ho : other[i]? = none := List.getElem?_eq_none_iff.mpr (by omega)
      have hzip : (List.zipWith max series other)[i]? = none := by
        rw [List.getElem?_zipWith, hs, ho]
      simp only [List.filterMap_cons, hzip, hs, ho]

end NetBridge.Base
