import Mathlib.Data.List.Nodup
import NetBridge.Base.Overwrite

/-!
# Rows under a key

A map filled from a list, each row under a key that is read off it. A row takes the place of an
earlier one with its key, so that a list whose keys repeat loses rows.
-/

namespace NetBridge.Base

variable {κ ρ : Type} [Ord κ] [Std.TransOrd κ]

/-- `map[key row] = row` for the rows in turn. -/
def indexBy (key : ρ → κ) (rows : List ρ) : Std.ExtTreeMap κ ρ :=
  rows.foldl (fun map row ↦ map.insert (key row) row) ∅

/-- No two rows share a key. -/
def Determines {κ ρ : Type} (key : ρ → κ) (rows : List ρ) : Prop :=
  ∀ row ∈ rows, ∀ other ∈ rows, key other = key row → other = row

/-- Rows with distinct keys. -/
theorem determines_of_nodup {κ ρ : Type} {key : ρ → κ} {rows : List ρ}
    (h : (rows.map key).Nodup) : Determines key rows := by
  intro row hrow other hother hkey
  exact List.inj_on_of_nodup_map h hother hrow hkey

/-- No two rows of two lists share a key, when none does in one of them and none across them. -/
theorem Determines.append {κ ρ : Type} {key : ρ → κ} {rows rows' : List ρ}
    (h : Determines key rows) (h' : Determines key rows')
    (hacross : ∀ row ∈ rows, ∀ row' ∈ rows', key row ≠ key row') :
    Determines key (rows ++ rows') := by
  intro row hrow other hother hkey
  rcases List.mem_append.mp hrow with hrow | hrow
  · rcases List.mem_append.mp hother with hother | hother
    · exact h row hrow other hother hkey
    · exact absurd hkey.symm (hacross row hrow other hother)
  · rcases List.mem_append.mp hother with hother | hother
    · exact absurd hkey (hacross other hother row hrow)
    · exact h' row hrow other hother hkey

variable [Std.LawfulEqOrd κ] [DecidableEq κ]

/-- A key finds the last row with it. -/
theorem getElem?_indexBy (key : ρ → κ) (rows : List ρ) (k : κ) :
    (indexBy key rows)[k]? = rows.reverse.find? (key · = k) := by
  induction rows using List.reverseRecOn with
  | nil => exact Std.ExtTreeMap.getElem?_empty
  | append_singleton rows row ih =>
    rw [find?_reverse_concat, ← ih, indexBy, List.foldl_append]
    simp only [List.foldl_cons, List.foldl_nil, getElem?_insert_eq, decide_eq_true_eq]
    rfl

/-- Of two lists of rows the second one comes first. -/
theorem getElem?_indexBy_append (key : ρ → κ) (front back : List ρ) (k : κ) :
    (indexBy key (front ++ back))[k]? = (indexBy key back)[k]?.or (indexBy key front)[k]? := by
  rw [getElem?_indexBy, getElem?_indexBy, getElem?_indexBy, List.reverse_append, List.find?_append]

/-- With values that are read off the rows, a key finds the value of the last row with it. -/
theorem getElem?_foldl_insert {ν : Type} (key : ρ → κ) (value : ρ → ν) (rows : List ρ) (k : κ) :
    (rows.foldl (fun map row ↦ map.insert (key row) (value row)) (∅ : Std.ExtTreeMap κ ν))[k]? =
      (rows.reverse.find? (key · = k)).map value := by
  induction rows using List.reverseRecOn with
  | nil => exact Std.ExtTreeMap.getElem?_empty
  | append_singleton rows row ih =>
    rw [find?_reverse_concat, List.foldl_append, List.foldl_cons, List.foldl_nil,
      getElem?_insert_eq, ih]
    by_cases hk : key row = k
    · rw [if_pos hk, if_pos (decide_eq_true hk), Option.map_some]
    · rw [if_neg hk, if_neg (by simpa using hk)]

/-- What a key finds is a row with it. -/
theorem of_getElem?_indexBy {key : ρ → κ} {rows : List ρ} {k : κ} {row : ρ}
    (h : (indexBy key rows)[k]? = some row) : row ∈ rows ∧ key row = k := by
  rw [getElem?_indexBy] at h
  have hkey := List.find?_some h
  exact ⟨List.mem_reverse.mp (List.mem_of_find?_eq_some h), of_decide_eq_true hkey⟩

/-- A row stays unless another row has its key. -/
theorem getElem?_indexBy_self {key : ρ → κ} {rows : List ρ} {row : ρ} (hm : row ∈ rows)
    (halone : ∀ other ∈ rows, key other = key row → other = row) :
    (indexBy key rows)[key row]? = some row := by
  have hkey : decide (key row = key row) = true := decide_eq_true rfl
  obtain ⟨last, hlast, hsame, hfind⟩ :=
    exists_find?_reverse (p := fun other ↦ decide (key other = key row)) hm hkey
  rw [getElem?_indexBy, hfind, halone last hlast (of_decide_eq_true hsame)]

/-- Every row is found under its key exactly when no two rows share one. -/
theorem indexBy_lossless {key : ρ → κ} {rows : List ρ} :
    (∀ row ∈ rows, (indexBy key rows)[key row]? = some row) ↔ Determines key rows := by
  constructor
  · intro h row hrow other hother hkey
    have hfound := h other hother
    rw [hkey, h row hrow] at hfound
    exact (Option.some.inj hfound).symm
  · intro h row hrow
    exact getElem?_indexBy_self hrow (h row hrow)

private theorem key_of_mem_toList {key : ρ → κ} {rows : List ρ} {item : κ × ρ}
    (h : item ∈ (indexBy key rows).toList) : key item.2 = item.1 :=
  (of_getElem?_indexBy (Std.ExtTreeMap.mem_toList_iff_getElem?_eq_some.mp h)).2

/-- The map lists the rows that their keys find. -/
theorem mem_values_indexBy {key : ρ → κ} {rows : List ρ} {row : ρ} :
    row ∈ (indexBy key rows).toList.map Prod.snd ↔ (indexBy key rows)[key row]? = some row := by
  rw [List.mem_map]
  constructor
  · rintro ⟨item, hitem, rfl⟩
    rw [key_of_mem_toList hitem]
    exact Std.ExtTreeMap.mem_toList_iff_getElem?_eq_some.mp hitem
  · intro h
    exact ⟨(key row, row), Std.ExtTreeMap.mem_toList_iff_getElem?_eq_some.mpr h, rfl⟩

/-- The keys of the listed rows are distinct. -/
theorem nodup_values_indexBy (key : ρ → κ) (rows : List ρ) :
    (((indexBy key rows).toList.map Prod.snd).map key).Nodup := by
  have hkeys : ((indexBy key rows).toList.map Prod.snd).map key =
      (indexBy key rows).toList.map Prod.fst := by
    rw [List.map_map]
    exact List.map_congr_left fun item hitem ↦ key_of_mem_toList hitem
  rw [hkeys, List.Nodup, List.pairwise_map]
  refine Std.ExtTreeMap.distinct_keys_toList.imp ?_
  intro a b hab he
  exact hab (Std.LawfulEqCmp.compare_eq_iff_eq.mpr he)

end NetBridge.Base
