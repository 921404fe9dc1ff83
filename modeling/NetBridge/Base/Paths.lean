import Mathlib.Data.List.Forall2

/-!
# Texts as paths

A text is cut at a separator. The pieces that are not empty are its path, and a path is printed
with one separator between neighbours.
-/

namespace NetBridge.Base

section

variable {α : Type} (sep : α)

/-- A path in canonical spelling. -/
def joinPath (path : List (List α)) : List α := [sep].intercalate path

/-- Pieces that can be told apart in print. -/
def IsPath (path : List (List α)) : Prop := ∀ piece ∈ path, piece ≠ [] ∧ sep ∉ piece

variable {sep}

/-- Without pieces there is nothing to join. -/
@[simp] theorem joinPath_nil : joinPath sep [] = [] := rfl

/-- A single piece needs no separator. -/
@[simp] theorem joinPath_singleton (piece : List α) : joinPath sep [piece] = piece :=
  List.intercalate_singleton

/-- One more piece in front. -/
theorem joinPath_cons (piece : List α) {path : List (List α)} (h : path ≠ []) :
    joinPath sep (piece :: path) = piece ++ sep :: joinPath sep path := by
  rw [joinPath, List.intercalate_cons_of_ne_nil h, List.append_assoc]
  rfl

/-- Two pieces are joined by a separator. -/
@[simp] theorem joinPath_cons_cons (piece next : List α) (path : List (List α)) :
    joinPath sep (piece :: next :: path) = piece ++ sep :: joinPath sep (next :: path) :=
  joinPath_cons piece (List.cons_ne_nil next path)

/-- One more printed piece in front. -/
theorem joinPath_map_cons_cons {β : Type} (print : β → List α) (piece next : β) (path : List β) :
    joinPath sep ((piece :: next :: path).map print) =
      print piece ++ sep :: joinPath sep ((next :: path).map print) :=
  joinPath_cons_cons (print piece) (print next) (path.map print)

/-- A path with a separator in front of every piece. -/
theorem flatMap_sep_cons {path : List (List α)} (h : path ≠ []) :
    (path.flatMap fun piece ↦ sep :: piece) = sep :: joinPath sep path := by
  induction path with
  | nil => exact absurd rfl h
  | cons piece path ih =>
    cases path with
    | nil => simp
    | cons next path =>
      rw [List.flatMap_cons, ih (List.cons_ne_nil next path), joinPath_cons_cons]
      rfl

/-- The pieces of a path are not empty and do not hold the separator. -/
@[simp] theorem isPath_cons {piece : List α} {path : List (List α)} :
    IsPath sep (piece :: path) ↔ (piece ≠ [] ∧ sep ∉ piece) ∧ IsPath sep path :=
  List.forall_mem_cons

/-- Without wildcards a pattern matches itself only. -/
theorem forall₂_eq_or_wild {wild : List α} {path path' : List (List α)} (h : wild ∉ path) :
    List.Forall₂ (fun expected piece ↦ expected = wild ∨ expected = piece) path path' ↔
      path = path' := by
  induction path generalizing path' with
  | nil => simp [eq_comm]
  | cons expected path ih =>
    rw [List.mem_cons, not_or] at h
    cases path' with
    | nil => simp
    | cons piece path' => simp [ih h.2, Ne.symm h.1]

variable [DecidableEq α]

/-- The non-empty pieces of a text between separators. -/
def pathOf (sep : α) (text : List α) : List (List α) :=
  (text.splitOn sep).filter fun piece ↦ !piece.isEmpty

/-- Piece by piece, a pattern agrees with a text or has its wildcard there. -/
def MatchesPath (sep : α) (wild pattern text : List α) : Prop :=
  List.Forall₂ (fun expected piece ↦ expected = wild ∨ expected = piece)
    (pattern.splitOn sep) (text.splitOn sep)

instance (sep : α) (wild pattern text : List α) : Decidable (MatchesPath sep wild pattern text) :=
  inferInstanceAs (Decidable (List.Forall₂ _ _ _))

/-- The empty text has no pieces. -/
@[simp] theorem pathOf_nil : pathOf sep ([] : List α) = [] := rfl

/-- A separator in front adds nothing. -/
@[simp] theorem pathOf_sep_cons (text : List α) : pathOf sep (sep :: text) = pathOf sep text := by
  simp [pathOf, List.splitOn_cons_eq_if_modifyHead]

/-- Any other character belongs to the first piece. -/
theorem splitOn_cons_of_ne {c : α} (hc : c ≠ sep) {text first : List α} {rest : List (List α)}
    (h : text.splitOn sep = first :: rest) : (c :: text).splitOn sep = (c :: first) :: rest := by
  rw [List.splitOn_cons_eq_if_modifyHead, if_neg (by simpa using hc), h]
  rfl

/-- A text has a first piece, which may be empty. -/
theorem exists_splitOn (sep : α) (text : List α) :
    ∃ first rest, text.splitOn sep = first :: rest :=
  List.exists_cons_of_ne_nil (List.splitOn_ne_nil sep text)

/-- The pieces consist of the characters of the text that are no separators. -/
theorem mem_of_mem_splitOn {text piece : List α} (h : piece ∈ text.splitOn sep) {c : α}
    (hc : c ∈ piece) : c ∈ text ∧ c ≠ sep := by
  induction text generalizing piece with
  | nil =>
    rw [List.splitOn_nil, List.mem_singleton] at h
    rw [h] at hc
    cases hc
  | cons d text ih =>
    by_cases hd : d = sep
    · rw [hd, List.splitOn_cons_eq_if_modifyHead, if_pos (by simp)] at h
      rcases List.mem_cons.mp h with rfl | h
      · cases hc
      · exact ⟨List.mem_cons_of_mem d (ih h hc).1, (ih h hc).2⟩
    · rcases exists_splitOn sep text with ⟨first, rest, hsplit⟩
      rw [hsplit] at ih
      rw [splitOn_cons_of_ne hd hsplit] at h
      rcases List.mem_cons.mp h with rfl | h
      · rcases List.mem_cons.mp hc with rfl | hc
        · exact ⟨List.mem_cons_self, hd⟩
        · have hfirst := ih List.mem_cons_self hc
          exact ⟨List.mem_cons_of_mem d hfirst.1, hfirst.2⟩
      · have hrest := ih (List.mem_cons_of_mem first h) hc
        exact ⟨List.mem_cons_of_mem d hrest.1, hrest.2⟩

/-- The path of a text is one. -/
theorem isPath_pathOf (text : List α) : IsPath sep (pathOf sep text) := by
  intro piece h
  rw [pathOf, List.mem_filter] at h
  refine ⟨by simpa using h.2, ?_⟩
  intro hsep
  exact (mem_of_mem_splitOn h.1 hsep).2 rfl

/-- A text that is not made of separators has a path. -/
theorem pathOf_ne_nil {text : List α} (h : ∃ c ∈ text, c ≠ sep) : pathOf sep text ≠ [] := by
  rcases h with ⟨c, hmem, hc⟩
  induction text with
  | nil => cases hmem
  | cons d text ih =>
    by_cases hd : d = sep
    · rw [hd, pathOf_sep_cons]
      rcases List.mem_cons.mp hmem with rfl | hmem
      · exact absurd hd hc
      · exact ih hmem
    · rcases exists_splitOn sep text with ⟨first, rest, hsplit⟩
      simp [pathOf, splitOn_cons_of_ne hd hsplit]

/-- Printed paths are cut where they were joined. -/
theorem splitOn_joinPath {path : List (List α)} (h : IsPath sep path) (hne : path ≠ []) :
    (joinPath sep path).splitOn sep = path :=
  List.splitOn_intercalate sep (fun piece hp ↦ (h piece hp).2) hne

/-- Printing a path and reading it back. -/
theorem pathOf_joinPath {path : List (List α)} (h : IsPath sep path) :
    pathOf sep (joinPath sep path) = path := by
  cases path with
  | nil => rfl
  | cons piece path =>
    rw [pathOf, splitOn_joinPath h (List.cons_ne_nil piece path), List.filter_eq_self]
    intro p hp
    simpa using (h p hp).1

/-- A path is also read back with a separator in front. -/
theorem pathOf_flatMap {path : List (List α)} (h : IsPath sep path) :
    pathOf sep (path.flatMap fun piece ↦ sep :: piece) = path := by
  cases path with
  | nil => rfl
  | cons piece path =>
    rw [flatMap_sep_cons (List.cons_ne_nil piece path), pathOf_sep_cons, pathOf_joinPath h]

/-- Different paths are printed differently. -/
theorem joinPath_inj {path path' : List (List α)} (h : IsPath sep path) (h' : IsPath sep path') :
    joinPath sep path = joinPath sep path' ↔ path = path' := by
  constructor
  · intro he
    rw [← pathOf_joinPath h, he, pathOf_joinPath h']
  · exact congrArg _

/-- A printed path does not end with a separator. -/
theorem getLast?_joinPath {path : List (List α)} (h : IsPath sep path) :
    (joinPath sep path).getLast? ≠ some sep := by
  induction path with
  | nil => simp
  | cons piece path ih =>
    rw [isPath_cons] at h
    cases path with
    | nil =>
      rw [joinPath_singleton]
      intro hlast
      exact h.1.2 (List.mem_of_getLast? hlast)
    | cons next path =>
      have hne : joinPath sep (next :: path) ≠ [] := by
        intro he
        have hpath := pathOf_joinPath h.2
        rw [he] at hpath
        cases hpath
      rw [joinPath_cons_cons, List.getLast?_append, List.getLast?_cons]
      simpa [List.getLast?_eq_some_getLast hne] using ih h.2

end

end NetBridge.Base
