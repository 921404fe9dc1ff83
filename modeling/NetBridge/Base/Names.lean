import NetBridge.Base.Bytes
import NetBridge.Base.Paths

/-!
# Names of the ROS graph

A global name is a path of segments between slashes. Resolving one removes what does not separate
segments; the number of segments stays the same.
-/

namespace NetBridge.Base

/-- Of adjacent slashes only the first is kept. `slashed` says that the last character was one. -/
def collapseSlashes (slashed : Bool) : Bytes → Bytes
  | [] => []
  | c :: s =>
    if c = slash then
      if slashed then collapseSlashes true s else slash :: collapseSlashes true s
    else c :: collapseSlashes false s

/-- `ros::names::clean`: no adjacent slashes and none at the end. -/
def cleanName (name : Bytes) : Bytes :=
  let clean := collapseSlashes false name
  if clean.getLast? = some slash then clean.dropLast else clean

/-- The number of segments. `inside` says that the first character continues one. -/
def segments (inside : Bool) : Bytes → Nat
  | [] => 0
  | c :: s =>
    if c = slash then segments false s
    else if inside then segments true s
    else segments true s + 1

/-- A slash ends a segment. -/
theorem segments_slash_cons (inside : Bool) (s : Bytes) :
    segments inside (slash :: s) = segments false s := if_pos rfl

/-- Any other byte begins one. -/
theorem segments_cons {c : UInt8} (h : c ≠ slash) (s : Bytes) :
    segments false (c :: s) = segments true s + 1 := by
  rw [segments, if_neg h, if_neg Bool.false_ne_true]

/-- Inside a segment any other byte belongs to it. -/
theorem segments_cons_inside {c : UInt8} (h : c ≠ slash) (s : Bytes) :
    segments true (c :: s) = segments true s := by
  rw [segments, if_neg h, if_pos rfl]

/-- Text without slashes continues the segment. -/
theorem segments_append_inside {word : Bytes} (h : slash ∉ word) (s : Bytes) :
    segments true (word ++ s) = segments true s := by
  induction word with
  | nil => rfl
  | cons c word ih =>
    rw [List.mem_cons, not_or] at h
    rw [List.cons_append, segments_cons_inside (Ne.symm h.1)]
    exact ih h.2

/-- Behind a global name the count goes on. -/
theorem segments_append_global (inside : Bool) (s : Bytes) {name : Bytes}
    (h : name.head? = some slash) :
    segments inside (s ++ name) = segments inside s + segments false name := by
  induction s generalizing inside with
  | nil =>
    rw [List.head?_eq_some_iff] at h
    obtain ⟨rest, h⟩ := h
    rw [List.nil_append, h, segments_slash_cons, segments_slash_cons, segments, Nat.zero_add]
  | cons c s ih =>
    rw [List.cons_append]
    by_cases hc : c = slash
    · rw [hc, segments_slash_cons, segments_slash_cons]
      exact ih false
    · cases inside with
      | true =>
        rw [segments_cons_inside hc, segments_cons_inside hc]
        exact ih true
      | false =>
        rw [segments_cons hc, segments_cons hc, ih true]
        omega

private theorem segments_collapseSlashes {inside slashed : Bool} (s : Bytes)
    (h : slashed = true → inside = false) :
    segments inside (collapseSlashes slashed s) = segments inside s := by
  induction s generalizing inside slashed with
  | nil => rfl
  | cons c s ih =>
    by_cases hc : c = slash
    · rw [collapseSlashes, if_pos hc, hc, segments_slash_cons]
      split
      · next hs =>
        rw [h hs]
        exact ih fun _ ↦ rfl
      · rw [segments_slash_cons]
        exact ih fun _ ↦ rfl
    · rw [collapseSlashes, if_neg hc]
      cases inside with
      | true =>
        rw [segments_cons_inside hc, segments_cons_inside hc]
        apply ih
        intro hf
        cases hf
      | false =>
        rw [segments_cons hc, segments_cons hc, ih]
        intro hf
        cases hf

/-- Resolving a name keeps its segments. -/
theorem segments_cleanName (name : Bytes) :
    segments false (cleanName name) = segments false name := by
  rw [← segments_collapseSlashes name fun _ ↦ rfl]
  unfold cleanName
  dsimp only
  split
  · next h =>
    obtain ⟨rest, hrest⟩ := List.getLast?_eq_some_iff.mp h
    rw [hrest, List.dropLast_concat, segments_append_global false rest rfl]
    rfl
  · rfl

/-! ## Resolved names as paths -/

/-- The end of `ros::names::clean`: one slash at the end goes. -/
private def trimSlash (s : Bytes) : Bytes := if s.getLast? = some slash then s.dropLast else s

private theorem trimSlash_concat_slash (s : Bytes) : trimSlash (s ++ [slash]) = s := by
  simp [trimSlash]

private theorem trimSlash_concat {c : UInt8} (h : c ≠ slash) (s : Bytes) :
    trimSlash (s ++ [c]) = s ++ [c] := by
  simp [trimSlash, h]

private theorem trimSlash_collapseSlashes (s : Bytes) :
    (∀ done c first rest, c ≠ slash → s.splitOn slash = first :: rest →
      trimSlash (done ++ [c] ++ collapseSlashes false s) =
        done ++ [c] ++ first ++
          (rest.filter fun piece ↦ !piece.isEmpty).flatMap fun piece ↦ slash :: piece) ∧
    ∀ done, trimSlash (done ++ [slash] ++ collapseSlashes true s) =
      done ++ (pathOf slash s).flatMap fun piece ↦ slash :: piece := by
  induction s with
  | nil =>
    constructor
    · intro done c first rest hc h
      rw [List.splitOn_nil, List.cons.injEq] at h
      rw [collapseSlashes, List.append_nil, trimSlash_concat hc, ← h.1, ← h.2]
      simp
    · intro done
      rw [collapseSlashes, List.append_nil, trimSlash_concat_slash]
      simp
  | cons ch s ih =>
    rcases ih with ⟨hinside, hboundary⟩
    by_cases hch : ch = slash
    · constructor
      · intro done c first rest hc h
        rw [hch, List.splitOn_cons_eq_if_modifyHead, if_pos (by simp), List.cons.injEq] at h
        rcases h with ⟨rfl, rfl⟩
        have hnext := hboundary (done ++ [c])
        rw [List.append_assoc _ [slash]] at hnext
        rw [hch, collapseSlashes, if_pos rfl, if_neg Bool.false_ne_true, List.append_nil]
        exact hnext
      · intro done
        rw [hch, collapseSlashes, if_pos rfl, if_pos rfl, hboundary, pathOf_sep_cons]
    · rcases exists_splitOn slash s with ⟨next, tail, hsplit⟩
      have hcons := splitOn_cons_of_ne hch hsplit
      have hcollapse : ∀ slashed, collapseSlashes slashed (ch :: s) =
          [ch] ++ collapseSlashes false s := by
        intro slashed
        rw [collapseSlashes, if_neg hch]
        rfl
      constructor
      · intro done c first rest hc h
        rw [hcons, List.cons.injEq] at h
        rw [hcollapse, ← List.append_assoc, hinside (done ++ [c]) ch next tail hch hsplit, ← h.1,
          ← h.2]
        simp
      · intro done
        rw [hcollapse, ← List.append_assoc, hinside (done ++ [slash]) ch next tail hch hsplit,
          pathOf, hcons]
        simp

/-- A resolved name has one slash in front of each segment. -/
theorem cleanName_eq {name : Bytes} (h : name.head? = some slash) :
    cleanName name = (pathOf slash name).flatMap fun piece ↦ slash :: piece := by
  rw [List.head?_eq_some_iff] at h
  rcases h with ⟨rest, rfl⟩
  rw [pathOf_sep_cons]
  exact (trimSlash_collapseSlashes rest).2 []

/-- Global names resolve alike exactly when they have the same path. -/
theorem cleanName_inj {name name' : Bytes} (h : name.head? = some slash)
    (h' : name'.head? = some slash) :
    cleanName name = cleanName name' ↔ pathOf slash name = pathOf slash name' := by
  rw [cleanName_eq h, cleanName_eq h']
  constructor
  · intro he
    rw [← pathOf_flatMap (isPath_pathOf name), he, pathOf_flatMap (isPath_pathOf name')]
  · intro he
    rw [he]

private theorem containsBytes_append (before part after : Bytes) :
    containsBytes (before ++ (part ++ after)) part = true := by
  induction before with
  | nil =>
    rw [List.nil_append]
    cases h : part ++ after with
    | nil =>
      rw [(List.append_eq_nil_iff.mp h).1]
      rfl
    | cons c s =>
      rw [containsBytes, ← h, Bool.or_eq_true]
      exact Or.inl (List.isPrefixOf_iff_prefix.mpr (List.prefix_append part after))
  | cons c before ih =>
    rw [List.cons_append, containsBytes, ih, Bool.or_true]

/-- Whether a key has an empty chunk between two slashes. -/
def hasEmptyChunk (key : Bytes) : Bool := containsBytes key [slash, slash]

/-- What stands between slashes in a key without empty chunks has a segment. -/
theorem segments_pos_of_chunk {before chunk after : Bytes}
    (h : hasEmptyChunk (before ++ slash :: (chunk ++ slash :: after)) = false) :
    0 < segments false chunk := by
  have hempty : ∀ rest, hasEmptyChunk (before ++ slash :: slash :: rest) = true :=
    containsBytes_append before [slash, slash]
  cases chunk with
  | nil =>
    rw [List.nil_append, hempty] at h
    cases h
  | cons c chunk =>
    by_cases hc : c = slash
    · rw [hc, List.cons_append, hempty] at h
      cases h
    · rw [segments_cons hc]
      exact Nat.succ_pos _

end NetBridge.Base
