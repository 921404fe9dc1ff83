import NetBridge.Base.Bytes
import NetBridge.Base.Loop
import Mathlib.Data.List.DropRight

/-!
# Wrapped lines

`WrapValue`, `src/swarm_ros_bridge/src/tui/theme.cpp:14–46`, breaks a value at spaces and slashes,
`WrappedPath`, `src/swarm_ros_bridge/src/tui/topics_screen.cpp:103–128`, a path at slashes. Both
search backwards from the width for the place. Of an `Element` only its text is kept.
-/

namespace NetBridge.Tui

open NetBridge.Base

/-- The byte of `' '`. -/
def space : UInt8 := 32

/-- `start` and `lines` of the loops. -/
structure Wrapping where
  start : Nat := 0
  lines : List Bytes := []

/-- The loop over the spaces at a start; `theme.cpp:20–22`. -/
def skipSpaces (value : Bytes) (start : Nat) : Nat :=
  start + ((value.drop start).takeWhile (· == space)).length

/-- Where a line ends that has no space to end at; `theme.cpp:30–31`. -/
def slashEnd (value : Bytes) (start last : Nat) : Nat :=
  match rfind value slash (last - 1) with
  | some found => if found > start then found + 1 else last
  | none => last

/-- Where a line ends; `theme.cpp:26–34`. -/
def valueEnd (value : Bytes) (lineWidth start : Nat) : Nat :=
  let last := min value.length (start + lineWidth)
  if last < value.length then
    match rfind value space last with
    | some split => if split ≤ start then slashEnd value start last else split
    | none => slashEnd value start last
  else last

/-- A round of `WrapValue`; `theme.cpp:19–41`. -/
def wrapValueRound (value : Bytes) (lineWidth : Nat) (s : Wrapping) : Option Wrapping :=
  if s.start < value.length then
    let start := skipSpaces value s.start
    if start ≥ value.length then none
    else
      let last := valueEnd value lineWidth start
      let line := (substr value start (last - start)).rdropWhile (· == space)
      some ⟨last, s.lines ++ [line]⟩
  else none

/-- `WrapValue`; `theme.cpp:14–46`. -/
def wrapValue (fuel : Nat) (value : Bytes) (width : Int32) : Option (List Bytes) := do
  let lineWidth := (max 1 width.toInt).toNat
  let s ← whileLoop (wrapValueRound value lineWidth) fuel {}
  pure (if s.lines.isEmpty then [[]] else s.lines)

/-- Where a line of a path ends at first; `topics_screen.cpp:110–116`. -/
def pathSlash (value : Bytes) (width start : Nat) : Nat :=
  let last := min value.length (start + width)
  if last < value.length then
    match rfind value slash last with
    | some found => if found > start then found else last
    | none => last
  else last

/-- Where a line of a path ends; `topics_screen.cpp:110–119`. -/
def pathEnd (value : Bytes) (width start : Nat) : Nat :=
  let last := pathSlash value width start
  if last = start then min value.length (start + width) else last

/-- A round of `WrappedPath`; `topics_screen.cpp:109–123`. -/
def wrappedPathRound (value : Bytes) (width : Nat) (s : Wrapping) : Option Wrapping :=
  if s.start < value.length then
    let last := pathEnd value width s.start
    some ⟨last, s.lines ++ [substr value s.start (last - s.start)]⟩
  else none

/-- The texts of `WrappedPath`; `topics_screen.cpp:103–128`. -/
def wrappedPath (fuel : Nat) (value : Bytes) (availableWidth : Int32) : Option (List Bytes) := do
  let width := (max 8 availableWidth.toInt).toNat
  let s ← whileLoop (wrappedPathRound value width) fuel {}
  pure (if s.lines.isEmpty then [ascii "-"] else s.lines)

/-! ## Values without some of their spaces -/

/-- A text is a value from which only spaces are removed: every other byte is kept once and in
order. -/
inductive SpacesRemoved : Bytes → Bytes → Prop
  | nil : SpacesRemoved [] []
  | keep {text value : Bytes} (b : UInt8) (h : SpacesRemoved text value) :
    SpacesRemoved (b :: text) (b :: value)
  | remove {text value : Bytes} (h : SpacesRemoved text value) :
    SpacesRemoved text (space :: value)

namespace SpacesRemoved

/-- Nothing need be removed. -/
theorem refl (value : Bytes) : SpacesRemoved value value := by
  induction value with
  | nil => exact .nil
  | cons b value ih => exact .keep b ih

/-- Spaces are removed from each of two parts. -/
theorem append {text text' value value' : Bytes} (h : SpacesRemoved text value)
    (h' : SpacesRemoved text' value') : SpacesRemoved (text ++ text') (value ++ value') := by
  induction h with
  | nil => exact h'
  | keep b _ ih => exact .keep b ih
  | remove _ ih => exact .remove ih

/-- Nothing is left of spaces. -/
theorem of_spaces {value : Bytes} (h : ∀ b ∈ value, (b == space) = true) :
    SpacesRemoved [] value := by
  induction value with
  | nil => exact .nil
  | cons b value ih =>
    rw [List.forall_mem_cons, beq_iff_eq] at h
    rw [h.1]
    exact .remove (ih h.2)

/-- A line without the spaces at its end. -/
theorem rdropWhile (value : Bytes) : SpacesRemoved (value.rdropWhile (· == space)) value := by
  have hspaces : SpacesRemoved [] (value.rtakeWhile (· == space)) :=
    of_spaces fun b hb ↦ List.mem_rtakeWhile_imp (p := (· == space)) hb
  have h := (refl (value.rdropWhile (· == space))).append hspaces
  rwa [List.append_nil, List.rdropWhile_append_rtakeWhile] at h

end SpacesRemoved

/-! ## Where lines end -/

section

variable {value : Bytes} {start : Nat}

/-- A slash ends a line behind its start and no later than the width. -/
theorem slashEnd_bounds (value : Bytes) {last : Nat} (hlast : start < last) :
    start < slashEnd value start last ∧ slashEnd value start last ≤ last := by
  unfold slashEnd
  split
  · next found hfound =>
    have hle := (rfind_eq_some hfound).1
    split
    · omega
    · omega
  · omega

/-- A line of a value is not empty, stays in the value and keeps to the width. -/
theorem valueEnd_bounds {lineWidth : Nat} (hstart : start < value.length) (hwidth : 0 < lineWidth) :
    start < valueEnd value lineWidth start ∧ valueEnd value lineWidth start ≤ value.length ∧
      valueEnd value lineWidth start ≤ start + lineWidth := by
  have hlast : start < min value.length (start + lineWidth) := by omega
  have hslash := slashEnd_bounds value hlast
  unfold valueEnd
  dsimp only
  split
  · split
    · next split hsplit =>
      have hle := (rfind_eq_some hsplit).1
      split
      · omega
      · omega
    · omega
  · omega

/-- A line of a path is not empty, stays in the path and keeps to the width. -/
theorem pathEnd_bounds {width : Nat} (hstart : start < value.length) (hwidth : 0 < width) :
    start < pathEnd value width start ∧ pathEnd value width start ≤ value.length ∧
      pathEnd value width start ≤ start + width := by
  have hslash : start < pathSlash value width start ∧
      pathSlash value width start ≤ min value.length (start + width) := by
    unfold pathSlash
    dsimp only
    split
    · split
      · next found hfound =>
        have hle := (rfind_eq_some hfound).1
        split
        · omega
        · omega
      · omega
    · omega
  unfold pathEnd
  dsimp only
  split
  · omega
  · omega

/-- The spaces at a start are skipped. -/
theorem take_skipSpaces (value : Bytes) (start : Nat) :
    value.take (skipSpaces value start) =
      value.take start ++ (value.drop start).takeWhile (· == space) := by
  rw [skipSpaces, List.take_add]
  congr 1
  exact List.prefix_iff_eq_take.mp (List.takeWhile_prefix _) |>.symm

/-- Skipped spaces are removed. -/
theorem SpacesRemoved.skipSpaces {text : Bytes} (h : SpacesRemoved text (value.take start)) :
    SpacesRemoved text (value.take (skipSpaces value start)) := by
  have hspaces : SpacesRemoved [] ((value.drop start).takeWhile (· == space)) :=
    of_spaces fun b hb ↦ List.mem_takeWhile_imp (p := (· == space)) hb
  have hboth := h.append hspaces
  rwa [List.append_nil, ← take_skipSpaces] at hboth

/-- What stands up to the end of a line is what stands before the line, and the line. -/
theorem take_append_substr {last : Nat} (h : start ≤ last) :
    value.take start ++ substr value start (last - start) = value.take last := by
  rw [substr, ← List.take_add, Nat.add_sub_of_le h]

end

/-! ## The loops -/

/-- What the rounds keep: the lines keep to the width, and together they are what stands before
the start, up to what may be removed. -/
structure Wrapped (Rel : Bytes → Bytes → Prop) (value : Bytes) (width : Nat) (s : Wrapping) :
    Prop where
  start : s.start ≤ value.length
  lines : ∀ line ∈ s.lines, line.length ≤ width
  text : Rel s.lines.flatten (value.take s.start)

/-- One line more. -/
theorem Wrapped.concat {Rel : Bytes → Bytes → Prop} {value : Bytes} {width : Nat} {s : Wrapping}
    (h : Wrapped Rel value width s) {line : Bytes} {last : Nat} (hlast : last ≤ value.length)
    (hline : line.length ≤ width) (htext : Rel (s.lines.flatten ++ line) (value.take last)) :
    Wrapped Rel value width ⟨last, s.lines ++ [line]⟩ := by
  refine ⟨hlast, ?_, ?_⟩
  · intro other hother
    rcases List.mem_append.mp hother with hold | hnew
    · exact h.lines other hold
    · rw [List.mem_singleton.mp hnew]
      exact hline
  · rw [List.flatten_concat]
    exact htext

/-- A round of `WrapValue` adds a line and moves on. -/
theorem wrapped_wrapValueRound {value : Bytes} {lineWidth : Nat} (hwidth : 0 < lineWidth)
    {s s' : Wrapping} (h : Wrapped SpacesRemoved value lineWidth s)
    (hr : wrapValueRound value lineWidth s = some s') :
    Wrapped SpacesRemoved value lineWidth s' ∧
      value.length - s'.start < value.length - s.start := by
  unfold wrapValueRound at hr
  split at hr
  · next hstart =>
    dsimp only at hr
    split at hr
    · cases hr
    · next hinside =>
      cases hr
      have hskip : s.start ≤ skipSpaces value s.start := Nat.le_add_right ..
      obtain ⟨hmore, hlast, hshort⟩ := valueEnd_bounds (Nat.lt_of_not_ge hinside) hwidth
      refine ⟨h.concat hlast ?_ ?_, by dsimp only; omega⟩
      · have hcut := (List.rdropWhile_prefix (· == space) (l := substr value
          (skipSpaces value s.start)
          (valueEnd value lineWidth (skipSpaces value s.start) -
            skipSpaces value s.start))).length_le
        have hline := length_substr_le value (skipSpaces value s.start)
          (valueEnd value lineWidth (skipSpaces value s.start) - skipSpaces value s.start)
        omega
      · -- before the line stand the spaces that are skipped, behind it those that are cut off
        rw [← take_append_substr (Nat.le_of_lt hmore)]
        exact h.text.skipSpaces.append (SpacesRemoved.rdropWhile _)
  · cases hr

/-- Where `WrapValue` is left, nothing but spaces is behind the start. -/
theorem spacesRemoved_of_left {value : Bytes} {lineWidth : Nat} {s : Wrapping}
    (h : Wrapped SpacesRemoved value lineWidth s) (hr : wrapValueRound value lineWidth s = none) :
    SpacesRemoved s.lines.flatten value := by
  unfold wrapValueRound at hr
  split at hr
  · dsimp only at hr
    split at hr
    · next hall =>
      have htext := h.text.skipSpaces
      rwa [List.take_of_length_le hall] at htext
    · cases hr
  · next hend =>
    have htext := h.text
    rwa [List.take_of_length_le (Nat.le_of_not_lt hend)] at htext

/-- A round of `WrappedPath` adds a line and moves on. -/
theorem wrapped_wrappedPathRound {value : Bytes} {width : Nat} (hwidth : 0 < width)
    {s s' : Wrapping} (h : Wrapped Eq value width s)
    (hr : wrappedPathRound value width s = some s') :
    Wrapped Eq value width s' ∧ value.length - s'.start < value.length - s.start := by
  unfold wrappedPathRound at hr
  split at hr
  · next hstart =>
    cases hr
    obtain ⟨hmore, hlast, hshort⟩ := pathEnd_bounds hstart hwidth
    refine ⟨h.concat hlast ?_ ?_, by dsimp only; omega⟩
    · have hline := length_substr_le value s.start (pathEnd value width s.start - s.start)
      omega
    · rw [h.text]
      exact take_append_substr (Nat.le_of_lt hmore)
  · cases hr

/-- `WrapValue` ends. Its lines keep to the width, and together they are the value without some
of its spaces. -/
theorem wrapValue_spec (value : Bytes) (width : Int32) :
    ∃ lines, (∀ fuel, value.length < fuel → wrapValue fuel value width = some lines) ∧
      (∀ line ∈ lines, (line.length : Int) ≤ max 1 width.toInt) ∧
      SpacesRemoved lines.flatten value := by
  have hwidth : 0 < (max 1 width.toInt).toNat := by omega
  have hinit : Wrapped SpacesRemoved value (max 1 width.toInt).toNat {} :=
    ⟨Nat.zero_le _, nofun, .nil⟩
  obtain ⟨s, hloop, hs, hleft⟩ := exists_whileLoop
    (fun _ _ h hr ↦ wrapped_wrapValueRound hwidth h hr) hinit
  have htext := spacesRemoved_of_left hs hleft
  refine ⟨if s.lines.isEmpty then [[]] else s.lines, ?_, ?_⟩
  · intro fuel hfuel
    rw [wrapValue, hloop fuel hfuel]
    rfl
  · split
    · next hnone =>
      rw [List.isEmpty_iff.mp hnone] at htext
      refine ⟨?_, htext⟩
      intro line hline
      rw [List.mem_singleton.mp hline, List.length_nil]
      omega
    · refine ⟨?_, htext⟩
      intro line hline
      have hlength := hs.lines line hline
      omega

/-- `WrappedPath` ends. Its lines keep to the width, and together they are the path. -/
theorem wrappedPath_spec (value : Bytes) (availableWidth : Int32) :
    ∃ lines, (∀ fuel, value.length < fuel →
        wrappedPath fuel value availableWidth = some lines) ∧
      (∀ line ∈ lines, (line.length : Int) ≤ max 8 availableWidth.toInt) ∧
      (value ≠ [] → lines.flatten = value) := by
  have hwidth : 0 < (max 8 availableWidth.toInt).toNat := by omega
  have hinit : Wrapped Eq value (max 8 availableWidth.toInt).toNat {} :=
    ⟨Nat.zero_le _, nofun, rfl⟩
  obtain ⟨s, hloop, hs, hleft⟩ := exists_whileLoop
    (fun _ _ h hr ↦ wrapped_wrappedPathRound hwidth h hr) hinit
  have hend : value.length ≤ s.start := by
    unfold wrappedPathRound at hleft
    split at hleft
    · cases hleft
    · next hend => exact Nat.le_of_not_lt hend
  have htext := hs.text
  rw [List.take_of_length_le hend] at htext
  refine ⟨if s.lines.isEmpty then [ascii "-"] else s.lines, ?_, ?_⟩
  · intro fuel hfuel
    rw [wrappedPath, hloop fuel hfuel]
    rfl
  · split
    · next hnone =>
      rw [List.isEmpty_iff.mp hnone] at htext
      constructor
      · intro line hline
        have hone : (ascii "-").length = 1 := rfl
        rw [List.mem_singleton.mp hline, hone]
        omega
      · intro hne
        exact absurd htext.symm hne
    · refine ⟨?_, fun _ ↦ htext⟩
      intro line hline
      have hlength := hs.lines line hline
      omega

/-- For every text and width both ways of wrapping end, keep to the width and lose nothing. -/
theorem wrapping_loses_nothing (value : Bytes) (width : Int32) :
    (∃ lines, (∀ fuel, value.length < fuel → wrapValue fuel value width = some lines) ∧
      (∀ line ∈ lines, (line.length : Int) ≤ max 1 width.toInt) ∧
      SpacesRemoved lines.flatten value) ∧
    ∃ lines, (∀ fuel, value.length < fuel → wrappedPath fuel value width = some lines) ∧
      (∀ line ∈ lines, (line.length : Int) ≤ max 8 width.toInt) ∧
      (value ≠ [] → lines.flatten = value) :=
  ⟨wrapValue_spec value width, wrappedPath_spec value width⟩

end NetBridge.Tui
