import NetBridge.Base.Paths

/-!
# JSON5

Texts that are JSON5 values, with strings, booleans and arrays written out. The values that begin
otherwise (numbers, objects, `null`) are read by a parameter. A string stands between quotation
marks or apostrophes and goes over a line end only behind a backslash.
-/

namespace NetBridge.Base.Json5

/-- A value; `ω` are the values of the other kinds. -/
inductive Value (ω : Type)
  | string (text : List Char)
  | boolean (b : Bool)
  | array (values : List (Value ω))
  | other (value : ω)

/-- The character of a double-quoted string. -/
def quotationMark : Char := '\x22'

/-- The character of a single-quoted string. -/
def apostrophe : Char := '\x27'

/-- The character in front of an escape sequence. -/
def backslash : Char := '\x5c'

/-- LF. -/
def lineFeed : Char := '\x0a'

/-- CR. -/
def carriageReturn : Char := '\x0d'

/-- `LineTerminator`. -/
def isLineTerminator (c : Char) : Bool :=
  c == lineFeed || c == carriageReturn || c == '\u2028' || c == '\u2029'

/-- `WhiteSpace` and `LineTerminator`. -/
def isBlank (c : Char) : Bool :=
  isLineTerminator c || c == '\x09' || c == '\x0b' || c == '\x0c' || c == ' ' || c == '\u00a0' ||
    c == '\ufeff' || c == '\u1680' || ('\u2000' ≤ c && c ≤ '\u200a') || c == '\u202f' ||
    c == '\u205f' || c == '\u3000'

/-- What stands behind the end of a comment of several lines. -/
def multiLineComment : List Char → Option (List Char)
  | [] => none
  | '*' :: '/' :: rest => some rest
  | _ :: rest => multiLineComment rest

/-- What stands behind a comment of one line. -/
def singleLineComment (text : List Char) : List Char :=
  text.dropWhile fun c ↦ !isLineTerminator c

/-- What stands behind a comment. -/
def comment : List Char → Option (List Char)
  | '/' :: '/' :: rest => some (singleLineComment rest)
  | '/' :: '*' :: rest => multiLineComment rest
  | _ => none

/-- What stands behind so many white space characters and comments. -/
def skipBlanks : Nat → List Char → List Char
  | 0, text => text
  | _ + 1, [] => []
  | blanks + 1, c :: rest =>
    if isBlank c then skipBlanks blanks rest
    else
      match comment (c :: rest) with
      | some behind => skipBlanks blanks behind
      | none => c :: rest

/-- What stands behind all white space and comments. -/
def skip (text : List Char) : List Char := skipBlanks text.length text

/-- The value of a hexadecimal digit. -/
def hexDigit (c : Char) : Option Nat :=
  if '0' ≤ c ∧ c ≤ '9' then some (c.toNat - '0'.toNat)
  else if 'a' ≤ c ∧ c ≤ 'f' then some (c.toNat - 'a'.toNat + 10)
  else if 'A' ≤ c ∧ c ≤ 'F' then some (c.toNat - 'A'.toNat + 10)
  else none

/-- So many hexadecimal digits. -/
def hexDigits : Nat → Nat → List Char → Option (Nat × List Char)
  | 0, value, text => some (value, text)
  | _ + 1, _, [] => none
  | digits + 1, value, c :: rest => do
    let digit ← hexDigit c
    hexDigits digits (16 * value + digit) rest

/-- The character of a code point. A half of a surrogate pair has none. -/
def codePoint (n : Nat) : Option Char := if n.isValidChar then some (Char.ofNat n) else none

/-- `UnicodeEscapeSequence` behind its `u`: one code unit, or the two of a surrogate pair. -/
def unicodeEscape (text : List Char) : Option (List Char × List Char) := do
  let (unit, rest) ← hexDigits 4 0 text
  if 0xd800 ≤ unit ∧ unit < 0xdc00 then
    match rest with
    | '\x5c' :: 'u' :: rest =>
      let (low, rest) ← hexDigits 4 0 rest
      if 0xdc00 ≤ low ∧ low < 0xe000 then
        let c ← codePoint (0x10000 + (unit - 0xd800) * 0x400 + (low - 0xdc00))
        return ([c], rest)
      else none
    | _ => none
  else
    let c ← codePoint unit
    return ([c], rest)

/-- `EscapeSequence` or the rest of a `LineContinuation`: what stands behind a backslash. -/
def escape : List Char → Option (List Char × List Char)
  | [] => none
  | 'b' :: rest => some (['\x08'], rest)
  | 'f' :: rest => some (['\x0c'], rest)
  | 'n' :: rest => some ([lineFeed], rest)
  | 'r' :: rest => some ([carriageReturn], rest)
  | 't' :: rest => some (['\x09'], rest)
  | 'v' :: rest => some (['\x0b'], rest)
  | 'x' :: rest => do
    let (value, rest) ← hexDigits 2 0 rest
    return ([Char.ofNat value], rest)
  | 'u' :: rest => unicodeEscape rest
  | '\x0d' :: '\x0a' :: rest => some ([], rest)
  | c :: rest =>
    if isLineTerminator c then some ([], rest)
    else if c = '0' then
      if rest.head?.any Char.isDigit then none else some (['\x00'], rest)
    else if c.isDigit then none
    else some ([c], rest)

/-- The characters of a string up to its delimiter, and what stands behind it. -/
def stringBody (delimiter : Char) : Nat → List Char → Option (List Char × List Char)
  | 0, _ => none
  | _ + 1, [] => none
  | fuel + 1, c :: rest =>
    if c = delimiter then some ([], rest)
    else if c = backslash then
      match escape rest with
      | none => none
      | some (chars, rest) =>
        (stringBody delimiter fuel rest).map fun (body, rest) ↦ (chars ++ body, rest)
    else if c = lineFeed ∨ c = carriageReturn then none
    else (stringBody delimiter fuel rest).map fun (body, rest) ↦ (c :: body, rest)

/-- `true` and `false`. -/
def boolean : List Char → Option (Bool × List Char)
  | 't' :: 'r' :: 'u' :: 'e' :: rest => some (true, rest)
  | 'f' :: 'a' :: 'l' :: 's' :: 'e' :: rest => some (false, rest)
  | _ => none

section

variable {ω : Type} (other : List Char → Option (ω × List Char))

mutual

/-- The value a text begins with, and what stands behind it. -/
def value : Nat → List Char → Option (Value ω × List Char)
  | 0, _ => none
  | fuel + 1, text =>
    match skip text with
    | [] => none
    | c :: rest =>
      if c = '[' then (elements fuel rest).map fun (values, rest) ↦ (.array values, rest)
      else if c = quotationMark ∨ c = apostrophe then
        (stringBody c rest.length rest).map fun (chars, rest) ↦ (.string chars, rest)
      else
        match boolean (c :: rest) with
        | some (b, rest) => some (.boolean b, rest)
        | none => (other (c :: rest)).map fun (value, rest) ↦ (.other value, rest)

/-- The elements of an array up to its closing bracket, which may stand behind a comma. -/
def elements : Nat → List Char → Option (List (Value ω) × List Char)
  | 0, _ => none
  | fuel + 1, text =>
    match skip text with
    | ']' :: rest => some ([], rest)
    | rest =>
      match value fuel rest with
      | none => none
      | some (first, rest) =>
        match skip rest with
        | ',' :: rest => (elements fuel rest).map fun (values, rest) ↦ (first :: values, rest)
        | ']' :: rest => some ([first], rest)
        | _ => none

end

/-- The value a whole text is. -/
def parse (text : List Char) : Option (Value ω) :=
  match value other (text.length + 1) text with
  | some (value, rest) => if skip rest = [] then some value else none
  | none => none

end

/-- A character of a double-quoted string: quotation marks and backslashes are escaped. -/
def quotedChar (c : Char) : List Char :=
  if c = backslash ∨ c = quotationMark then [backslash, c] else [c]

/-- The characters of a double-quoted string. -/
def quoted (text : List Char) : List Char := text.flatMap quotedChar

/-- A string as a double-quoted string. -/
def writeString (text : List Char) : List Char := quotationMark :: (quoted text ++ [quotationMark])

/-- Strings as an array. -/
def writeArray (texts : List (List Char)) : List Char :=
  '[' :: (joinPath ',' (texts.map writeString) ++ [']'])

/-- A text without an end of a line. U+2028 and U+2029 may stand in a string. -/
def OnOneLine (text : List Char) : Prop := lineFeed ∉ text ∧ carriageReturn ∉ text

instance decidableOnOneLine (text : List Char) : Decidable (OnOneLine text) :=
  inferInstanceAs (Decidable (_ ∧ _))

/-- The empty text needs no escapes. -/
@[simp] theorem quoted_nil : quoted [] = [] := rfl

/-- No character is left out. -/
theorem length_le_quoted (text : List Char) : text.length ≤ (quoted text).length := by
  induction text with
  | nil => exact Nat.le_refl 0
  | cons c text ih =>
    have hchar : 1 ≤ (quotedChar c).length := by
      unfold quotedChar
      split
      · exact Nat.le_succ 1
      · exact Nat.le_refl 1
    rw [quoted, List.flatMap_cons, ← quoted, List.length_append, List.length_cons]
    omega

/-- The empty text is on one line. -/
@[simp] theorem onOneLine_nil : OnOneLine [] := ⟨List.not_mem_nil, List.not_mem_nil⟩

/-- One more character on the line. -/
theorem onOneLine_cons {c : Char} {text : List Char} :
    OnOneLine (c :: text) ↔ ¬ (c = lineFeed ∨ c = carriageReturn) ∧ OnOneLine text := by
  simp only [OnOneLine, List.mem_cons, not_or, eq_comm (b := c)]
  constructor
  · rintro ⟨⟨hlf, hmemlf⟩, hcr, hmemcr⟩
    exact ⟨⟨hlf, hcr⟩, hmemlf, hmemcr⟩
  · rintro ⟨⟨hlf, hcr⟩, hmemlf, hmemcr⟩
    exact ⟨⟨hlf, hmemlf⟩, hcr, hmemcr⟩

/-- Text that begins with a token is not skipped. -/
theorem skip_cons {c : Char} (hblank : isBlank c = false) (hslash : c ≠ '/') (rest : List Char) :
    skip (c :: rest) = c :: rest := by
  have hcomment : comment (c :: rest) = none := by
    unfold comment
    split
    · next he => exact absurd (List.head_eq_of_cons_eq he) hslash
    · next he => exact absurd (List.head_eq_of_cons_eq he) hslash
    · rfl
  rw [skip, List.length_cons, skipBlanks, hblank, if_neg Bool.false_ne_true, hcomment]

/-- A character is read back, escaped or not, unless it ends the line. -/
theorem stringBody_quotedChar (c : Char) (fuel : Nat) (text : List Char) :
    stringBody quotationMark (fuel + 1) (quotedChar c ++ text) =
      if c = lineFeed ∨ c = carriageReturn then none
      else (stringBody quotationMark fuel text).map fun (body, rest) ↦ (c :: body, rest) := by
  unfold quotedChar
  split
  · next hescaped =>
    have hescape : escape (c :: text) = some ([c], text) := by
      rcases hescaped with rfl | rfl
      · rfl
      · rfl
    have hinline : ¬ (c = lineFeed ∨ c = carriageReturn) := by
      rcases hescaped with rfl | rfl
      · decide
      · decide
    rw [List.cons_append, List.singleton_append, stringBody, if_neg (by decide), if_pos rfl,
      hescape, if_neg hinline]
    rfl
  · next hplain =>
    rw [not_or] at hplain
    rw [List.singleton_append, stringBody, if_neg hplain.2, if_neg hplain.1]

/-- A string is read back when it is on one line, and no other string is. -/
theorem stringBody_quoted {text : List Char} {fuel : Nat} (h : text.length < fuel)
    (rest : List Char) :
    stringBody quotationMark fuel (quoted text ++ quotationMark :: rest) =
      if OnOneLine text then some (text, rest) else none := by
  induction fuel generalizing text with
  | zero => exact absurd h (Nat.not_lt_zero _)
  | succ fuel ih =>
    cases text with
    | nil => rw [quoted_nil, List.nil_append, stringBody, if_pos rfl, if_pos onOneLine_nil]
    | cons c text =>
      rw [quoted, List.flatMap_cons, ← quoted, List.append_assoc, stringBody_quotedChar,
        ih (Nat.lt_of_succ_lt_succ h)]
      split
      · next hend =>
        rw [if_neg]
        intro hline
        exact (onOneLine_cons.mp hline).1 hend
      · next hend =>
        by_cases hline : OnOneLine text
        · rw [if_pos hline, if_pos (onOneLine_cons.mpr ⟨hend, hline⟩)]
          rfl
        · rw [if_neg hline, if_neg fun hcons ↦ hline (onOneLine_cons.mp hcons).2]
          rfl

section

variable {ω : Type} (other : List Char → Option (ω × List Char))

/-- A written string is read back when it is on one line, and no other string is. -/
theorem value_writeString (text : List Char) (fuel : Nat) (rest : List Char) :
    value other (fuel + 1) (writeString text ++ rest) =
      if OnOneLine text then some (.string text, rest) else none := by
  have hlength : text.length < (quoted text ++ quotationMark :: rest).length := by
    have hquoted := length_le_quoted text
    rw [List.length_append, List.length_cons]
    omega
  rw [writeString, List.cons_append, List.append_assoc, List.singleton_append, value,
    skip_cons (by decide) (by decide)]
  dsimp only
  rw [if_neg (by decide), if_pos (Or.inl rfl), stringBody_quoted hlength]
  split
  · rfl
  · rfl

/-- A written string is read back as an element, in front of a comma or of the closing bracket. -/
theorem elements_writeString (text : List Char) (fuel : Nat) (rest : List Char) :
    elements other (fuel + 2) (writeString text ++ rest) =
      if OnOneLine text then
        match skip rest with
        | ',' :: rest =>
          (elements other (fuel + 1) rest).map fun (values, rest) ↦ (.string text :: values, rest)
        | ']' :: rest => some ([.string text], rest)
        | _ => none
      else none := by
  have hskip : skip (writeString text ++ rest) = writeString text ++ rest :=
    skip_cons (by decide) (by decide) _
  rw [elements, hskip]
  split
  · next he => exact absurd (List.head_eq_of_cons_eq he) (by decide)
  · rw [value_writeString]
    by_cases hline : OnOneLine text
    · rw [if_pos hline, if_pos hline]
    · rw [if_neg hline, if_neg hline]

/-- Written strings are read back as the elements of an array when each is on one line. -/
theorem elements_joinPath (texts : List (List Char)) {fuel : Nat} (h : texts.length < fuel)
    (rest : List Char) :
    elements other fuel (joinPath ',' (texts.map writeString) ++ ']' :: rest) =
      if ∀ text ∈ texts, OnOneLine text then some (texts.map .string, rest) else none := by
  induction texts generalizing fuel with
  | nil =>
    obtain ⟨fuel, rfl⟩ : ∃ n, fuel = n + 1 := ⟨fuel - 1, by rw [List.length_nil] at h; omega⟩
    rw [List.map_nil, joinPath_nil, List.nil_append, elements, skip_cons (by decide) (by decide),
      if_pos (List.forall_mem_nil _)]
    rfl
  | cons text texts ih =>
    rw [List.length_cons] at h
    obtain ⟨fuel, rfl⟩ : ∃ n, fuel = n + 2 := ⟨fuel - 2, by omega⟩
    simp only [List.forall_mem_cons]
    cases texts with
    | nil =>
      rw [List.map_singleton, joinPath_singleton, elements_writeString,
        skip_cons (by decide) (by decide)]
      by_cases hline : OnOneLine text
      · rw [if_pos hline, if_pos ⟨hline, List.forall_mem_nil _⟩]
        rfl
      · rw [if_neg hline, if_neg fun hall ↦ hline hall.1]
    | cons next texts =>
      have hcomma (behind : List Char) :
          elements other (fuel + 2) (writeString text ++ ',' :: behind) =
            if OnOneLine text then
              (elements other (fuel + 1) behind).map
                fun (values, rest) ↦ (.string text :: values, rest)
            else none := by
        rw [elements_writeString, skip_cons (by decide) (by decide)]
        rfl
      rw [joinPath_map_cons_cons, List.append_assoc, List.cons_append, hcomma,
        ih (Nat.lt_of_succ_lt_succ h)]
      by_cases hline : OnOneLine text
      · by_cases hall : ∀ other ∈ next :: texts, OnOneLine other
        · rw [if_pos hline, if_pos hall, if_pos ⟨hline, hall⟩]
          rfl
        · rw [if_pos hline, if_neg hall, if_neg fun h ↦ hall h.2]
          rfl
      · rw [if_neg hline, if_neg fun hall ↦ hline hall.1]

/-- A text with a value at its beginning and nothing behind it is that value. -/
theorem parse_eq_some {text : List Char} {read : Value ω}
    (h : value other (text.length + 1) text = some (read, [])) : parse other text = some read := by
  rw [parse, h]
  rfl

/-- A text without a value at its beginning is no value. -/
theorem parse_eq_none {text : List Char} (h : value other (text.length + 1) text = none) :
    parse other text = none := by
  rw [parse, h]

/-- A string is read back as a whole text when it is on one line, and no other string is. -/
theorem parse_writeString (text : List Char) :
    parse other (writeString text) = if OnOneLine text then some (.string text) else none := by
  have hvalue := value_writeString other text (writeString text).length []
  rw [List.append_nil] at hvalue
  split
  · next hline => exact parse_eq_some other (hvalue.trans (if_pos hline))
  · next hline => exact parse_eq_none other (hvalue.trans (if_neg hline))

/-- There are no more strings in an array than characters. -/
theorem length_le_joinPath (texts : List (List Char)) :
    texts.length ≤ (joinPath ',' (texts.map writeString)).length := by
  induction texts with
  | nil => exact Nat.le_refl 0
  | cons text texts ih =>
    have hwritten : 1 ≤ (writeString text).length := Nat.le_add_left 1 _
    cases texts with
    | nil =>
      rw [List.map_singleton, joinPath_singleton]
      exact hwritten
    | cons next texts =>
      rw [joinPath_map_cons_cons]
      simp only [List.length_append, List.length_cons] at ih ⊢
      omega

/-- An array of strings is read back when every string is on one line, and no other array is. -/
theorem parse_writeArray (texts : List (List Char)) :
    parse other (writeArray texts) =
      if ∀ text ∈ texts, OnOneLine text then some (.array (texts.map .string)) else none := by
  have hfuel : texts.length < (writeArray texts).length := by
    have hjoin := length_le_joinPath texts
    rw [writeArray, List.length_cons, List.length_append]
    omega
  have helements := elements_joinPath other texts hfuel []
  have hvalue : value other ((writeArray texts).length + 1) (writeArray texts) =
      (elements other (writeArray texts).length
        (joinPath ',' (texts.map writeString) ++ [']'])).map
          fun (values, rest) ↦ (.array values, rest) := by
    rw [writeArray, value, skip_cons (by decide) (by decide)]
    rfl
  rw [helements] at hvalue
  split
  · next hall =>
    rw [if_pos hall] at hvalue
    exact parse_eq_some other hvalue
  · next hall =>
    rw [if_neg hall] at hvalue
    exact parse_eq_none other hvalue

/-- The texts of `true` and `false` are read back. -/
theorem parse_boolean (b : Bool) :
    parse other (if b then "true" else "false").toList = some (.boolean b) := by
  cases b with
  | true => rfl
  | false => rfl

end

end NetBridge.Base.Json5
