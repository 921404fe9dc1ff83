/-!
# Byte strings

The `std::string` and `std::vector<std::uint8_t>` values of the bridge are byte lists:
any byte may occur and nothing terminates them. The string operations below are the
ones the sources call.
-/

namespace NetBridge.Base

/-- A `std::string` or a `std::vector<std::uint8_t>`. -/
abbrev Bytes := List UInt8

/-- Whether a string is one of some others can be computed. -/
instance decidableMem (s : Bytes) (strings : List Bytes) : Decidable (s ∈ strings) :=
  inferInstanceAs (Decidable (s ∈ strings))

/-- The bytes of an ASCII string literal. -/
def ascii (s : String) : Bytes := s.toList.map fun c ↦ c.toNat.toUInt8

/-- The byte of `'/'`. -/
def slash : UInt8 := 47

/-- `s.rfind(pre, 0) == 0`. -/
def startsWith (s pre : Bytes) : Bool := pre.isPrefixOf s

/-- `s.rfind(c, pos)`; `none` stands for `std::string::npos`. -/
def rfind (s : Bytes) (c : UInt8) : Nat → Option Nat
  | 0 => if s[0]? = some c then some 0 else none
  | pos + 1 => if s[pos + 1]? = some c then some (pos + 1) else rfind s c pos

/-- `s.substr(pos, n)` with `pos` in the string. -/
def substr (s : Bytes) (pos n : Nat) : Bytes := (s.drop pos).take n

/-- `s.find(part) != std::string::npos`. -/
def containsBytes : Bytes → Bytes → Bool
  | [], part => part.isEmpty
  | c :: s, part => part.isPrefixOf (c :: s) || containsBytes s part

/-- Assignment through a `T*` parameter: nothing is written through `nullptr`. -/
def writePointer {α : Type} (value : α) (pointer : Option α) : Option α :=
  pointer.map fun _ ↦ value

/-- `std::isspace` on one byte in the C locale. -/
def isSpace (c : UInt8) : Bool := c == 32 || (9 ≤ c && c ≤ 13)

/-- `std::isdigit` on one byte. -/
def isDigit (c : UInt8) : Bool := 48 ≤ c && c ≤ 57

/-- `std::tolower` on one byte in the C locale. -/
def toLower (c : UInt8) : UInt8 := if 65 ≤ c && c ≤ 90 then c + 32 else c

/-- The decimal digits of a natural number. -/
def decimal (n : Nat) : Bytes := (Nat.toDigits 10 n).map fun c ↦ c.toNat.toUInt8

/-- `std::to_string(int)`. -/
def intToString (v : Int) : Bytes := if v < 0 then 45 :: decimal v.natAbs else decimal v.natAbs

/-- Optional sign of a `strtol` input, and the text behind it. -/
def readSign : Bytes → Bool × Bytes
  | 45 :: rest => (true, rest)
  | 43 :: rest => (false, rest)
  | rest => (false, rest)

/-- `std::stoi(s)`: leading white space, an optional sign, decimal digits, then anything.
`none` stands for the exceptions `std::invalid_argument` (no digit) and
`std::out_of_range` (not an `int`). -/
def stoi (s : Bytes) : Option Int :=
  let (negative, rest) := readSign (s.dropWhile isSpace)
  let digits := rest.takeWhile isDigit
  let magnitude : Nat := digits.foldl (fun v d ↦ v * 10 + (d.toNat - 48)) 0
  let value : Int := if negative then -(magnitude : Int) else magnitude
  if digits = [] ∨ value < -2147483648 ∨ 2147483647 < value then none else some value

/-- A byte string starts with a prefix exactly when it continues that prefix. -/
theorem startsWith_iff (s pre : Bytes) : startsWith s pre = true ↔ ∃ rest, s = pre ++ rest := by
  rw [startsWith, List.isPrefixOf_iff_prefix]
  constructor
  · rintro ⟨rest, h⟩
    exact ⟨rest, h.symm⟩
  · rintro ⟨rest, h⟩
    exact ⟨rest, h.symm⟩

/-- A byte is found where it stands, and no further than the search may begin. -/
theorem rfind_eq_some {s : Bytes} {c : UInt8} {pos i : Nat} (h : rfind s c pos = some i) :
    i ≤ pos ∧ s[i]? = some c := by
  induction pos with
  | zero =>
    unfold rfind at h
    split at h
    · next hc =>
      cases h
      exact ⟨Nat.le_refl 0, hc⟩
    · cases h
  | succ pos ih =>
    unfold rfind at h
    split at h
    · next hc =>
      cases h
      exact ⟨Nat.le_refl _, hc⟩
    · obtain ⟨hle, hc⟩ := ih h
      exact ⟨Nat.le_succ_of_le hle, hc⟩

/-- A substring is no longer than asked for. -/
theorem length_substr_le (s : Bytes) (pos n : Nat) : (substr s pos n).length ≤ n :=
  List.length_take_le n (s.drop pos)

/-- A pointer that was written holds the value; `nullptr` stays `nullptr`. -/
@[simp] theorem writePointer_some {α : Type} (value old : α) :
    writePointer value (some old) = some value := rfl

/-- Nothing is written through `nullptr`. -/
@[simp] theorem writePointer_none {α : Type} (value : α) :
    writePointer value (none : Option α) = none := rfl

private theorem digit_bounds {n : Nat} {c : Char} (h : c ∈ Nat.toDigits 10 n) :
    48 ≤ c.toNat ∧ c.toNat ≤ 57 := by
  have hdigit := Nat.isDigit_of_mem_toDigits (by decide) (by decide) h
  simpa [Char.isDigit, UInt32.le_iff_toNat_le] using hdigit

private theorem toNat_digit {n : Nat} {c : Char} (h : c ∈ Nat.toDigits 10 n) :
    c.toNat.toUInt8.toNat = c.toNat := by
  have hv : c.toNat.toUInt8.toNat = c.toNat % 256 := UInt8.toNat_ofNat'
  rw [hv]
  have hle := (digit_bounds h).2
  omega

/-- The bytes of decimal digits. -/
theorem bounds_of_mem_decimal {n : Nat} {b : UInt8} (h : b ∈ decimal n) :
    48 ≤ b.toNat ∧ b.toNat ≤ 57 := by
  obtain ⟨c, hc, rfl⟩ := List.mem_map.mp h
  rw [toNat_digit hc]
  exact digit_bounds hc

/-- Decimal digits contain no slash. -/
theorem slash_not_mem_decimal (n : Nat) : slash ∉ decimal n := by
  intro h
  exact absurd (bounds_of_mem_decimal h).1 (by decide)

/-- Different numbers have different decimal digits. -/
theorem decimal_inj {n m : Nat} (h : decimal n = decimal m) : n = m := by
  have hread : ∀ k, (decimal k).map (fun b ↦ Char.ofNat b.toNat) = Nat.toDigits 10 k := by
    intro k
    rw [decimal, List.map_map]
    apply (List.map_congr_left (g := id) ?_).trans (List.map_id _)
    intro c hc
    rw [Function.comp_apply, toNat_digit hc, Char.ofNat_toNat, id]
  have hdigits : Nat.toDigits 10 n = Nat.toDigits 10 m := by rw [← hread, h, hread]
  have hvalue := Nat.ofDigitChars_toDigits (b := 10) (n := n) (by decide) (by decide)
  rw [hdigits, Nat.ofDigitChars_toDigits (by decide) (by decide)] at hvalue
  exact hvalue.symm

/-- A printed `int` contains no slash. -/
theorem slash_not_mem_intToString (v : Int) : slash ∉ intToString v := by
  unfold intToString
  split
  · intro h
    rcases List.mem_cons.mp h with he | he
    · exact absurd he (by decide)
    · exact slash_not_mem_decimal _ he
  · exact slash_not_mem_decimal _

/-- A printed `int` ends with a digit. -/
theorem exists_getLast?_intToString (v : Int) :
    ∃ b, (intToString v).getLast? = some b ∧ 48 ≤ b.toNat ∧ b.toNat ≤ 57 := by
  have hdecimal (n : Nat) : ∃ b, (decimal n).getLast? = some b ∧ 48 ≤ b.toNat ∧ b.toNat ≤ 57 := by
    have hne : decimal n ≠ [] := by
      rw [decimal, Ne, List.map_eq_nil_iff]
      exact Nat.toDigits_ne_nil
    exact ⟨(decimal n).getLast hne, List.getLast?_eq_some_getLast hne,
      bounds_of_mem_decimal (List.getLast_mem hne)⟩
  obtain ⟨b, hb, hdigit⟩ := hdecimal v.natAbs
  unfold intToString
  split
  · rw [List.getLast?_cons, hb]
    exact ⟨b, rfl, hdigit⟩
  · exact ⟨b, hb, hdigit⟩

end NetBridge.Base
