import NetBridge.Base.BigEndian

/-!
# Prefix codecs

A prefix codec pairs a writer with a reader that consumes exactly what the writer
produces and leaves the following bytes alone. Such codecs are prefix-free on their
valid values and compose by concatenation.
-/

namespace NetBridge.Base

/-- A writer and a reader of values of `α` at the front of a byte list. -/
structure Codec (α : Type) where
  /-- The values the writer can represent. -/
  valid : α → Prop
  write : α → List UInt8
  read : List UInt8 → Option (α × List UInt8)
  /-- The reader accepts exactly the written values and returns the bytes behind them. -/
  read_eq_some : ∀ cursor a rest,
    read cursor = some (a, rest) ↔ valid a ∧ cursor = write a ++ rest

namespace Codec

variable {α β : Type}

/-- Reading back what was written leaves the following bytes. -/
theorem read_write (c : Codec α) {a : α} (ha : c.valid a) (rest : List UInt8) :
    c.read (c.write a ++ rest) = some (a, rest) :=
  (c.read_eq_some _ _ _).mpr ⟨ha, rfl⟩

/-- A written value and the bytes behind it are determined by their concatenation. -/
theorem write_append_inj (c : Codec α) {a b : α} (ha : c.valid a) (hb : c.valid b)
    {rest rest' : List UInt8} (h : c.write a ++ rest = c.write b ++ rest') :
    a = b ∧ rest = rest' := by
  have hread := c.read_write ha rest
  rw [h, c.read_write hb] at hread
  cases hread
  exact ⟨rfl, rfl⟩

/-- One value behind another. -/
def seq (c : Codec α) (d : Codec β) : Codec (α × β) where
  valid p := c.valid p.1 ∧ d.valid p.2
  write p := c.write p.1 ++ d.write p.2
  read cursor := (c.read cursor).bind fun p ↦ (d.read p.2).bind fun q ↦ some ((p.1, q.1), q.2)
  read_eq_some := by
    rintro cursor ⟨a, b⟩ rest
    rw [Option.bind_eq_some_iff]
    constructor
    · rintro ⟨⟨a', mid⟩, hc, hrest⟩
      obtain ⟨⟨b', rest'⟩, hd, he⟩ := Option.bind_eq_some_iff.mp hrest
      cases he
      obtain ⟨ha, rfl⟩ := (c.read_eq_some _ _ _).mp hc
      obtain ⟨hb, hm⟩ := (d.read_eq_some _ _ _).mp hd
      exact ⟨⟨ha, hb⟩, by rw [List.append_assoc, ← hm]⟩
    · rintro ⟨⟨ha, hb⟩, rfl⟩
      refine ⟨(a, d.write b ++ rest), ?_, ?_⟩
      · rw [List.append_assoc, c.read_write ha]
      · rw [d.read_write hb]
        rfl

/-- A big-endian word of `n` bytes. -/
def word (n : Nat) : Codec Nat where
  valid v := v < 256 ^ n
  write v := wordBytes n v
  read cursor :=
    if cursor.length < n then none else some (wordValue (cursor.take n), cursor.drop n)
  read_eq_some := by
    intro cursor v rest
    split
    · next hl =>
      constructor
      · intro h
        cases h
      · rintro ⟨-, rfl⟩
        rw [List.length_append, length_wordBytes] at hl
        omega
    · next hl =>
      have ht : (cursor.take n).length = n := by rw [List.length_take]; omega
      constructor
      · intro h
        cases h
        have hv := wordValue_lt (cursor.take n)
        rw [ht] at hv
        refine ⟨hv, ?_⟩
        rw [(wordBytes_eq_iff ht hv).mpr rfl, List.take_append_drop]
      · rintro ⟨hv, rfl⟩
        rw [List.take_left' (length_wordBytes n v), List.drop_left' (length_wordBytes n v),
          wordValue_wordBytes_of_lt hv]

/-- A byte string behind its length, which is a big-endian word of `n` bytes. -/
def lengthPrefixed (n : Nat) : Codec (List UInt8) where
  valid s := s.length < 256 ^ n
  write s := wordBytes n s.length ++ s
  read cursor := ((word n).read cursor).bind fun p ↦
    if p.2.length < p.1 then none else some (p.2.take p.1, p.2.drop p.1)
  read_eq_some := by
    intro cursor s rest
    rw [Option.bind_eq_some_iff]
    constructor
    · rintro ⟨⟨len, mid⟩, hw, hrest⟩
      obtain ⟨hlen, rfl⟩ := ((word n).read_eq_some _ _ _).mp hw
      simp only at hrest
      split at hrest
      · cases hrest
      · next hl =>
        cases hrest
        have ht : (mid.take len).length = len := by rw [List.length_take]; omega
        refine ⟨by rw [ht]; exact hlen, ?_⟩
        rw [ht, List.append_assoc, List.take_append_drop]
        rfl
    · rintro ⟨hs, rfl⟩
      refine ⟨(s.length, s ++ rest), ?_, ?_⟩
      · rw [List.append_assoc]
        exact (word n).read_write hs _
      · rw [if_neg (by simp), List.take_left, List.drop_left]

/-- What a sequence of two codecs can write. -/
@[simp] theorem seq_valid (c : Codec α) (d : Codec β) (p : α × β) :
    (c.seq d).valid p ↔ c.valid p.1 ∧ d.valid p.2 := Iff.rfl

/-- A sequence of two codecs writes one part behind the other. -/
@[simp] theorem seq_write (c : Codec α) (d : Codec β) (p : α × β) :
    (c.seq d).write p = c.write p.1 ++ d.write p.2 := rfl

/-- A word of `n` bytes holds the numbers below `256 ^ n`. -/
@[simp] theorem word_valid (n v : Nat) : (word n).valid v ↔ v < 256 ^ n := Iff.rfl

/-- A word is written in big-endian order. -/
@[simp] theorem word_write (n v : Nat) : (word n).write v = wordBytes n v := rfl

/-- The length of a prefixed string fits its word. -/
@[simp] theorem lengthPrefixed_valid (n : Nat) (s : List UInt8) :
    (lengthPrefixed n).valid s ↔ s.length < 256 ^ n := Iff.rfl

/-- A prefixed string is written behind its length. -/
@[simp] theorem lengthPrefixed_write (n : Nat) (s : List UInt8) :
    (lengthPrefixed n).write s = wordBytes n s.length ++ s := rfl

end Codec
end NetBridge.Base
