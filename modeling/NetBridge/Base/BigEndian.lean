import Mathlib.Algebra.Group.Nat.Defs

/-!
# Big-endian words

Fixed-width big-endian encoding of natural numbers as byte lists, for any width.
Encoding and decoding are inverse on the values that fit and on the lists of the
right length.
-/

namespace NetBridge.Base

/-- The `n` big-endian bytes of `v`, most significant byte first. -/
def wordBytes : Nat → Nat → List UInt8
  | 0, _ => []
  | n + 1, v => UInt8.ofNat (v / 256 ^ n) :: wordBytes n v

/-- The number read from big-endian bytes on top of the digits in `acc`. -/
def wordFold (acc : Nat) (bytes : List UInt8) : Nat :=
  bytes.foldl (fun r b ↦ r * 256 + b.toNat) acc

/-- The number a big-endian byte list denotes. -/
def wordValue (bytes : List UInt8) : Nat := wordFold 0 bytes

/-- A width-`n` word has `n` bytes. -/
@[simp] theorem length_wordBytes (n v : Nat) : (wordBytes n v).length = n := by
  induction n with
  | zero => rfl
  | succ n ih => simp [wordBytes, ih]

/-- The accumulator is shifted by the number of bytes that follow. -/
theorem wordFold_eq (acc : Nat) (bytes : List UInt8) :
    wordFold acc bytes = acc * 256 ^ bytes.length + wordFold 0 bytes := by
  induction bytes generalizing acc with
  | nil => simp [wordFold]
  | cons b bs ih =>
    have hs : ∀ a, wordFold a (b :: bs) = wordFold (a * 256 + b.toNat) bs := fun _ ↦ rfl
    rw [hs, hs, ih (acc * 256 + b.toNat), ih (0 * 256 + b.toNat), List.length_cons, Nat.pow_succ,
      Nat.add_mul, Nat.zero_mul, Nat.zero_add]
    rw [Nat.mul_assoc, Nat.mul_comm 256, Nat.add_assoc]

/-- The leading byte weighs `256` to the number of bytes behind it. -/
theorem wordValue_cons (b : UInt8) (bs : List UInt8) :
    wordValue (b :: bs) = b.toNat * 256 ^ bs.length + wordValue bs := by
  have hs : wordValue (b :: bs) = wordFold (0 * 256 + b.toNat) bs := rfl
  rw [hs, Nat.zero_mul, Nat.zero_add, wordFold_eq]
  rfl

/-- A big-endian list of `n` bytes denotes a number below `256 ^ n`. -/
theorem wordValue_lt (bytes : List UInt8) : wordValue bytes < 256 ^ bytes.length := by
  induction bytes with
  | nil => simp [wordValue, wordFold]
  | cons b bs ih =>
    rw [wordValue_cons, List.length_cons, Nat.pow_succ]
    have hb : b.toNat ≤ 255 := Nat.le_of_lt_succ b.toNat_lt
    calc b.toNat * 256 ^ bs.length + wordValue bs
        < b.toNat * 256 ^ bs.length + 256 ^ bs.length := Nat.add_lt_add_left ih _
      _ = (b.toNat + 1) * 256 ^ bs.length := (Nat.succ_mul _ _).symm
      _ ≤ 256 * 256 ^ bs.length := Nat.mul_le_mul_right _ (by omega)
      _ = 256 ^ bs.length * 256 := Nat.mul_comm _ _

/-- Byte `i` of a width-`n` word is its digit of weight `256 ^ (n - i - 1)`. -/
theorem getElem_wordBytes (n v i : Nat) (h : i < (wordBytes n v).length) :
    (wordBytes n v)[i] = UInt8.ofNat (v / 256 ^ (n - i - 1)) := by
  induction n generalizing i with
  | zero => exact absurd h (by simp [wordBytes])
  | succ n ih =>
    cases i with
    | zero => simp only [wordBytes, List.getElem_cons_zero, Nat.sub_zero, Nat.add_sub_cancel]
    | succ i =>
      simp only [wordBytes, List.getElem_cons_succ]
      rw [ih, Nat.add_sub_add_right]

/-- Decoding a width-`n` word recovers the value modulo `256 ^ n`. -/
theorem wordValue_wordBytes (n v : Nat) : wordValue (wordBytes n v) = v % 256 ^ n := by
  induction n with
  | zero => simp [wordBytes, wordValue, wordFold, Nat.mod_one]
  | succ n ih =>
    rw [wordBytes, wordValue_cons, ih, length_wordBytes, Nat.pow_succ, Nat.mod_mul]
    have hb : (UInt8.ofNat (v / 256 ^ n)).toNat = v / 256 ^ n % 256 := UInt8.toNat_ofNat
    rw [hb, Nat.mul_comm, Nat.add_comm]

/-- A value that fits its width survives the round trip. -/
theorem wordValue_wordBytes_of_lt {n v : Nat} (h : v < 256 ^ n) :
    wordValue (wordBytes n v) = v := by
  rw [wordValue_wordBytes, Nat.mod_eq_of_lt h]

/-- A width-`n` word ignores the digits above its width. -/
theorem wordBytes_mod (n m v : Nat) (h : n ≤ m) : wordBytes n (v % 256 ^ m) = wordBytes n v := by
  induction n with
  | zero => rfl
  | succ n ih =>
    have hm : m = n + (m - n - 1) + 1 := by omega
    have hd : v % 256 ^ m / 256 ^ n % 256 = v / 256 ^ n % 256 := by
      rw [hm, Nat.pow_succ, Nat.pow_add, Nat.mul_assoc, Nat.mod_mul_right_div_self,
        Nat.mul_comm (256 ^ (m - n - 1)), Nat.mod_mul_right_mod]
    have hb : UInt8.ofNat (v % 256 ^ m / 256 ^ n) = UInt8.ofNat (v / 256 ^ n) := by
      apply UInt8.toNat_inj.mp
      rw [UInt8.toNat_ofNat', UInt8.toNat_ofNat']
      exact hd
    rw [wordBytes, wordBytes, hb, ih (by omega)]

/-- Re-encoding the value of `n` bytes gives the same bytes. -/
theorem wordBytes_wordValue (bytes : List UInt8) :
    wordBytes bytes.length (wordValue bytes) = bytes := by
  induction bytes with
  | nil => rfl
  | cons b bs ih =>
    have hp : 0 < 256 ^ bs.length := Nat.pow_pos (by decide)
    have hv : wordValue (b :: bs) / 256 ^ bs.length = b.toNat := by
      rw [wordValue_cons, Nat.mul_comm, Nat.mul_add_div hp, Nat.div_eq_of_lt (wordValue_lt bs),
        Nat.add_zero]
    have hm : wordValue (b :: bs) % 256 ^ bs.length = wordValue bs := by
      rw [wordValue_cons, Nat.mul_comm, Nat.mul_add_mod, Nat.mod_eq_of_lt (wordValue_lt bs)]
    rw [List.length_cons, wordBytes, hv, UInt8.ofNat_toNat]
    rw [← wordBytes_mod _ _ _ (Nat.le_refl bs.length), hm, ih]

/-- A byte list of the right length is the encoding of exactly the value it denotes. -/
theorem wordBytes_eq_iff {n v : Nat} {bytes : List UInt8} (hl : bytes.length = n)
    (hv : v < 256 ^ n) : wordBytes n v = bytes ↔ wordValue bytes = v := by
  constructor
  · intro h
    rw [← h, wordValue_wordBytes_of_lt hv]
  · intro h
    rw [← h, ← hl, wordBytes_wordValue]

end NetBridge.Base
