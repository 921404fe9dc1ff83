import NetBridge.Base.Bytes

/-!
# UTF-8

Texts of characters as byte strings. A character that is no ASCII character has no ASCII byte, so
that bytes of ASCII characters can be looked for in either form.
-/

namespace NetBridge.Base

/-- The bytes of a text. -/
def utf8 (text : List Char) : Bytes := text.flatMap String.utf8EncodeChar

/-- The text of a byte string, if it has one. -/
def decodeUtf8 (bytes : Bytes) : Option (List Char) :=
  bytes.toByteArray.utf8Decode?.map Array.toList

/-- The empty text has no bytes. -/
@[simp] theorem utf8_nil : utf8 [] = [] := rfl

/-- The bytes of the first character come first. -/
@[simp] theorem utf8_cons (c : Char) (text : List Char) :
    utf8 (c :: text) = String.utf8EncodeChar c ++ utf8 text := rfl

/-- Two texts are encoded one behind the other. -/
@[simp] theorem utf8_append (text text' : List Char) :
    utf8 (text ++ text') = utf8 text ++ utf8 text' := List.flatMap_append

/-- What a text is encoded to is decoded to the text. -/
@[simp] theorem decodeUtf8_utf8 (text : List Char) : decodeUtf8 (utf8 text) = some text := by
  have h : (utf8 text).toByteArray.utf8Decode? = some text.toArray :=
    List.utf8Decode?_utf8Encode
  rw [decodeUtf8, h, Option.map_some]

/-- What is decoded is what was encoded. -/
theorem isSome_decodeUtf8_iff {bytes : Bytes} :
    (decodeUtf8 bytes).isSome ↔ ∃ text, utf8 text = bytes := by
  rw [decodeUtf8, Option.isSome_map, ByteArray.isSome_utf8Decode?_iff]
  constructor
  · rintro ⟨text, h⟩
    have hdata := congrArg (fun bytes ↦ bytes.data.toList) h
    simp only [List.utf8Encode, List.data_toByteArray] at hdata
    exact ⟨text, hdata.symm⟩
  · rintro ⟨text, rfl⟩
    exact ⟨text, rfl⟩

/-- An ASCII byte of a character is all of its bytes. -/
theorem utf8EncodeChar_of_mem {c : Char} {b : UInt8} (hb : b ∈ String.utf8EncodeChar c)
    (hascii : b.toNat < 128) : String.utf8EncodeChar c = [b] ∧ c.toNat = b.toNat := by
  have hlead : ∀ n mask : Nat, 128 ≤ mask → n + mask < 256 → b ≠ UInt8.ofNat (n + mask) := by
    intro n mask hmask hlt he
    rw [he, UInt8.toNat_ofNat', Nat.mod_eq_of_lt hlt] at hascii
    omega
  unfold String.utf8EncodeChar at hb ⊢
  dsimp only at hb ⊢
  split at hb
  · next hsmall =>
    rw [List.mem_singleton] at hb
    have hvalue : b.toNat = c.val.toNat := by
      rw [hb, UInt8.toNat_ofNat', Nat.mod_eq_of_lt (by omega)]
    rw [if_pos hsmall, ← hb]
    exact ⟨rfl, hvalue.symm⟩
  · split at hb
    · simp only [List.mem_cons, List.not_mem_nil, or_false] at hb
      rcases hb with hb | hb
      · exact absurd hb (hlead _ _ (by decide) (by omega))
      · exact absurd hb (hlead _ _ (by decide) (by omega))
    · split at hb
      · simp only [List.mem_cons, List.not_mem_nil, or_false] at hb
        rcases hb with hb | hb | hb
        · exact absurd hb (hlead _ _ (by decide) (by omega))
        · exact absurd hb (hlead _ _ (by decide) (by omega))
        · exact absurd hb (hlead _ _ (by decide) (by omega))
      · simp only [List.mem_cons, List.not_mem_nil, or_false] at hb
        rcases hb with hb | hb | hb | hb
        · exact absurd hb (hlead _ _ (by decide) (by omega))
        · exact absurd hb (hlead _ _ (by decide) (by omega))
        · exact absurd hb (hlead _ _ (by decide) (by omega))
        · exact absurd hb (hlead _ _ (by decide) (by omega))

/-- An ASCII character is encoded to its one byte. -/
theorem utf8EncodeChar_of_ascii {c : Char} (hascii : c.toNat < 128) :
    String.utf8EncodeChar c = [c.toNat.toUInt8] := by
  unfold String.utf8EncodeChar
  exact if_pos (Nat.le_of_lt_succ hascii)

/-- An ASCII character stands in a text where its byte stands in the bytes. -/
theorem mem_utf8_iff {c : Char} (hascii : c.toNat < 128) {text : List Char} :
    c.toNat.toUInt8 ∈ utf8 text ↔ c ∈ text := by
  have hbyte : c.toNat.toUInt8.toNat = c.toNat := by
    rw [UInt8.toNat_ofNat', Nat.mod_eq_of_lt (by omega)]
  rw [utf8, List.mem_flatMap]
  constructor
  · rintro ⟨d, hd, hmem⟩
    have he : d.toNat = c.toNat := by
      rw [(utf8EncodeChar_of_mem hmem (by omega)).2, hbyte]
    rwa [← Char.ofNat_toNat c, ← he, Char.ofNat_toNat]
  · intro hc
    refine ⟨c, hc, ?_⟩
    rw [utf8EncodeChar_of_ascii hascii]
    exact List.mem_singleton_self _

/-- An ASCII byte in the bytes of a text stands between the bytes of two texts. -/
theorem exists_utf8_of_append {text : List Char} (front : Bytes) {behind : Bytes} {b : UInt8}
    (hascii : b.toNat < 128) (h : utf8 text = front ++ b :: behind) :
    (∃ text', utf8 text' = front) ∧ ∃ text', utf8 text' = behind := by
  induction text generalizing front with
  | nil => exact absurd h (by simp)
  | cons c text ih =>
    rw [utf8_cons, List.append_eq_append_iff] at h
    rcases h with ⟨middle, hfront, hrest⟩ | ⟨middle, hchar, hrest⟩
    · obtain ⟨⟨text', hmiddle⟩, hbehind⟩ := ih middle hrest
      refine ⟨⟨c :: text', ?_⟩, hbehind⟩
      rw [utf8_cons, hmiddle, hfront]
    · cases middle with
      | nil =>
        rw [List.append_nil] at hchar
        obtain ⟨-, hbehind⟩ := ih [] hrest.symm
        refine ⟨⟨[c], ?_⟩, hbehind⟩
        rw [utf8_cons, utf8_nil, List.append_nil, hchar]
      | cons b' middle =>
        obtain ⟨rfl, hbehind⟩ := List.cons_eq_cons.mp hrest
        have hmem : b ∈ String.utf8EncodeChar c := by
          rw [hchar]
          exact List.mem_append_right front List.mem_cons_self
        -- the byte is the whole character
        rw [(utf8EncodeChar_of_mem hmem hascii).1] at hchar
        have hfront : front = [] ∧ middle = [] := by
          have hlength := congrArg List.length hchar
          simp only [List.length_append, List.length_cons, List.length_nil] at hlength
          constructor
          · exact List.eq_nil_of_length_eq_zero (by omega)
          · exact List.eq_nil_of_length_eq_zero (by omega)
        rw [hfront.2] at hbehind
        exact ⟨⟨[], hfront.1.symm⟩, text, hbehind.symm⟩

/-- An ASCII byte may stand between texts, and only there. -/
theorem isSome_decodeUtf8_append (front behind : Bytes) {b : UInt8} (hascii : b.toNat < 128) :
    (decodeUtf8 (front ++ b :: behind)).isSome ↔
      (decodeUtf8 front).isSome ∧ (decodeUtf8 behind).isSome := by
  rw [isSome_decodeUtf8_iff, isSome_decodeUtf8_iff, isSome_decodeUtf8_iff]
  constructor
  · rintro ⟨text, h⟩
    exact exists_utf8_of_append front hascii h
  · rintro ⟨⟨text, rfl⟩, text', rfl⟩
    refine ⟨text ++ Char.ofNat b.toNat :: text', ?_⟩
    have hchar : String.utf8EncodeChar (Char.ofNat b.toNat) = [b] := by
      have hvalid : b.toNat.isValidChar := Or.inl (by omega)
      have hnat : (Char.ofNat b.toNat).toNat = b.toNat := by
        rw [Char.ofNat, dif_pos hvalid]
        rfl
      rw [utf8EncodeChar_of_ascii (by omega), hnat]
      exact congrArg (List.cons · []) (UInt8.ofNat_toNat (x := b))
    rw [utf8_append, utf8_cons, hchar, List.singleton_append]

end NetBridge.Base
