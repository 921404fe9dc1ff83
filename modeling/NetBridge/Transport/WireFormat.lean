import NetBridge.Base.Codec
import NetBridge.Transport.Envelope

/-!
# The `NBZ1` wire format

A frame is a concatenation of prefix codecs. `encodeEnvelope` writes exactly the frame of
an envelope that fits the format, and `decodeEnvelope` accepts exactly such frames,
with any value in the reserved byte.
-/

namespace NetBridge.Transport

open NetBridge.Base

/-- The length and version bounds of the format. -/
structure TransportEnvelope.Fits (e : TransportEnvelope) : Prop where
  version : e.protocolVersion = kBridgeProtocolVersion
  sourceHost : e.sourceHost.length ≤ 65535
  rosType : e.rosType.length ≤ 65535
  rosMd5 : e.rosMd5.length ≤ 65535
  frameId : e.frameId.length ≤ 65535
  payload : e.payload.length ≤ kMaxEnvelopePayloadBytes

/-- The fixed-width words behind the magic: version, payload kind, reserved flags, sequence,
source time, header sequence. -/
def headerCodec : Codec (Nat × Nat × Nat × Nat × Nat × Nat) :=
  (Codec.word 2).seq ((Codec.word 1).seq ((Codec.word 1).seq
    ((Codec.word 8).seq ((Codec.word 8).seq (Codec.word 4)))))

/-- The four metadata strings. -/
def metadataCodec : Codec (Bytes × Bytes × Bytes × Bytes) :=
  (Codec.lengthPrefixed 2).seq ((Codec.lengthPrefixed 2).seq
    ((Codec.lengthPrefixed 2).seq (Codec.lengthPrefixed 2)))

/-- The header words of an envelope. -/
def TransportEnvelope.header (e : TransportEnvelope) (flags : UInt8) :
    Nat × Nat × Nat × Nat × Nat × Nat :=
  (e.protocolVersion.toNat, e.payloadKind.toUInt8.toNat, flags.toNat, e.sequence.toNat,
    e.sourceTimeNs.toUInt64.toNat, e.sourceHeaderSequence.toNat)

/-- The metadata strings of an envelope. -/
def TransportEnvelope.metadata (e : TransportEnvelope) : Bytes × Bytes × Bytes × Bytes :=
  (e.sourceHost, e.rosType, e.rosMd5, e.frameId)

/-- The frame of an envelope with a given reserved byte. -/
def frame (flags : UInt8) (e : TransportEnvelope) : Bytes :=
  kMagic ++ (headerCodec.write (e.header flags) ++ (metadataCodec.write e.metadata ++
    (wordBytes 4 e.payload.length ++ e.payload)))

/-! ## The reading and writing loops as codecs -/

private theorem shifted_byte (value k : Nat) :
    UInt8.ofNat (value >>> (k * 8) &&& 0xff) = UInt8.ofNat (value / 256 ^ k) := by
  apply UInt8.toNat_inj.mp
  rw [UInt8.toNat_ofNat', UInt8.toNat_ofNat', Nat.shiftRight_eq_div_pow, Nat.mul_comm,
    Nat.pow_mul]
  have hm : ∀ x : Nat, x &&& 0xff = x % 2 ^ 8 := fun x ↦ Nat.and_two_pow_sub_one_eq_mod x 8
  rw [hm, Nat.mod_mod]

private theorem append_loop (size value n : Nat) (output : Bytes) (h : n ≤ size) :
    (List.range n).foldl
        (fun output i ↦ output ++ [UInt8.ofNat (value >>> ((size - i - 1) * 8) &&& 0xff)]) output =
      output ++ (wordBytes size value).take n := by
  induction n with
  | zero => simp
  | succ n ih =>
    rw [List.range_succ, List.foldl_append, ih (by omega)]
    have hn : n < (wordBytes size value).length := by rw [length_wordBytes]; omega
    have hb : (wordBytes size value)[n] = UInt8.ofNat (value / 256 ^ (size - n - 1)) :=
      getElem_wordBytes size value n hn
    rw [List.foldl_cons, List.foldl_nil, shifted_byte, List.append_assoc, ← hb,
      List.take_append_getElem hn]

/-- `appendUnsigned` appends the big-endian word. -/
theorem appendUnsigned_eq (size value : Nat) (output : Bytes) :
    appendUnsigned size value output = output ++ wordBytes size value := by
  rw [appendUnsigned, append_loop _ _ _ _ (Nat.le_refl size),
    List.take_of_length_le (Nat.le_of_eq (length_wordBytes size value))]

private theorem read_loop (size : Nat) (bytes : Bytes) (acc : Nat)
    (h : acc * 256 ^ bytes.length + wordValue bytes < 256 ^ size) :
    bytes.foldl (fun result byte ↦ (result <<< 8 ||| byte.toNat) % 2 ^ (8 * size)) acc =
      acc * 256 ^ bytes.length + wordValue bytes := by
  induction bytes generalizing acc with
  | nil => simp [wordValue, wordFold]
  | cons b bs ih =>
    have hp : 0 < 256 ^ bs.length := Nat.pow_pos (by decide)
    have hv : acc * 256 ^ (b :: bs).length + wordValue (b :: bs) =
        (acc * 256 + b.toNat) * 256 ^ bs.length + wordValue bs := by
      rw [wordValue_cons, List.length_cons, Nat.pow_succ, Nat.add_mul, Nat.mul_assoc,
        Nat.mul_comm 256, Nat.add_assoc]
    rw [hv] at h ⊢
    have hd : acc <<< 8 ||| b.toNat = acc * 256 + b.toNat := by
      rw [← Nat.shiftLeft_add_eq_or_of_lt b.toNat_lt, Nat.shiftLeft_eq]
    have hlt : acc * 256 + b.toNat < 2 ^ (8 * size) := by
      rw [Nat.pow_mul]
      calc acc * 256 + b.toNat
          ≤ (acc * 256 + b.toNat) * 256 ^ bs.length := Nat.le_mul_of_pos_right _ hp
        _ ≤ (acc * 256 + b.toNat) * 256 ^ bs.length + wordValue bs := Nat.le_add_right _ _
        _ < 256 ^ size := h
    rw [List.foldl_cons, hd, Nat.mod_eq_of_lt hlt]
    exact ih _ h

/-- `readUnsigned` is the reader of the big-endian word. -/
theorem readUnsigned_eq (size : Nat) (cursor : Bytes) :
    readUnsigned size cursor = (Codec.word size).read cursor := by
  unfold readUnsigned Codec.word
  dsimp only
  split
  · rfl
  · next h =>
    have ht : (cursor.take size).length = size := by rw [List.length_take]; omega
    have hv := wordValue_lt (cursor.take size)
    rw [ht] at hv
    rw [read_loop size (cursor.take size) 0 (by rw [Nat.zero_mul, Nat.zero_add]; exact hv),
      Nat.zero_mul, Nat.zero_add]

/-- `readString` is the reader of a string behind a two-byte length. -/
theorem readString_eq (cursor : Bytes) :
    readString cursor = (Codec.lengthPrefixed 2).read cursor := by
  unfold readString
  rw [readUnsigned_eq]
  show _ = ((Codec.word 2).read cursor).bind _
  cases (Codec.word 2).read cursor <;> rfl

/-- `readHeader` is the reader of the header words. -/
theorem readHeader_eq (cursor : Bytes) : readHeader cursor = headerCodec.read cursor := by
  simp only [readHeader, readUnsigned_eq, headerCodec, Codec.seq, Option.bind_eq_bind,
    Option.bind_assoc, Option.bind_some]

/-- `readMetadata` is the reader of the metadata strings. -/
theorem readMetadata_eq (cursor : Bytes) : readMetadata cursor = metadataCodec.read cursor := by
  simp only [readMetadata, readString_eq, metadataCodec, Codec.seq, Option.bind_eq_bind,
    Option.bind_assoc, Option.bind_some]

/-- A text that is not empty is reported as such. -/
theorem setError_ne_nil {text : String} (h : ascii text ≠ []) (error : Option Bytes) :
    setError text error ≠ some [] := by
  cases error with
  | none => simp [setError]
  | some error => simpa [setError] using h

/-! ## Encoding -/

private theorem appendStrings_of_fit (values : List Bytes) (output : Bytes)
    (error : Option Bytes) (h : ∀ s ∈ values, s.length ≤ 65535) :
    appendStrings values output error =
      (true, output ++ values.flatMap (Codec.lengthPrefixed 2).write, error) := by
  induction values generalizing output with
  | nil => simp [appendStrings]
  | cons s values ih =>
    have hs : ¬s.length > 65535 := by
      have := h s (by simp)
      omega
    rw [appendStrings, appendString, if_neg hs]
    show appendStrings values _ error = _
    rw [ih _ (fun t ht ↦ h t (by simp [ht])), appendUnsigned_eq]
    simp

private theorem appendStrings_of_long (values : List Bytes) (output : Bytes)
    (error : Option Bytes) (h : ∃ s ∈ values, s.length > 65535) :
    (appendStrings values output error).1 = false ∧
      (appendStrings values output error).2.2 =
        setError "envelope string exceeds uint16 length" error := by
  induction values generalizing output with
  | nil => simp at h
  | cons s values ih =>
    rw [appendStrings, appendString]
    by_cases hs : s.length > 65535
    · rw [if_pos hs]
      exact ⟨rfl, rfl⟩
    · rw [if_neg hs]
      apply ih
      obtain ⟨t, ht, hl⟩ := h
      rcases List.mem_cons.mp ht with he | hm
      · rw [he] at hl
        exact absurd hl hs
      · exact ⟨t, hm, hl⟩

/-- An envelope that fits the format is written as its frame with a zero reserved byte. -/
theorem encodeEnvelope_of_fits (e : TransportEnvelope) (h : e.Fits) (output : Bytes)
    (error : Option Bytes) :
    encodeEnvelope e (some output) error = (true, some (frame 0 e), error) := by
  have hp : ¬(e.payload.length > kMaxEnvelopePayloadBytes ∨ e.payload.length > 4294967295) := by
    have := h.payload
    unfold kMaxEnvelopePayloadBytes at *
    omega
  have hs : ∀ s ∈ [e.sourceHost, e.rosType, e.rosMd5, e.frameId], s.length ≤ 65535 := by
    simp only [List.forall_mem_cons]
    exact ⟨h.sourceHost, h.rosType, h.rosMd5, h.frameId, by simp⟩
  unfold encodeEnvelope
  dsimp only
  rw [if_neg (Classical.not_not.mpr h.version), if_neg hp, appendStrings_of_fit _ _ _ hs]
  simp only [appendUnsigned_eq, frame, headerCodec, metadataCodec, TransportEnvelope.header,
    TransportEnvelope.metadata, Codec.seq_write, Codec.word_write, List.append_assoc,
    List.flatMap_cons, List.flatMap_nil, List.append_nil, wordBytes, Nat.pow_zero, Nat.div_one,
    UInt8.ofNat_toNat, List.cons_append, List.nil_append]

/-- The encoder's error texts. -/
def encodeErrors : List String :=
  ["unsupported envelope protocol version", "envelope payload exceeds configured limit",
    "envelope string exceeds uint16 length", "output is null"]

/-- The encoder's texts are not empty. -/
theorem encodeErrors_ne_nil : ∀ text ∈ encodeErrors, ascii text ≠ [] := by decide

/-- Outside the length and version bounds encoding fails with one of the encoder's texts,
whatever the output holds. -/
theorem encodeEnvelope_rejected (e : TransportEnvelope) (h : ¬e.Fits)
    (output error : Option Bytes) : ∃ text ∈ encodeErrors,
      (encodeEnvelope e output error).1 = false ∧
        (encodeEnvelope e output error).2.2 = setError text error := by
  unfold encodeEnvelope
  cases output with
  | none => exact ⟨_, by decide, rfl, rfl⟩
  | some output =>
    dsimp only
    split
    · exact ⟨_, by decide, rfl, rfl⟩
    · next hv =>
      split
      · exact ⟨_, by decide, rfl, rfl⟩
      · next hp =>
        have hl : ∃ s ∈ [e.sourceHost, e.rosType, e.rosMd5, e.frameId], s.length > 65535 := by
          apply Classical.byContradiction
          intro hn
          apply h
          have hs : ∀ s ∈ [e.sourceHost, e.rosType, e.rosMd5, e.frameId], s.length ≤ 65535 :=
            fun s hm ↦ Nat.le_of_not_lt fun hg ↦ hn ⟨s, hm, hg⟩
          exact ⟨Classical.not_not.mp hv, hs _ (by simp), hs _ (by simp), hs _ (by simp),
            hs _ (by simp), by omega⟩
        have hf := fun header ↦ appendStrings_of_long _ header error hl
        have hc := hf (appendUnsigned 4 e.sourceHeaderSequence.toNat (appendUnsigned 8
          e.sourceTimeNs.toUInt64.toNat (appendUnsigned 8 e.sequence.toNat (appendUnsigned 2
            e.protocolVersion.toNat kMagic ++ [e.payloadKind.toUInt8] ++ [0]))))
        split
        · next heq =>
          rw [heq] at hc
          exact ⟨_, by decide, rfl, hc.2⟩
        · next heq =>
          rw [heq] at hc
          exact absurd hc.1 (by simp)

/-- Outside the length and version bounds encoding fails. -/
theorem encodeEnvelope_of_not_fits (e : TransportEnvelope) (h : ¬e.Fits)
    (output error : Option Bytes) : (encodeEnvelope e output error).1 = false := by
  obtain ⟨_, _, hf, _⟩ := encodeEnvelope_rejected e h output error
  exact hf

/-- A refused encoding leaves the output as it was, or empty. -/
theorem output_of_not_fits (e : TransportEnvelope) (h : ¬e.Fits) (output error : Option Bytes) :
    (encodeEnvelope e output error).2.1 = output ∨
      (encodeEnvelope e output error).2.1 = some [] := by
  have hfalse := encodeEnvelope_of_not_fits e h output error
  unfold encodeEnvelope at hfalse ⊢
  cases output with
  | none => exact Or.inl rfl
  | some output =>
    dsimp only at hfalse ⊢
    split
    · exact Or.inl rfl
    · split
      · exact Or.inl rfl
      · split
        · exact Or.inr rfl
        · next hversion hlimit _ _ _ heq =>
          rw [if_neg hversion, if_neg hlimit, heq] at hfalse
          cases hfalse

/-- Encoding succeeds exactly on the envelopes that fit the format. -/
theorem encodeEnvelope_ok_iff (e : TransportEnvelope) (output : Bytes) (error : Option Bytes) :
    (encodeEnvelope e (some output) error).1 = true ↔ e.Fits := by
  by_cases h : e.Fits
  · simp [encodeEnvelope_of_fits e h, h]
  · simp [encodeEnvelope_of_not_fits e h, h]

/-- What the encoder writes is the frame of an envelope that fits, with a zero reserved byte. -/
theorem frame_of_encodeEnvelope {e : TransportEnvelope} {output err err' : Option Bytes}
    {wire : Bytes} (h : encodeEnvelope e output err = (true, some wire, err')) :
    e.Fits ∧ wire = frame 0 e := by
  cases output with
  | none => simp [encodeEnvelope] at h
  | some output =>
    have hfits : e.Fits := (encodeEnvelope_ok_iff e output err).mp (by rw [h])
    rw [encodeEnvelope_of_fits e hfits] at h
    cases h
    exact ⟨hfits, rfl⟩

/-! ## Decoding -/

/-- Every payload kind survives the cast to its byte and back. -/
@[simp] theorem PayloadKind.ofUInt8_toUInt8 (k : PayloadKind) : ofUInt8 k.toUInt8 = k := by
  cases k <;> rfl

/-- Every payload kind passes the decoder's range check. -/
theorem PayloadKind.toUInt8_le (k : PayloadKind) :
    k.toUInt8.toNat ≤ serviceResponse.toUInt8.toNat := by
  cases k <;> decide

/-- A byte that passes the range check is the byte of the kind it is cast to. -/
theorem PayloadKind.toUInt8_ofUInt8 (v : Nat) (h : v ≤ serviceResponse.toUInt8.toNat) :
    (ofUInt8 (UInt8.ofNat v)).toUInt8.toNat = v := by
  have hv : v ≤ 4 := h
  match v, hv with
  | 0, _ | 1, _ | 2, _ | 3, _ | 4, _ => rfl

private theorem header_valid (e : TransportEnvelope) (flags : UInt8) :
    headerCodec.valid (e.header flags) :=
  ⟨e.protocolVersion.toNat_lt, e.payloadKind.toUInt8.toNat_lt, flags.toNat_lt,
    e.sequence.toNat_lt, e.sourceTimeNs.toUInt64.toNat_lt, e.sourceHeaderSequence.toNat_lt⟩

private theorem metadata_valid (e : TransportEnvelope) (h : e.Fits) :
    metadataCodec.valid e.metadata :=
  ⟨Nat.lt_succ_of_le h.sourceHost, Nat.lt_succ_of_le h.rosType, Nat.lt_succ_of_le h.rosMd5,
    Nat.lt_succ_of_le h.frameId⟩

private theorem payload_read (payload : Bytes) (h : payload.length ≤ kMaxEnvelopePayloadBytes) :
    (Codec.word 4).read (wordBytes 4 payload.length ++ payload) =
      some (payload.length, payload) := by
  apply (Codec.word 4).read_write
  show _ < 256 ^ 4
  unfold kMaxEnvelopePayloadBytes at h
  omega

/-- Decoding the frame of an envelope that fits yields the envelope, whatever the
reserved byte. -/
theorem decodeEnvelope_frame (e : TransportEnvelope) (h : e.Fits) (flags : UInt8)
    (prior : TransportEnvelope) (error : Option Bytes) :
    decodeEnvelope (some (frame flags e)) (some prior) error = (true, some e, error) := by
  have hm : ¬((frame flags e).length < kMagic.length ∨
      (frame flags e).take kMagic.length ≠ kMagic) := by
    rw [frame, List.take_left, List.length_append]
    simp
  have hd : (frame flags e).drop kMagic.length = headerCodec.write (e.header flags) ++
      (metadataCodec.write e.metadata ++ (wordBytes 4 e.payload.length ++ e.payload)) := by
    rw [frame, List.drop_left]
  unfold decodeEnvelope
  dsimp only
  rw [if_neg hm, hd, readHeader_eq, headerCodec.read_write (header_valid e flags)]
  simp only [TransportEnvelope.header, UInt16.ofNat_toNat]
  rw [if_neg (Classical.not_not.mpr h.version), if_neg (Nat.not_lt.mpr e.payloadKind.toUInt8_le),
    readMetadata_eq, metadataCodec.read_write (metadata_valid e h)]
  simp only [TransportEnvelope.metadata]
  rw [readUnsigned_eq, payload_read _ h.payload]
  simp only
  rw [if_neg (by simp [h.payload])]
  simp

/-- The envelope the decoder builds from checked header words, metadata and payload. -/
private def decoded (v k s t q : Nat) (m : Bytes × Bytes × Bytes × Bytes) (payload : Bytes) :
    TransportEnvelope where
  protocolVersion := UInt16.ofNat v
  payloadKind := PayloadKind.ofUInt8 (UInt8.ofNat k)
  sequence := UInt64.ofNat s
  sourceTimeNs := (UInt64.ofNat t).toInt64
  sourceHeaderSequence := UInt32.ofNat q
  sourceHost := m.1
  rosType := m.2.1
  rosMd5 := m.2.2.1
  frameId := m.2.2.2
  payload := payload

private theorem decoded_header {v k f s t q : Nat} (m : Bytes × Bytes × Bytes × Bytes)
    (payload : Bytes) (h : headerCodec.valid (v, k, f, s, t, q))
    (hk : k ≤ PayloadKind.serviceResponse.toUInt8.toNat) :
    (decoded v k s t q m payload).header (UInt8.ofNat f) = (v, k, f, s, t, q) := by
  obtain ⟨hv, -, hf, hs, ht, hq⟩ := h
  have e1 : (UInt16.ofNat v).toNat = v := UInt16.toNat_ofNat_of_lt' hv
  have e2 : (UInt8.ofNat f).toNat = f := UInt8.toNat_ofNat_of_lt' hf
  have e3 : (UInt64.ofNat s).toNat = s := UInt64.toNat_ofNat_of_lt' hs
  have e4 : (UInt64.ofNat t).toNat = t := UInt64.toNat_ofNat_of_lt' ht
  have e5 : (UInt32.ofNat q).toNat = q := UInt32.toNat_ofNat_of_lt' hq
  simp only [TransportEnvelope.header, decoded, UInt64.toUInt64_toInt64, e1, e2, e3, e4, e5,
    PayloadKind.toUInt8_ofUInt8 k hk]

private theorem decoded_fits {v k s t q : Nat} {m : Bytes × Bytes × Bytes × Bytes}
    {payload : Bytes} (hv : UInt16.ofNat v = kBridgeProtocolVersion)
    (hm : metadataCodec.valid m) (hp : payload.length ≤ kMaxEnvelopePayloadBytes) :
    (decoded v k s t q m payload).Fits := by
  obtain ⟨h1, h2, h3, h4⟩ := hm
  exact ⟨hv, Nat.le_of_lt_succ h1, Nat.le_of_lt_succ h2, Nat.le_of_lt_succ h3,
    Nat.le_of_lt_succ h4, hp⟩

/-- Whatever the decoder accepts is the frame of an envelope that fits, and it returns
that envelope. -/
theorem decodeEnvelope_sound (b : Bytes) (prior : TransportEnvelope) (error : Option Bytes)
    (h : (decodeEnvelope (some b) (some prior) error).1 = true) :
    ∃ e flags, e.Fits ∧ b = frame flags e ∧
      decodeEnvelope (some b) (some prior) error = (true, some e, error) := by
  unfold decodeEnvelope at h
  dsimp only at h
  split at h
  · exact absurd h (by simp)
  · next hmagic =>
    have hb : b = kMagic ++ b.drop kMagic.length := by
      have ht : b.take kMagic.length = kMagic :=
        Classical.not_not.mp fun hn ↦ hmagic (.inr hn)
      rw [← ht, List.length_take_of_le (by omega), List.take_append_drop]
    split at h
    · exact absurd h (by simp)
    · next v k f s t q cursor hhead =>
      rw [readHeader_eq] at hhead
      obtain ⟨hvalid, hcursor⟩ := (headerCodec.read_eq_some _ _ _).mp hhead
      split at h
      · exact absurd h (by simp)
      · next hver =>
        split at h
        · exact absurd h (by simp)
        · next hkind =>
          split at h
          · exact absurd h (by simp)
          · next host type md5 frameId cursor' hmeta =>
            rw [readMetadata_eq] at hmeta
            obtain ⟨hmvalid, hcursor'⟩ := (metadataCodec.read_eq_some _ _ _).mp hmeta
            split at h
            · exact absurd h (by simp)
            · next len payload hlen =>
              rw [readUnsigned_eq] at hlen
              obtain ⟨-, hpayload⟩ := ((Codec.word 4).read_eq_some _ _ _).mp hlen
              split at h
              · exact absurd h (by simp)
              · next hsize =>
                have hl : payload.length = len := Classical.not_not.mp fun hn ↦ hsize (.inr hn)
                have hfits : (decoded v k s t q (host, type, md5, frameId) payload).Fits :=
                  decoded_fits (Classical.not_not.mp hver) hmvalid (by omega)
                have hframe : b = frame (UInt8.ofNat f)
                    (decoded v k s t q (host, type, md5, frameId) payload) := by
                  rw [frame, decoded_header _ _ hvalid (Nat.not_lt.mp hkind), hb, hcursor,
                    hcursor', hpayload, ← hl]
                  rfl
                refine ⟨_, _, hfits, hframe, ?_⟩
                rw [hframe]
                exact decodeEnvelope_frame _ hfits _ _ _

/-- The decoder's error texts. -/
def decodeErrors : List String :=
  ["invalid envelope magic", "truncated envelope header",
    "unsupported envelope protocol version", "invalid envelope payload kind",
    "truncated envelope metadata", "invalid or truncated envelope payload"]

/-- The decoder's texts are not empty. -/
theorem decodeErrors_ne_nil : ∀ text ∈ decodeErrors, ascii text ≠ [] := by decide

/-- A rejected byte range leaves the output envelope as it was and reports one of the
decoder's texts. -/
theorem decodeEnvelope_rejected (b : Bytes) (prior : TransportEnvelope) (error : Option Bytes)
    (h : (decodeEnvelope (some b) (some prior) error).1 = false) :
    ∃ text ∈ decodeErrors,
      decodeEnvelope (some b) (some prior) error = (false, some prior, setError text error) := by
  unfold decodeEnvelope at h ⊢
  dsimp only at h ⊢
  split at h
  · next hmagic => exact ⟨_, by decide, if_pos hmagic⟩
  · next hmagic =>
    rw [if_neg hmagic]
    split at h
    · exact ⟨_, by decide, rfl⟩
    · split at h
      · next hver => exact ⟨_, by decide, if_pos hver⟩
      · next hver =>
        rw [if_neg hver]
        split at h
        · next hkind => exact ⟨_, by decide, if_pos hkind⟩
        · next hkind =>
          rw [if_neg hkind]
          split at h
          · exact ⟨_, by decide, rfl⟩
          · split at h
            · exact ⟨_, by decide, rfl⟩
            · split at h
              · next hsize => exact ⟨_, by decide, if_pos hsize⟩
              · exact absurd h (by simp)

/-- The decoder accepts exactly the frames of envelopes that fit, with any reserved byte. -/
theorem decodeEnvelope_ok_iff (b : Bytes) (prior : TransportEnvelope) (error : Option Bytes) :
    (decodeEnvelope (some b) (some prior) error).1 = true ↔
      ∃ e flags, e.Fits ∧ b = frame flags e := by
  constructor
  · intro h
    obtain ⟨e, flags, hf, hb, -⟩ := decodeEnvelope_sound b prior error h
    exact ⟨e, flags, hf, hb⟩
  · intro h
    obtain ⟨e, flags, hf, hb⟩ := h
    rw [hb, decodeEnvelope_frame e hf]

/-- A decoded envelope determines the frame up to its reserved byte. -/
theorem decodeEnvelope_eq_some_iff {b : Bytes} {prior e : TransportEnvelope}
    {error error' : Option Bytes} :
    decodeEnvelope (some b) (some prior) error = (true, some e, error') ↔
      error' = error ∧ e.Fits ∧ ∃ flags, b = frame flags e := by
  constructor
  · intro h
    obtain ⟨e', flags, hfits, hb, hdecode⟩ := decodeEnvelope_sound b prior error (by rw [h])
    rw [h] at hdecode
    cases hdecode
    exact ⟨rfl, hfits, flags, hb⟩
  · rintro ⟨rfl, hfits, flags, rfl⟩
    exact decodeEnvelope_frame e hfits flags prior error'

/-! ## Frames -/

/-- A frame is 40 bytes of fixed parts and the five variable parts. -/
theorem length_frame (flags : UInt8) (e : TransportEnvelope) :
    (frame flags e).length = 40 + (e.sourceHost.length + e.rosType.length + e.rosMd5.length +
      e.frameId.length + e.payload.length) := by
  have hm : kMagic.length = 4 := rfl
  simp only [frame, headerCodec, metadataCodec, TransportEnvelope.header,
    TransportEnvelope.metadata, Codec.seq_write, Codec.word_write, Codec.lengthPrefixed_write,
    List.length_append, length_wordBytes, hm]
  omega

/-- Byte 7 of a frame is its reserved byte, and the other bytes do not depend on it. -/
theorem set_frame (flags flags' : UInt8) (e : TransportEnvelope) :
    (frame flags e).set 7 flags' = frame flags' e := by
  have hm : kMagic = [78, 66, 90, 49] := rfl
  have hb : ∀ f : UInt8, UInt8.ofNat (f.toNat / 256 ^ 0) = f := fun f ↦ by
    rw [Nat.pow_zero, Nat.div_one, UInt8.ofNat_toNat]
  simp only [frame, headerCodec, TransportEnvelope.header, Codec.seq_write, Codec.word_write,
    hm, wordBytes, hb, List.cons_append, List.nil_append, List.set_cons_succ,
    List.set_cons_zero]

/-- Two envelopes that fit have the same frame up to the reserved byte only if they are equal. -/
theorem frame_inj {flags flags' : UInt8} {e e' : TransportEnvelope} (h : e.Fits) (h' : e'.Fits)
    (heq : frame flags e = frame flags' e') : e = e' := by
  have hd := decodeEnvelope_frame e h flags {} none
  rw [heq, decodeEnvelope_frame e' h' flags' {} none] at hd
  simpa using hd.symm

/-- A frame is the only one at the front of the bytes that begin with it. -/
theorem frame_append_inj {flags flags' : UInt8} {e e' : TransportEnvelope} (h : e.Fits)
    (h' : e'.Fits) {rest rest' : Bytes}
    (heq : frame flags e ++ rest = frame flags' e' ++ rest') : rest = rest' := by
  have hlength : ∀ {e : TransportEnvelope}, e.Fits → e.payload.length < 256 ^ 4 := by
    intro e he
    exact Nat.lt_of_le_of_lt he.payload (by decide)
  simp only [frame, List.append_assoc, List.append_cancel_left_eq] at heq
  -- Header, metadata and payload are cancelled in turn.
  rcases headerCodec.write_append_inj (header_valid e flags) (header_valid e' flags') heq with
    ⟨-, heq⟩
  rcases metadataCodec.write_append_inj (metadata_valid e h) (metadata_valid e' h') heq with
    ⟨-, heq⟩
  apply ((Codec.lengthPrefixed 4).write_append_inj (hlength h) (hlength h') _).2
  simpa only [Codec.lengthPrefixed_write, List.append_assoc] using heq

/-- Frames are self-delimiting: when a byte string is accepted, no other byte string that begins
with it, or that it begins with, is. -/
theorem frames_self_delimiting (b : Bytes) (prior : TransportEnvelope) (error : Option Bytes)
    (h : (decodeEnvelope (some b) (some prior) error).1 = true) (c : Bytes) (hne : c ≠ b)
    (hc : c <+: b ∨ b <+: c) (data : Option Bytes) (hdata : data.getD [] = c)
    (prior' : TransportEnvelope) (error' : Option Bytes) :
    (decodeEnvelope data (some prior') error').1 = false := by
  apply Bool.eq_false_iff.mpr
  intro haccepted
  cases data with
  | none => cases haccepted
  | some c' =>
    rw [Option.getD_some] at hdata
    subst hdata
    rcases (decodeEnvelope_ok_iff b prior error).mp h with ⟨e, flags, hfits, hframe⟩
    rcases (decodeEnvelope_ok_iff c' prior' error').mp haccepted with ⟨e', flags', hfits', hframe'⟩
    rcases hc with ⟨rest, hrest⟩ | ⟨rest, hrest⟩
    · have hnil : rest = [] := by
        apply frame_append_inj hfits' hfits
        rw [← hframe', hrest, List.append_nil, hframe]
      rw [hnil, List.append_nil] at hrest
      exact hne hrest
    · have hnil : rest = [] := by
        apply frame_append_inj hfits hfits'
        rw [← hframe, hrest, List.append_nil, hframe']
      rw [hnil, List.append_nil] at hrest
      exact hne hrest.symm

/-- An image envelope with a negative source time. -/
def imageEnvelope : TransportEnvelope where
  payloadKind := .jpeg
  sourceTimeNs := -5
  frameId := ascii "cam"
  payload := [255, 216, 0]

/-- The frame of an image with the name of its host is refused with a byte behind it, without its
last byte, and cut within its texts. -/
theorem frames_self_delimiting_cut :
    let wire := frame 7 { imageEnvelope with sourceHost := ascii "drone1" }
    (decodeEnvelope (some (wire ++ [0])) (some {}) none).1 = false ∧
      (decodeEnvelope (some (wire.take 51)) (some {}) none).1 = false ∧
      (decodeEnvelope (some (wire.take 38)) (some {}) none).1 = false := by
  intro wire
  have hfits : ({ imageEnvelope with sourceHost := ascii "drone1" } : TransportEnvelope).Fits :=
    ⟨rfl, by decide, by decide, by decide, by decide, by decide⟩
  have haccepted : (decodeEnvelope (some wire) (some {}) none).1 = true := by
    rw [decodeEnvelope_frame _ hfits]
  have hlength : wire.length = 52 := length_frame 7 _
  have hcut : ∀ n < 52, wire.take n ≠ wire := by
    intro n hn heq
    have hle := congrArg List.length heq
    rw [List.length_take, hlength] at hle
    omega
  refine ⟨?_, ?_, ?_⟩
  · apply frames_self_delimiting wire {} none haccepted (wire ++ [0])
    · simp
    · exact Or.inr (List.prefix_append _ _)
    · rfl
  · apply frames_self_delimiting wire {} none haccepted (wire.take 51) (hcut 51 (by decide))
    · exact Or.inl (List.take_prefix _ _)
    · rfl
  · apply frames_self_delimiting wire {} none haccepted (wire.take 38) (hcut 38 (by decide))
    · exact Or.inl (List.take_prefix _ _)
    · rfl

/-- Wire round trip over the whole format: an envelope within the length and version bounds is
written to a frame of exactly 40 bytes plus its variable parts, which decodes to the same
envelope; outside the bounds encoding fails. -/
theorem envelope_round_trip :
    (∀ e : TransportEnvelope, e.Fits →
      ∀ (output : Bytes) (prior : TransportEnvelope) (error error' : Option Bytes), ∃ wire,
        encodeEnvelope e (some output) error = (true, some wire, error) ∧
        wire.length = 40 + (e.sourceHost.length + e.rosType.length + e.rosMd5.length +
          e.frameId.length + e.payload.length) ∧
        decodeEnvelope (some wire) (some prior) error' = (true, some e, error')) ∧
    (∀ e : TransportEnvelope, ¬e.Fits →
      ∀ output error : Option Bytes, (encodeEnvelope e output error).1 = false) := by
  refine ⟨?_, encodeEnvelope_of_not_fits⟩
  intro e h output prior error error'
  exact ⟨frame 0 e, encodeEnvelope_of_fits e h output error, length_frame 0 e,
    decodeEnvelope_frame e h 0 prior error'⟩

/-- The round trip on an image envelope, and the refusal of an envelope of another version. -/
theorem envelope_round_trip_image :
    (∃ wire, encodeEnvelope imageEnvelope (some []) none = (true, some wire, none) ∧
      wire.length = 46 ∧
      decodeEnvelope (some wire) (some {}) none = (true, some imageEnvelope, none)) ∧
    (encodeEnvelope { protocolVersion := 2 } (some []) none).1 = false :=
  ⟨envelope_round_trip.1 _ ⟨rfl, by decide, by decide, by decide, by decide, by decide⟩ [] {}
      none none,
    envelope_round_trip.2 _ (fun h ↦ absurd h.version (by decide)) _ _⟩

/-- Two byte strings differ at most in byte 7, the reserved flags. -/
def AgreeUpToFlags (b b' : Bytes) : Prop := ∀ i, i ≠ 7 → b[i]? = b'[i]?

private theorem agree_iff_set (b b' : Bytes) (h : 7 < b.length) (h' : 7 < b'.length) :
    AgreeUpToFlags b b' ↔ b.set 7 0 = b'.set 7 0 := by
  constructor
  · intro ha
    apply List.ext_getElem?
    intro i
    by_cases hi : i = 7
    · rw [hi, List.getElem?_set_self h, List.getElem?_set_self h']
    · rw [List.getElem?_set_ne (Ne.symm hi), List.getElem?_set_ne (Ne.symm hi), ha i hi]
  · intro hs i hi
    rw [← List.getElem?_set_ne (a := (0 : UInt8)) (Ne.symm hi), hs,
      List.getElem?_set_ne (Ne.symm hi)]

/-- The decoder accepts exactly the image of the encoder up to the reserved byte. -/
theorem decoder_accepts_encoder_image :
    (∀ (b : Bytes) (prior e : TransportEnvelope) (error error' : Option Bytes),
      decodeEnvelope (some b) (some prior) error = (true, some e, error') →
      ∀ (output : Bytes) (err : Option Bytes),
        encodeEnvelope e (some output) err = (true, some (b.set 7 0), err)) ∧
    (∀ (e : TransportEnvelope) (output err err' : Option Bytes) (wire : Bytes),
      encodeEnvelope e output err = (true, some wire, err') →
      ∀ (flags : UInt8) (prior : TransportEnvelope) (error : Option Bytes),
        decodeEnvelope (some (wire.set 7 flags)) (some prior) error = (true, some e, error)) ∧
    (∀ (b b' : Bytes) (prior prior' e e' : TransportEnvelope)
        (error error' error₁ error₂ : Option Bytes),
      decodeEnvelope (some b) (some prior) error = (true, some e, error₁) →
      decodeEnvelope (some b') (some prior') error' = (true, some e', error₂) →
      (e = e' ↔ AgreeUpToFlags b b')) ∧
    (∀ (b : Bytes) (prior : TransportEnvelope) (error : Option Bytes),
      (¬∃ e output err wire flags, encodeEnvelope e output err = (true, some wire, err) ∧
        b = wire.set 7 flags) →
      (decodeEnvelope (some b) (some prior) error).1 = false) := by
  refine ⟨?_, ?_, ?_, ?_⟩
  · intro b prior e error error' h output err
    rcases decodeEnvelope_eq_some_iff.mp h with ⟨-, hfits, flags, rfl⟩
    rw [set_frame]
    exact encodeEnvelope_of_fits e hfits output err
  · intro e output err err' wire h flags prior error
    rcases frame_of_encodeEnvelope h with ⟨hfits, rfl⟩
    rw [set_frame]
    exact decodeEnvelope_frame e hfits flags prior error
  · intro b b' prior prior' e e' error error' error₁ error₂ h h'
    rcases decodeEnvelope_eq_some_iff.mp h with ⟨-, hfits, flags, rfl⟩
    rcases decodeEnvelope_eq_some_iff.mp h' with ⟨-, hfits', flags', rfl⟩
    have hlength : ∀ (f : UInt8) (e : TransportEnvelope), 7 < (frame f e).length := by
      intro f e
      rw [length_frame]
      omega
    rw [agree_iff_set _ _ (hlength flags e) (hlength flags' e'), set_frame, set_frame]
    exact ⟨fun he ↦ by rw [he], frame_inj hfits hfits'⟩
  · intro b prior error hn
    apply Bool.eq_false_iff.mpr
    intro ht
    rcases (decodeEnvelope_ok_iff b prior error).mp ht with ⟨e, flags, hfits, hb⟩
    exact hn ⟨e, some [], none, frame 0 e, flags, encodeEnvelope_of_fits e hfits [] none,
      by rw [hb, set_frame]⟩

private theorem magic_not_encoded : ¬∃ e output err wire flags,
    encodeEnvelope e output err = (true, some wire, err) ∧ kMagic = wire.set 7 flags := by
  rintro ⟨e, output, err, wire, flags, henc, hb⟩
  rcases frame_of_encodeEnvelope henc with ⟨-, rfl⟩
  have hlength := congrArg List.length hb
  rw [set_frame, length_frame] at hlength
  change 4 = _ at hlength
  omega

/-- An image envelope is written, read back with a set reserved byte and written again, and another
frame of it differs in that byte only; a frame cut short after its magic is refused. -/
theorem decoder_accepts_encoder_image_frame : ∃ wire : Bytes,
    encodeEnvelope imageEnvelope (some [1]) none = (true, some wire, none) ∧
    decodeEnvelope (some (wire.set 7 9)) (some {}) none = (true, some imageEnvelope, none) ∧
    encodeEnvelope imageEnvelope (some [2]) none = (true, some ((wire.set 7 9).set 7 0), none) ∧
    AgreeUpToFlags (wire.set 7 9) (wire.set 7 3) ∧
    (decodeEnvelope (some kMagic) (some {}) none).1 = false := by
  have hfits : imageEnvelope.Fits :=
    ⟨rfl, by decide, by decide, by decide, by decide, by decide⟩
  have hwire := encodeEnvelope_of_fits imageEnvelope hfits [1] none
  rcases decoder_accepts_encoder_image with ⟨hencode, hdecode, hagree, hrefuse⟩
  have h9 := hdecode imageEnvelope _ _ _ _ hwire 9 {} none
  have h3 := hdecode imageEnvelope _ _ _ _ hwire 3 {} none
  exact ⟨_, hwire, h9, hencode _ _ _ _ _ h9 [2] none,
    (hagree _ _ _ _ _ _ _ _ _ _ h9 h3).mp rfl, hrefuse _ _ _ magic_not_encoded⟩

end NetBridge.Transport
