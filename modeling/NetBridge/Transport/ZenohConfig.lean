import NetBridge.Base.Json5
import NetBridge.Base.Utf8
import NetBridge.Bridge.Sessions

/-!
# Settings of a Zenoh session

`src/swarm_ros_bridge/src/transport/zenoh_transport.cpp:42–65` and `156–179`: the strings of the
configuration are written as JSON5 texts and inserted under the keys of the settings. A string is
read back as it was when it is a text on one line.
-/

namespace NetBridge.Transport

open NetBridge.Base
open NetBridge.Bridge (ZenohTransportConfig)

/-- A byte as `JsonString` pushes it: quotation marks and backslashes are escaped;
`zenoh_transport.cpp:45–48`. -/
def escapedByte (ch : UInt8) : Bytes := if ch = 92 ∨ ch = 34 then [92, ch] else [ch]

/-- `JsonString`; `zenoh_transport.cpp:42–52`. -/
def jsonString (value : Bytes) : Bytes := 34 :: (value.flatMap escapedByte ++ [34])

/-- `JsonArray`; `zenoh_transport.cpp:54–65`. -/
def jsonArray (values : List Bytes) : Bytes :=
  ascii "[" ++
    (values.zipIdx.flatMap fun (value, i) ↦
      (if i ≠ 0 then ascii "," else []) ++ jsonString value) ++
    ascii "]"

/-- The text of a flag; `zenoh_transport.cpp:159`, `165`, `177` and `179`. -/
def jsonFlag (b : Bool) : Bytes := ascii (if b then "true" else "false")

/-- The calls of `insert_json5`, each with its key and its text; `zenoh_transport.cpp:157–179`. -/
def insertions (config : ZenohTransportConfig) : List (String × Bytes) :=
  [("mode", jsonString config.mode),
    ("scouting/multicast/enabled", jsonFlag config.multicastScouting)] ++
  (if config.multicastScoutingAddress ≠ [] then
    [("scouting/multicast/address", jsonString config.multicastScoutingAddress)]
  else []) ++
  [("scouting/gossip/enabled", jsonFlag config.gossipScouting)] ++
  (if config.listenEndpoints ≠ [] then
    [("listen/endpoints", jsonArray config.listenEndpoints)]
  else []) ++
  (if config.connectEndpoints ≠ [] then
    [("connect/endpoints", jsonArray config.connectEndpoints)]
  else []) ++
  (if config.allowedLinkProtocols ≠ [] then
    [("transport/link/protocols", jsonArray config.allowedLinkProtocols)]
  else []) ++
  [("transport/unicast/compression/enabled", jsonFlag config.compressionEnabled),
    ("transport/multicast/compression/enabled", jsonFlag config.compressionEnabled)]

/-- What a setting is meant to be. -/
inductive Setting
  | text (value : Bytes)
  | flag (b : Bool)
  | texts (values : List Bytes)

/-- The text that is inserted for a setting. -/
def Setting.written : Setting → Bytes
  | .text value => jsonString value
  | .flag b => jsonFlag b
  | .texts values => jsonArray values

/-- The strings of a setting. -/
def Setting.strings : Setting → List Bytes
  | .text value => [value]
  | .flag _ => []
  | .texts values => values

/-- The settings a configuration asks for. What it leaves empty stays as Zenoh has it. -/
def settings (config : ZenohTransportConfig) : List (String × Setting) :=
  [("mode", .text config.mode),
    ("scouting/multicast/enabled", .flag config.multicastScouting)] ++
  (if config.multicastScoutingAddress ≠ [] then
    [("scouting/multicast/address", .text config.multicastScoutingAddress)]
  else []) ++
  [("scouting/gossip/enabled", .flag config.gossipScouting)] ++
  (if config.listenEndpoints ≠ [] then
    [("listen/endpoints", .texts config.listenEndpoints)]
  else []) ++
  (if config.connectEndpoints ≠ [] then
    [("connect/endpoints", .texts config.connectEndpoints)]
  else []) ++
  (if config.allowedLinkProtocols ≠ [] then
    [("transport/link/protocols", .texts config.allowedLinkProtocols)]
  else []) ++
  [("transport/unicast/compression/enabled", .flag config.compressionEnabled),
    ("transport/multicast/compression/enabled", .flag config.compressionEnabled)]

/-- The strings among the settings. -/
def settingStrings (config : ZenohTransportConfig) : List Bytes :=
  config.mode :: config.multicastScoutingAddress ::
    (config.listenEndpoints ++ config.connectEndpoints ++ config.allowedLinkProtocols)

/-- A string that is a text in UTF-8 without LF and CR. -/
def SingleLine (value : Bytes) : Prop := (decodeUtf8 value).isSome ∧ 10 ∉ value ∧ 13 ∉ value

instance decidableSingleLine (value : Bytes) : Decidable (SingleLine value) :=
  inferInstanceAs (Decidable (_ ∧ _))

section

variable {ω : Type}

/-- A value is what a setting is meant to be, byte by byte. -/
def Denotes : Json5.Value ω → Setting → Prop
  | .string text, .text value => utf8 text = value
  | .boolean b, .flag b' => b = b'
  | .array elements, .texts values =>
    ∃ texts : List (List Char), elements = texts.map .string ∧ texts.map utf8 = values
  | _, _ => False

variable (other : List Char → Option (ω × List Char))

/-- The value of a JSON5 text in UTF-8. -/
def parseJson5 (text : Bytes) : Option (Json5.Value ω) := (decodeUtf8 text).bind (Json5.parse other)

/-- A text is valid and has the value that a setting is meant to have. -/
def ReadsAs (text : Bytes) (setting : Setting) : Prop :=
  ∃ value, parseJson5 other text = some value ∧ Denotes value setting

end

/-- The bytes of a text are a string on one line when the text is on one line. -/
theorem singleLine_utf8 {text : List Char} : SingleLine (utf8 text) ↔ Json5.OnOneLine text := by
  have hends : (10 ∉ utf8 text ∧ 13 ∉ utf8 text) ↔ Json5.OnOneLine text := by
    rw [Json5.OnOneLine, ← mem_utf8_iff (c := Json5.lineFeed) (by decide),
      ← mem_utf8_iff (c := Json5.carriageReturn) (by decide)]
    rfl
  rw [SingleLine, decodeUtf8_utf8, hends]
  exact and_iff_right rfl

private theorem escaped_ascii {ch : UInt8} (h : ch = 92 ∨ ch = 34) : ch.toNat < 128 := by
  rcases h with rfl | rfl
  · decide
  · decide

/-- An escaped character has the bytes of the character, escaped. -/
theorem flatMap_escapedByte (c : Char) :
    (String.utf8EncodeChar c).flatMap escapedByte = utf8 (Json5.quotedChar c) := by
  unfold Json5.quotedChar
  split
  · next hescaped =>
    rcases hescaped with rfl | rfl
    · rfl
    · rfl
  · next hplain =>
    rw [not_or] at hplain
    have hbyte : ∀ b ∈ String.utf8EncodeChar c, escapedByte b = [b] := by
      intro b hb
      unfold escapedByte
      split
      · next hescaped =>
        have hchar : Char.ofNat b.toNat = c := by
          rw [← (utf8EncodeChar_of_mem hb (escaped_ascii hescaped)).2, Char.ofNat_toNat]
        rcases hescaped with rfl | rfl
        · exact absurd hchar.symm hplain.1
        · exact absurd hchar.symm hplain.2
      · rfl
    rw [List.flatMap_congr hbyte, List.flatMap_singleton', utf8_cons, utf8_nil, List.append_nil]

/-- `JsonString` writes texts as the characters of double-quoted strings. -/
theorem jsonString_utf8 (text : List Char) :
    jsonString (utf8 text) = utf8 (Json5.writeString text) := by
  have hquoted : (utf8 text).flatMap escapedByte = utf8 (Json5.quoted text) := by
    induction text with
    | nil => rfl
    | cons c text ih =>
      rw [utf8_cons, List.flatMap_append, flatMap_escapedByte, ih, ← utf8_append]
      rfl
  rw [jsonString, hquoted, Json5.writeString, utf8_cons, utf8_append]
  rfl

/-- The loop of `JsonArray` behind the first string. -/
theorem flatMap_zipIdx_succ (values : List Bytes) (i : Nat) :
    ((values.zipIdx (i + 1)).flatMap fun (value, i) ↦
      (if i ≠ 0 then ascii "," else []) ++ jsonString value) =
        values.flatMap fun value ↦ 44 :: jsonString value := by
  induction values generalizing i with
  | nil => rfl
  | cons value values ih =>
    rw [List.zipIdx_cons, List.flatMap_cons, List.flatMap_cons, ih]
    rfl

/-- `JsonArray` puts a comma between the strings. -/
theorem jsonArray_eq (values : List Bytes) :
    jsonArray values = 91 :: (joinPath 44 (values.map jsonString) ++ [93]) := by
  cases values with
  | nil => rfl
  | cons value values =>
    have hjoin : joinPath 44 ((value :: values).map jsonString) =
        jsonString value ++ values.flatMap fun value ↦ 44 :: jsonString value := by
      cases values with
      | nil => rw [List.map_singleton, joinPath_singleton, List.flatMap_nil, List.append_nil]
      | cons next values =>
        have hne : (next :: values).map jsonString ≠ [] := List.cons_ne_nil _ _
        rw [List.map_cons, joinPath_cons _ hne, ← flatMap_sep_cons hne, List.flatMap_map]
    rw [jsonArray, List.zipIdx_cons, List.flatMap_cons, flatMap_zipIdx_succ, hjoin]
    rfl

/-- A joined text has the joined bytes. -/
theorem utf8_joinPath (texts : List (List Char)) :
    utf8 (joinPath ',' texts) = joinPath 44 (texts.map utf8) := by
  induction texts with
  | nil => rfl
  | cons text texts ih =>
    cases texts with
    | nil => rw [List.map_singleton, joinPath_singleton, joinPath_singleton]
    | cons next texts =>
      rw [joinPath_map_cons_cons, joinPath_cons_cons, ← ih, utf8_append, utf8_cons]
      rfl

/-- `JsonArray` writes texts as the characters of an array. -/
theorem jsonArray_map_utf8 (texts : List (List Char)) :
    jsonArray (texts.map utf8) = utf8 (Json5.writeArray texts) := by
  have hstrings : (texts.map utf8).map jsonString = (texts.map Json5.writeString).map utf8 := by
    rw [List.map_map, List.map_map]
    apply List.map_congr_left
    intro text _
    exact jsonString_utf8 text
  rw [jsonArray_eq, hstrings, ← utf8_joinPath, Json5.writeArray, utf8_cons, utf8_append]
  rfl

/-- Bytes that are a text when they are escaped are a text. -/
theorem isSome_decodeUtf8_of_escaped (front : Bytes) {value : Bytes}
    (h : (decodeUtf8 (front ++ value.flatMap escapedByte)).isSome) :
    (decodeUtf8 (front ++ value)).isSome := by
  induction value generalizing front with
  | nil => exact h
  | cons ch value ih =>
    rw [List.flatMap_cons] at h
    by_cases hescaped : ch = 92 ∨ ch = 34
    · have hascii := escaped_ascii hescaped
      rw [escapedByte, if_pos hescaped, List.cons_append, List.singleton_append,
        isSome_decodeUtf8_append _ _ (by decide)] at h
      have hbehind := (isSome_decodeUtf8_append [] _ hascii).mp h.2
      exact (isSome_decodeUtf8_append front value hascii).mpr ⟨h.1, ih [] hbehind.2⟩
    · rw [escapedByte, if_neg hescaped, ← List.append_assoc] at h
      rw [← List.singleton_append, ← List.append_assoc]
      exact ih (front ++ [ch]) h

/-- A string whose written text is a text is a text. -/
theorem isSome_decodeUtf8_of_jsonString {value : Bytes}
    (h : (decodeUtf8 (jsonString value)).isSome) : (decodeUtf8 value).isSome := by
  have hbehind := (isSome_decodeUtf8_append [] _ (by decide)).mp h
  have hquoted := (isSome_decodeUtf8_append _ [] (by decide)).mp hbehind.2
  exact isSome_decodeUtf8_of_escaped [] hquoted.1

/-- Strings whose written array is a text are texts. -/
theorem isSome_decodeUtf8_of_jsonArray {values : List Bytes}
    (h : (decodeUtf8 (jsonArray values)).isSome) : ∀ value ∈ values, (decodeUtf8 value).isSome := by
  have hjoined (values : List Bytes)
      (h : (decodeUtf8 (joinPath 44 (values.map jsonString))).isSome) :
      ∀ value ∈ values, (decodeUtf8 value).isSome := by
    induction values with
    | nil => exact List.forall_mem_nil _
    | cons value values ih =>
      rw [List.forall_mem_cons]
      cases values with
      | nil =>
        rw [List.map_singleton, joinPath_singleton] at h
        exact ⟨isSome_decodeUtf8_of_jsonString h, List.forall_mem_nil _⟩
      | cons next values =>
        rw [joinPath_map_cons_cons, isSome_decodeUtf8_append _ _ (by decide)] at h
        exact ⟨isSome_decodeUtf8_of_jsonString h.1, ih h.2⟩
  rw [jsonArray_eq] at h
  have hbehind := (isSome_decodeUtf8_append [] _ (by decide)).mp h
  have hstrings := (isSome_decodeUtf8_append _ [] (by decide)).mp hbehind.2
  exact hjoined values hstrings.1

/-- Strings that are texts. -/
theorem exists_map_utf8 {values : List Bytes} (h : ∀ value ∈ values, (decodeUtf8 value).isSome) :
    ∃ texts : List (List Char), texts.map utf8 = values := by
  induction values with
  | nil => exact ⟨[], rfl⟩
  | cons value values ih =>
    rw [List.forall_mem_cons, isSome_decodeUtf8_iff] at h
    obtain ⟨⟨text, rfl⟩, hvalues⟩ := h
    obtain ⟨texts, rfl⟩ := ih hvalues
    exact ⟨text :: texts, rfl⟩

section

variable {ω : Type} (other : List Char → Option (ω × List Char))

/-- A text is parsed as its characters. -/
theorem parseJson5_utf8 (text : List Char) :
    parseJson5 other (utf8 text) = Json5.parse other text := by
  rw [parseJson5, decodeUtf8_utf8, Option.bind_some]

variable {other}

/-- What has a value is a text. -/
theorem isSome_decodeUtf8_of_parseJson5 {text : Bytes} {read : Json5.Value ω}
    (h : parseJson5 other text = some read) : (decodeUtf8 text).isSome := by
  obtain ⟨chars, hchars, -⟩ := Option.bind_eq_some_iff.mp h
  rw [hchars]
  rfl

variable (other)

/-- The text of a string is read as the string when it is on one line, and as nothing else. -/
theorem parseJson5_jsonString {value : Bytes} {read : Json5.Value ω} :
    parseJson5 other (jsonString value) = some read ↔
      ∃ text, utf8 text = value ∧ Json5.OnOneLine text ∧ read = .string text := by
  constructor
  · intro h
    have hvalue := isSome_decodeUtf8_of_jsonString (isSome_decodeUtf8_of_parseJson5 h)
    obtain ⟨text, rfl⟩ := isSome_decodeUtf8_iff.mp hvalue
    rw [jsonString_utf8, parseJson5_utf8, Json5.parse_writeString] at h
    split at h
    · next hline =>
      cases h
      exact ⟨text, rfl, hline, rfl⟩
    · cases h
  · rintro ⟨text, rfl, hline, rfl⟩
    rw [jsonString_utf8, parseJson5_utf8, Json5.parse_writeString, if_pos hline]

/-- The text of an array is read as its strings when each is on one line, and as nothing else. -/
theorem parseJson5_jsonArray {values : List Bytes} {read : Json5.Value ω} :
    parseJson5 other (jsonArray values) = some read ↔
      ∃ texts : List (List Char), texts.map utf8 = values ∧
        (∀ text ∈ texts, Json5.OnOneLine text) ∧ read = .array (texts.map .string) := by
  constructor
  · intro h
    have hvalues := isSome_decodeUtf8_of_jsonArray (isSome_decodeUtf8_of_parseJson5 h)
    obtain ⟨texts, rfl⟩ := exists_map_utf8 hvalues
    rw [jsonArray_map_utf8, parseJson5_utf8, Json5.parse_writeArray] at h
    split at h
    · next hlines =>
      cases h
      exact ⟨texts, rfl, hlines, rfl⟩
    · cases h
  · rintro ⟨texts, rfl, hlines, rfl⟩
    rw [jsonArray_map_utf8, parseJson5_utf8, Json5.parse_writeArray, if_pos hlines]

/-- The text of a flag is read as the flag. -/
theorem parseJson5_jsonFlag (b : Bool) : parseJson5 other (jsonFlag b) = some (.boolean b) := by
  have hutf8 : jsonFlag b = utf8 (if b then "true" else "false").toList := by
    cases b with
    | false => rfl
    | true => rfl
  rw [hutf8, parseJson5_utf8, Json5.parse_boolean]

/-- A string is read back when it is on one line, and no other string is. -/
theorem readsAs_jsonString (value : Bytes) :
    ReadsAs other (jsonString value) (.text value) ↔ SingleLine value := by
  constructor
  · rintro ⟨read, hparse, -⟩
    obtain ⟨text, rfl, hline, -⟩ := (parseJson5_jsonString other).mp hparse
    exact singleLine_utf8.mpr hline
  · intro hline
    obtain ⟨text, rfl⟩ := isSome_decodeUtf8_iff.mp hline.1
    refine ⟨.string text, ?_, rfl⟩
    exact (parseJson5_jsonString other).mpr ⟨text, rfl, singleLine_utf8.mp hline, rfl⟩

/-- An array is read back when each of its strings is on one line, and no other array is. -/
theorem readsAs_jsonArray (values : List Bytes) :
    ReadsAs other (jsonArray values) (.texts values) ↔ ∀ value ∈ values, SingleLine value := by
  constructor
  · rintro ⟨read, hparse, -⟩
    obtain ⟨texts, rfl, hlines, -⟩ := (parseJson5_jsonArray other).mp hparse
    rw [List.forall_mem_map]
    intro text htext
    exact singleLine_utf8.mpr (hlines text htext)
  · intro hlines
    obtain ⟨texts, rfl⟩ := exists_map_utf8 fun value hvalue ↦ (hlines value hvalue).1
    rw [List.forall_mem_map] at hlines
    refine ⟨.array (texts.map .string), ?_, texts, rfl, rfl⟩
    exact (parseJson5_jsonArray other).mpr
      ⟨texts, rfl, fun text htext ↦ singleLine_utf8.mp (hlines text htext), rfl⟩

/-- What is inserted for a setting is read back when its strings are on one line each. -/
theorem readsAs_written (setting : Setting) :
    ReadsAs other setting.written setting ↔ ∀ value ∈ setting.strings, SingleLine value := by
  cases setting with
  | text value =>
    rw [Setting.strings, List.forall_mem_singleton]
    exact readsAs_jsonString other value
  | flag b =>
    apply iff_of_true
    · exact ⟨.boolean b, parseJson5_jsonFlag other b, rfl⟩
    · exact List.forall_mem_nil _
  | texts values => exact readsAs_jsonArray other values

variable {other}

/-- What is inserted for a setting is read as the setting or not at all. -/
theorem denotes_of_parseJson5 {setting : Setting} {read : Json5.Value ω}
    (h : parseJson5 other setting.written = some read) : Denotes read setting := by
  cases setting with
  | text value =>
    obtain ⟨text, htext, -, rfl⟩ := (parseJson5_jsonString other).mp h
    exact htext
  | flag b =>
    have hflag := parseJson5_jsonFlag other b
    cases hflag.symm.trans h
    exact rfl
  | texts values =>
    obtain ⟨texts, htexts, -, rfl⟩ := (parseJson5_jsonArray other).mp h
    exact ⟨texts, rfl, htexts⟩

end

/-- The settings are written one by one. -/
theorem insertions_eq (config : ZenohTransportConfig) :
    insertions config = (settings config).map fun (key, setting) ↦ (key, setting.written) := by
  simp only [insertions, settings, List.map_append, List.map_cons, List.map_nil, apply_ite,
    Setting.written]

/-- No key is inserted twice. -/
theorem nodup_keys (config : ZenohTransportConfig) :
    ((insertions config).map Prod.fst).Nodup := by
  have hwhen (p : Prop) [Decidable p] (entry : String × Bytes) :
      ((if p then [entry] else []).map Prod.fst).Sublist [entry.1] := by
    split
    · exact List.Sublist.refl _
    · exact List.nil_sublist _
  have hall : (["mode", "scouting/multicast/enabled"] ++ ["scouting/multicast/address"] ++
      ["scouting/gossip/enabled"] ++ ["listen/endpoints"] ++ ["connect/endpoints"] ++
      ["transport/link/protocols"] ++ ["transport/unicast/compression/enabled",
        "transport/multicast/compression/enabled"]).Nodup := by decide
  refine List.Nodup.sublist ?_ hall
  simp only [insertions, List.map_append]
  apply List.Sublist.append ?_ (List.Sublist.refl _)
  apply List.Sublist.append ?_ (hwhen _ _)
  apply List.Sublist.append ?_ (hwhen _ _)
  apply List.Sublist.append ?_ (hwhen _ _)
  apply List.Sublist.append ?_ (List.Sublist.refl _)
  exact List.Sublist.append (List.Sublist.refl _) (hwhen _ _)

/-- The strings of the settings are on one line each when those of the configuration are. -/
theorem forall_strings_settings (config : ZenohTransportConfig) :
    (∀ entry ∈ settings config, ∀ value ∈ entry.2.strings, SingleLine value) ↔
      ∀ value ∈ settingStrings config, SingleLine value := by
  have hwhen (key : String) (values : List Bytes) :
      (∀ entry ∈ if values ≠ [] then [(key, Setting.texts values)] else [],
        ∀ value ∈ entry.2.strings, SingleLine value) ↔ ∀ value ∈ values, SingleLine value := by
    split
    · exact List.forall_mem_singleton
    · next hempty =>
      rw [not_not] at hempty
      rw [hempty]
      exact iff_of_true (List.forall_mem_nil _) (List.forall_mem_nil _)
  have hnil : SingleLine [] := ⟨rfl, List.not_mem_nil, List.not_mem_nil⟩
  have haddress (key : String) (value : Bytes) :
      (∀ entry ∈ if value ≠ [] then [(key, Setting.text value)] else [],
        ∀ value ∈ entry.2.strings, SingleLine value) ↔ SingleLine value := by
    split
    · rw [List.forall_mem_singleton]
      exact List.forall_mem_singleton
    · next hempty =>
      rw [not_not] at hempty
      rw [hempty]
      exact iff_of_true (List.forall_mem_nil _) hnil
  simp only [settings, settingStrings, List.forall_mem_append, List.forall_mem_cons, hwhen,
    haddress]
  simp [Setting.strings, and_assoc]

section

variable {ω : Type} (other : List Char → Option (ω × List Char))

/-- The strings of a configuration are read back by Zenoh when they are on one line each, and as
nothing else in any case. -/
theorem settings_read_back_iff :
    (∀ value, ReadsAs other (jsonString value) (.text value) ↔ SingleLine value) ∧
    (∀ values,
      ReadsAs other (jsonArray values) (.texts values) ↔ ∀ value ∈ values, SingleLine value) ∧
    ∀ config : ZenohTransportConfig,
      ((insertions config).map Prod.fst).Nodup ∧
      List.Forall₂
        (fun insertion setting ↦ insertion.1 = setting.1 ∧
          ∀ read, parseJson5 other insertion.2 = some read → Denotes read setting.2)
        (insertions config) (settings config) ∧
      (List.Forall₂
        (fun insertion setting ↦ insertion.1 = setting.1 ∧ ReadsAs other insertion.2 setting.2)
        (insertions config) (settings config) ↔
          ∀ value ∈ settingStrings config, SingleLine value) := by
  refine ⟨readsAs_jsonString other, readsAs_jsonArray other, ?_⟩
  intro config
  refine ⟨nodup_keys config, ?_, ?_⟩
  · rw [insertions_eq, List.forall₂_map_left_iff, List.forall₂_same]
    intro entry _
    exact ⟨rfl, fun _ hread ↦ denotes_of_parseJson5 hread⟩
  · rw [insertions_eq, List.forall₂_map_left_iff, List.forall₂_same,
      ← forall_strings_settings config]
    apply forall₂_congr
    intro entry _
    exact (and_iff_right rfl).trans (readsAs_written other entry.2)

end

/-- A line break in an endpoint is put between the quotation marks as it is, and the text of the
endpoints is no value. -/
theorem line_break_not_read_back :
    parseJson5 (fun _ ↦ (none : Option (Unit × List Char))) (jsonArray [ascii "tcp/a\nb"]) = none ∧
      ¬ ReadsAs (fun _ ↦ (none : Option (Unit × List Char))) (jsonArray [ascii "tcp/a\nb"])
        (.texts [ascii "tcp/a\nb"]) := by
  have hutf8 : jsonArray [ascii "tcp/a\nb"] = utf8 (Json5.writeArray ["tcp/a\nb".toList]) :=
    jsonArray_map_utf8 ["tcp/a\nb".toList]
  have hnone : parseJson5 (fun _ ↦ (none : Option (Unit × List Char)))
      (jsonArray [ascii "tcp/a\nb"]) = none := by
    rw [hutf8, parseJson5_utf8]
    decide
  refine ⟨hnone, ?_⟩
  rintro ⟨read, hread, -⟩
  rw [hnone] at hread
  cases hread

end NetBridge.Transport
