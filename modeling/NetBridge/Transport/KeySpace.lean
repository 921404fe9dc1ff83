import Mathlib.Data.List.DropRight
import NetBridge.Base.Paths
import NetBridge.Transport.Keys

/-!
# The key space

A key is a path that names its kind and its hosts before it repeats a ROS name, so a key tells
what it was built from. Builders:
`src/swarm_ros_bridge/src/transport/bridge_transport.cpp:67–86,284–316`; the subscription of every
sender: `src/swarm_ros_bridge/src/topic_factory.cpp:663–667`.
-/

namespace NetBridge.Transport

open NetBridge.Base

/-- The byte of `'*'`. -/
def star : UInt8 := 42

/-- A host as `ParseAliveKey` accepts it, `bridge_transport.cpp:311`, without a wildcard. -/
@[ext] structure HostName where
  text : Bytes
  ne_nil : text ≠ []
  slash_not_mem : slash ∉ text
  star_not_mem : star ∉ text

/-- A ROS name that names something, without a wildcard. -/
structure RosName where
  text : Bytes
  has_segment : ∃ ch ∈ text, ch ≠ slash
  star_not_mem : star ∉ text

/-- What a key is built from. -/
inductive Key where
  | fanout (sourceHost : HostName) (rosTopic : RosName)
  | directed (sourceHost destinationHost : HostName) (rosTopic : RosName)
  | service (serverHost : HostName) (rosService : RosName)
  | alive (hostname : HostName)

/-- The key expression; `bridge_transport.cpp:284–303`. -/
def Key.text : Key → Bytes
  | .fanout sourceHost rosTopic => topicFanoutKey sourceHost.text rosTopic.text
  | .directed sourceHost destinationHost rosTopic =>
    topicDirectedKey sourceHost.text destinationHost.text rosTopic.text
  | .service serverHost rosService => serviceKey serverHost.text rosService.text
  | .alive hostname => aliveKey hostname.text

/-- One kind, the same hosts and names that differ in redundant slashes only. -/
def Key.Same : Key → Key → Prop
  | .fanout s t, .fanout s' t' =>
    s = s' ∧ normalizeRosName t.text = normalizeRosName t'.text
  | .directed s d t, .directed s' d' t' =>
    s = s' ∧ d = d' ∧ normalizeRosName t.text = normalizeRosName t'.text
  | .service s t, .service s' t' =>
    s = s' ∧ normalizeRosName t.text = normalizeRosName t'.text
  | .alive h, .alive h' => h = h'
  | _, _ => False

/-- The segments of a key. -/
def Key.path : Key → List Bytes
  | .fanout s t => ascii "netbridge" :: ascii "v1" :: ascii "topic" :: s.text ::
    ascii "fanout" :: pathOf slash t.text
  | .directed s d t => ascii "netbridge" :: ascii "v1" :: ascii "topic" :: s.text ::
    ascii "dst" :: d.text :: pathOf slash t.text
  | .service s t => ascii "netbridge" :: ascii "v1" :: ascii "service" :: s.text ::
    pathOf slash t.text
  | .alive h => [ascii "netbridge", ascii "v1", ascii "alive", h.text]

/-- The final loop of `NormalizeRosName`; `bridge_transport.cpp:82–84`. -/
private def dropSlashes (text : Bytes) : Bytes := text.rdropWhile fun ch ↦ ch == slash

private theorem dropSlashes_joinPath {path : List Bytes} (h : IsPath slash path) :
    dropSlashes (joinPath slash path) = joinPath slash path := by
  rw [dropSlashes, List.rdropWhile_eq_self_iff]
  intro hne hlast
  apply getLast?_joinPath h
  rw [List.getLast?_eq_some_getLast hne]
  simpa using hlast

private theorem dropSlashes_append_slash (text : Bytes) :
    dropSlashes (text ++ [slash]) = dropSlashes text :=
  List.rdropWhile_concat_pos _ _ _ (by simp)

private theorem foldl_normalizeChar (name : Bytes) :
    (∀ done word first rest, name.splitOn slash = first :: rest →
      dropSlashes (name.foldl normalizeChar (done ++ word, false)).1 =
        dropSlashes (done ++ joinPath slash
          ((word ++ first) :: rest.filter fun piece ↦ !piece.isEmpty))) ∧
    ∀ done, dropSlashes (name.foldl normalizeChar (done, true)).1 =
      dropSlashes (done ++ joinPath slash (pathOf slash name)) := by
  induction name with
  | nil =>
    constructor
    · intro done word first rest h
      rw [List.splitOn_nil, List.cons.injEq] at h
      simp [← h.1, ← h.2]
    · simp
  | cons ch name ih =>
    rcases ih with ⟨hinside, hboundary⟩
    by_cases hch : ch = slash
    · constructor
      · intro done word first rest h
        have hsplit : (ch :: name).splitOn slash = [] :: name.splitOn slash := by
          rw [List.splitOn_cons_eq_if_modifyHead, if_pos (by simpa using hch)]
        rw [hsplit, List.cons.injEq] at h
        have hscan : normalizeChar (done ++ word, false) ch = (done ++ word ++ [slash], true) := by
          simp [normalizeChar, hch]
        rw [List.foldl_cons, hscan, hboundary, ← h.1, ← h.2, List.append_nil]
        change _ = dropSlashes (done ++ joinPath slash (word :: pathOf slash name))
        cases hpath : pathOf slash name with
        | nil => simpa using dropSlashes_append_slash (done ++ word)
        | cons piece path => simp
      · intro done
        have hscan : normalizeChar (done, true) ch = (done, true) := by simp [normalizeChar, hch]
        rw [List.foldl_cons, hscan, hboundary, hch, pathOf_sep_cons]
    · have hscan : ∀ state, normalizeChar state ch = (state.1 ++ [ch], false) := by
        intro state
        simp [normalizeChar, hch]
      rcases exists_splitOn slash name with ⟨next, tail, hsplit⟩
      have hcons := splitOn_cons_of_ne hch hsplit
      constructor
      · intro done word first rest h
        rw [hcons, List.cons.injEq] at h
        rw [List.foldl_cons, hscan, List.append_assoc, hinside done (word ++ [ch]) next tail hsplit,
          ← h.1, ← h.2, List.append_assoc]
        rfl
      · intro done
        rw [List.foldl_cons, hscan, hinside done [ch] next tail hsplit, pathOf, hcons]
        rfl

/-- Normalising prints the path of a name. -/
theorem normalizeRosName_eq (name : Bytes) :
    normalizeRosName name = joinPath slash (pathOf slash name) := by
  have hscan := (foldl_normalizeChar name).2 []
  rw [List.nil_append, dropSlashes_joinPath (isPath_pathOf name)] at hscan
  exact hscan

/-- Normalising twice is normalising once. -/
theorem normalizeRosName_idem (name : Bytes) :
    normalizeRosName (normalizeRosName name) = normalizeRosName name := by
  rw [normalizeRosName_eq, normalizeRosName_eq name, pathOf_joinPath (isPath_pathOf name)]

/-- Names are normalised alike exactly when their segments are the same. -/
theorem normalizeRosName_inj (name name' : Bytes) :
    normalizeRosName name = normalizeRosName name' ↔
      pathOf slash name = pathOf slash name' := by
  rw [normalizeRosName_eq, normalizeRosName_eq,
    joinPath_inj (isPath_pathOf name) (isPath_pathOf name')]

/-- A host is a segment. -/
@[simp] theorem HostName.isPath_cons (h : HostName) (path : List Bytes) :
    IsPath slash (h.text :: path) ↔ IsPath slash path := by
  simp [h.ne_nil, h.slash_not_mem]

private theorem isPath_word {word : Bytes} {path : List Bytes}
    (hword : word ≠ [] ∧ slash ∉ word) (h : IsPath slash path) : IsPath slash (word :: path) :=
  Base.isPath_cons.mpr ⟨hword, h⟩

/-- The segments of a key are not empty and contain no slash. -/
theorem Key.isPath_path (key : Key) : IsPath slash key.path := by
  have hroot : ∀ {path : List Bytes}, IsPath slash path →
      IsPath slash (ascii "netbridge" :: ascii "v1" :: path) := by
    intro path h
    exact isPath_word (by decide) (isPath_word (by decide) h)
  cases key with
  | fanout s t =>
    apply hroot (isPath_word (by decide) _)
    rw [HostName.isPath_cons]
    exact isPath_word (by decide) (isPath_pathOf t.text)
  | directed s d t =>
    apply hroot (isPath_word (by decide) _)
    rw [HostName.isPath_cons]
    apply isPath_word (by decide)
    rw [HostName.isPath_cons]
    exact isPath_pathOf t.text
  | service s t =>
    apply hroot (isPath_word (by decide) _)
    rw [HostName.isPath_cons]
    exact isPath_pathOf t.text
  | alive h =>
    apply hroot (isPath_word (by decide) _)
    rw [HostName.isPath_cons]
    intro piece hp
    cases hp

/-- A key spells its path. -/
theorem Key.text_eq (key : Key) : key.text = joinPath slash key.path := by
  have hname : ∀ (t : RosName) (piece : Bytes), joinPath slash (piece :: pathOf slash t.text) =
      piece ++ slash :: joinPath slash (pathOf slash t.text) :=
    fun t piece ↦ joinPath_cons piece (pathOf_ne_nil t.has_segment)
  cases key with
  | fanout s t =>
    rw [Key.text, topicFanoutKey, normalizeRosName_eq, Key.path]
    simp only [joinPath_cons_cons, hname]
    simp [ascii, slash]
  | directed s d t =>
    rw [Key.text, topicDirectedKey, normalizeRosName_eq, Key.path]
    simp only [joinPath_cons_cons, hname]
    simp [ascii, slash]
  | service s t =>
    rw [Key.text, serviceKey, normalizeRosName_eq, Key.path]
    simp only [joinPath_cons_cons, hname]
    simp [ascii, slash]
  | alive h =>
    rw [Key.text, aliveKey, Key.path]
    simp [ascii, slash]

/-- A key is cut into its path. -/
theorem Key.splitOn_text (key : Key) : key.text.splitOn slash = key.path := by
  rw [Key.text_eq]
  apply splitOn_joinPath key.isPath_path
  cases key <;> exact List.cons_ne_nil _ _

/-- Keys agree on their path when they agree on all they name. -/
theorem Key.path_inj (key key' : Key) : key.path = key'.path ↔ key.Same key' := by
  have hwords : ascii "fanout" ≠ ascii "dst" ∧ ascii "topic" ≠ ascii "service" ∧
      ascii "topic" ≠ ascii "alive" ∧ ascii "service" ≠ ascii "alive" := by decide
  rcases hwords with ⟨hmode, hservice, halive, hserviceAlive⟩
  cases key <;> cases key' <;>
    simp [Key.path, Key.Same, HostName.ext_iff, normalizeRosName_inj, hmode, hservice, halive,
      hserviceAlive, hmode.symm, hservice.symm, halive.symm, hserviceAlive.symm]

/-- Equal keys name the same. -/
theorem Key.text_inj (key key' : Key) : key.text = key'.text ↔ key.Same key' := by
  rw [Key.text_eq, Key.text_eq, joinPath_inj key.isPath_path key'.isPath_path, Key.path_inj]

/-- `ParseAliveKey` reads what is behind the prefix. -/
theorem parseAliveKey_aliveKey (parsed hostname : Bytes) :
    parseAliveKey (aliveKey parsed) (some hostname) =
      if parsed = [] ∨ slash ∈ parsed then (false, some hostname) else (true, some parsed) := by
  have hstarts : startsWith (ascii "netbridge/v1/alive/" ++ parsed)
      (ascii "netbridge/v1/alive/") = true := by
    rw [startsWith_iff]
    exact ⟨parsed, rfl⟩
  simp [parseAliveKey, aliveKey, hstarts]

/-- What `ParseAliveKey` accepts is the alive key of a segment. -/
theorem eq_aliveKey_of_parseAliveKey {key : Bytes} {hostname : Option Bytes}
    (h : (parseAliveKey key hostname).1 = true) :
    ∃ parsed, key = aliveKey parsed ∧ parsed ≠ [] ∧ slash ∉ parsed := by
  cases hostname with
  | none => simp [parseAliveKey] at h
  | some hostname =>
    by_cases hstarts : startsWith key (ascii "netbridge/v1/alive/") = true
    · rcases (startsWith_iff key _).mp hstarts with ⟨parsed, rfl⟩
      rw [← aliveKey, parseAliveKey_aliveKey] at h
      split at h
      · cases h
      · next hsegment => exact ⟨parsed, rfl, not_or.mp hsegment⟩
    · simp [parseAliveKey, hstarts] at h

/-- A key that parses as an alive key is one. -/
theorem Key.eq_alive_of_parseAliveKey {key : Key} {hostname : Option Bytes}
    (h : (parseAliveKey key.text hostname).1 = true) : ∃ host, key = .alive host := by
  rcases eq_aliveKey_of_parseAliveKey h with ⟨parsed, htext, hne, hslash⟩
  have hpath : key.path = [ascii "netbridge", ascii "v1", ascii "alive", parsed] := by
    have hparsed : aliveKey parsed =
        joinPath slash [ascii "netbridge", ascii "v1", ascii "alive", parsed] := by
      simp [aliveKey, ascii, slash]
    have hsegments : IsPath slash [ascii "netbridge", ascii "v1", ascii "alive", parsed] := by
      simp only [Base.isPath_cons]
      refine ⟨by decide, by decide, by decide, ⟨hne, hslash⟩, ?_⟩
      intro piece hp
      cases hp
    rw [Key.text_eq, hparsed, joinPath_inj key.isPath_path hsegments] at htext
    exact htext
  have hwords : ascii "topic" ≠ ascii "alive" ∧ ascii "service" ≠ ascii "alive" := by decide
  cases key with
  | fanout s t => simp [Key.path, hwords.1] at hpath
  | directed s d t => simp [Key.path, hwords.1] at hpath
  | service s t => simp [Key.path, hwords.2] at hpath
  | alive host => exact ⟨host, rfl⟩

/-- The subscription of the receivers of directed topics; `topic_factory.cpp:663–667`. -/
def directedSubscription (destinationHost : HostName) (rosTopic : RosName) : Bytes :=
  topicDirectedKey (ascii "*") destinationHost.text rosTopic.text

example : topicDirectedKey (ascii "*") (ascii "drone3") (ascii "//goal/") =
    ascii "netbridge/v1/topic/*/dst/drone3/goal" := by decide

private theorem splitOn_directedSubscription (d : HostName) (t : RosName) :
    (directedSubscription d t).splitOn slash =
      ascii "netbridge" :: ascii "v1" :: ascii "topic" :: [star] :: ascii "dst" :: d.text ::
        pathOf slash t.text := by
  have htext : directedSubscription d t =
      joinPath slash (ascii "netbridge" :: ascii "v1" :: ascii "topic" :: [star] ::
        ascii "dst" :: d.text :: pathOf slash t.text) := by
    rw [directedSubscription, topicDirectedKey, normalizeRosName_eq]
    simp only [joinPath_cons_cons, joinPath_cons _ (pathOf_ne_nil t.has_segment)]
    simp [ascii, slash, star]
  rw [htext]
  apply splitOn_joinPath _ (List.cons_ne_nil _ _)
  simp only [Base.isPath_cons]
  exact ⟨by decide, by decide, by decide, by decide, by decide, ⟨d.ne_nil, d.slash_not_mem⟩,
    isPath_pathOf t.text⟩

/-- The subscription of a host matches what is directed to it under the topic's name. -/
theorem matches_directedSubscription (d : HostName) (t : RosName) (key : Key) :
    MatchesPath slash [star] (directedSubscription d t) key.text ↔
      ∃ s t', key = .directed s d t' ∧ normalizeRosName t'.text = normalizeRosName t.text := by
  have hhost : d.text ≠ [star] := by
    intro h
    apply d.star_not_mem
    simp [h]
  have hname : [star] ∉ pathOf slash t.text := by
    intro h
    rw [pathOf, List.mem_filter] at h
    exact t.star_not_mem (mem_of_mem_splitOn h.1 List.mem_cons_self).1
  have hwords : ascii "dst" ≠ ascii "fanout" ∧ ascii "topic" ≠ ascii "service" ∧
      ascii "topic" ≠ ascii "alive" ∧ ascii "dst" ≠ [star] ∧ ascii "topic" ≠ [star] := by decide
  rcases hwords with ⟨hmode, hservice, halive, hdst, htopic⟩
  rw [MatchesPath, splitOn_directedSubscription, Key.splitOn_text]
  cases key with
  | fanout s' t' => simp [Key.path, hmode, hdst]
  | service s' t' => simp [Key.path, hservice, htopic]
  | alive h => simp [Key.path, halive, htopic]
  | directed s' d' t' =>
    simp only [Key.path, List.forall₂_cons, true_or, or_true, true_and,
      forall₂_eq_or_wild hname, hhost, false_or]
    constructor
    · rintro ⟨hd, ht⟩
      rw [HostName.ext hd]
      exact ⟨s', t', rfl, (normalizeRosName_inj t'.text t.text).mpr ht.symm⟩
    · rintro ⟨s, t₂, he, ht⟩
      cases he
      exact ⟨rfl, ((normalizeRosName_inj t'.text t.text).mp ht).symm⟩

/-- Names are told apart by their segments, keys by what they are built from. An alive key and no
other parses as one, and a host's subscription takes the keys directed to it and no others. -/
theorem key_space_unambiguous :
    (∀ name, normalizeRosName (normalizeRosName name) = normalizeRosName name) ∧
    (∀ name name', normalizeRosName name = normalizeRosName name' ↔
      pathOf slash name = pathOf slash name') ∧
    (∀ key : Key, [] ∉ key.text.splitOn slash) ∧
    (∀ key key' : Key, key.text = key'.text ↔ key.Same key') ∧
    (∀ (h : HostName) (hostname : Bytes),
      parseAliveKey (aliveKey h.text) (some hostname) = (true, some h.text)) ∧
    (∀ (key : Key) (hostname : Bytes),
      (parseAliveKey key.text (some hostname)).1 = true ↔ ∃ h, key = .alive h) ∧
    ∀ (d : HostName) (t : RosName) (key : Key),
      MatchesPath slash [star] (topicDirectedKey (ascii "*") d.text t.text) key.text ↔
        ∃ (s : HostName) (t' : RosName), key.text = topicDirectedKey s.text d.text t'.text ∧
          normalizeRosName t'.text = normalizeRosName t.text := by
  have hparse : ∀ (h : HostName) (hostname : Bytes),
      parseAliveKey (aliveKey h.text) (some hostname) = (true, some h.text) := by
    intro h hostname
    rw [parseAliveKey_aliveKey, if_neg (not_or.mpr ⟨h.ne_nil, h.slash_not_mem⟩)]
  refine ⟨normalizeRosName_idem, normalizeRosName_inj, ?_, Key.text_inj, hparse, ?_, ?_⟩
  · intro key hempty
    rw [Key.splitOn_text] at hempty
    exact (key.isPath_path [] hempty).1 rfl
  · intro key hostname
    constructor
    · exact Key.eq_alive_of_parseAliveKey
    · rintro ⟨h, rfl⟩
      rw [Key.text, hparse]
  · intro d t key
    apply (matches_directedSubscription d t key).trans
    constructor
    · rintro ⟨s, t', rfl, ht⟩
      exact ⟨s, t', rfl, ht⟩
    · rintro ⟨s, t', htext, ht⟩
      have hsame := (Key.text_inj key (.directed s d t')).mp htext
      cases key with
      | fanout s' t₂ => cases hsame
      | service s' t₂ => cases hsame
      | alive h => cases hsame
      | directed s' d' t₂ =>
        rcases hsame with ⟨rfl, rfl, hname⟩
        exact ⟨s', t₂, rfl, hname.trans ht⟩

end NetBridge.Transport
