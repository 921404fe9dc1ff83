import NetBridge.Topic.Reception

/-!
# The receivers of a host

What arrives on the subscriptions of a host,
`src/swarm_ros_bridge/src/transport/zenoh_transport.cpp:404–428`, and what its receivers publish of
it, `src/topic_factory.cpp:433–515`. Any bytes may arrive on any subscription at any time; each
receiver is the one of `Reception`.
-/

namespace NetBridge.Topic

open NetBridge.Base NetBridge.Transport

/-- The receivers of a host under their names, with the record of the bytes that arrived for them
and of the envelopes whose messages they have published. -/
structure Intake where
  receptions : Bytes → Reception
  samples : List (Bytes × Bytes) := []
  publications : List (Bytes × TransportEnvelope) := []

/-- The atomic steps. -/
inductive IntakeAction where
  /-- A sample arrives on the subscription of a receiver. -/
  | sample (name bytes : Bytes)
  /-- The worker or the owner of a receiver moves on. -/
  | work (name : Bytes) (action : ReceptionAction)

namespace Intake

/-- What `on_sample` makes of the bytes; `zenoh_transport.cpp:412–417`. -/
def decode (bytes : Bytes) : Option TransportEnvelope :=
  match decodeEnvelope (some bytes) (some {}) none with
  | (true, envelope, _) => envelope
  | (false, _, _) => none

/-- A receiver moves on. -/
def set (s : Intake) (name : Bytes) (r : Reception) : Intake :=
  { s with receptions := fun n ↦ if n = name then r else s.receptions n }

/-- What a receiver publishes in a step; `topic_factory.cpp:429`. -/
def published (r : Reception) : ReceptionAction → List TransportEnvelope
  | .publish _ _ => r.popped.toList
  | _ => []

section

variable (msgs : List MessageType)

/-- `on_sample`; `zenoh_transport.cpp:407–423`. -/
def sample (topicCfg : TopicCfg) (s : Intake) (name bytes : Bytes) : Option Intake :=
  let s := { s with samples := s.samples ++ [(name, bytes)] }
  match decode bytes with
  | some envelope =>
    ((s.receptions name).step msgs topicCfg (.enqueue envelope)).map (s.set name)
  | none => some s

/-- A step of a receiver but for its calls, which are made by `on_sample`. -/
def work (topicCfg : TopicCfg) (s : Intake) (name : Bytes) (action : ReceptionAction) :
    Option Intake :=
  match action with
  | .enqueue _ => none
  | action => ((s.receptions name).step msgs topicCfg action).map fun r ↦
    { s.set name r with publications := s.publications ++
        (published (s.receptions name) action).map fun envelope ↦ (name, envelope) }

/-- One atomic step of a host with these receivers. -/
def step (recvTopics : Std.ExtTreeMap Bytes TopicFactory) (s : Intake) :
    IntakeAction → Option Intake
  | .sample name bytes =>
    recvTopics[name]?.bind fun factory ↦ s.sample msgs factory.topicCfg name bytes
  | .work name action =>
    recvTopics[name]?.bind fun factory ↦ s.work msgs factory.topicCfg name action

end

/-- All receivers have been started. -/
def start (recvTopics : Std.ExtTreeMap Bytes TopicFactory) : Intake where
  receptions name := (recvTopics[name]?.map fun factory ↦ Reception.start factory.topicCfg).getD {}

end Intake

/-- A host with these receivers. -/
def intake (msgs : List MessageType) (recvTopics : Std.ExtTreeMap Bytes TopicFactory) :
    Machine Intake IntakeAction where
  init s := s = Intake.start recvTopics
  step := Intake.step msgs recvTopics

/-! ## What a receiver holds -/

namespace Reception

variable {msgs : List MessageType} {topicCfg : TopicCfg} {r r' : Reception}

/-- An envelope waits or is in the worker. -/
def Holds (r : Reception) (envelope : TransportEnvelope) : Prop :=
  envelope ∈ r.recvQueue ∨ r.popped = some envelope

private theorem holds_push {envelope e : TransportEnvelope}
    (h : (r.push topicCfg envelope).Holds e) : r.Holds e ∨ e = envelope := by
  unfold push at h
  split at h
  · exact Or.inl h
  · rcases pushToBoundedEnvelopeQueue_cases topicCfg.qosClass envelope r.recvQueue with
      ⟨_, hpush⟩ | ⟨_, _, hpush⟩ | ⟨_, _, oldest, rest, hqueue, hpush⟩
    · rw [hpush] at h
      rcases h with h | h
      · rcases List.mem_append.mp h with h | h
        · exact Or.inl (Or.inl h)
        · exact Or.inr (by simpa using h)
      · exact Or.inl (Or.inr h)
    · rw [hpush] at h
      exact Or.inl h
    · rw [hpush] at h
      rcases h with h | h
      · rcases List.mem_append.mp h with h | h
        · exact Or.inl (Or.inl (by rw [hqueue]; exact List.mem_cons_of_mem oldest h))
        · exact Or.inr (by simpa using h)
      · exact Or.inl (Or.inr h)

/-- A call leaves nothing in a receiver but its own envelope, if that is admitted. -/
theorem holds_enqueueEnvelope {envelope e : TransportEnvelope}
    (h : (r.enqueueEnvelope msgs topicCfg envelope).Holds e) :
    r.Holds e ∨ (e = envelope ∧ admits msgs topicCfg envelope = true) := by
  unfold enqueueEnvelope at h
  split at h
  · next hadmits =>
    rcases holds_push h with h | rfl
    · have hobserve : (r.observe topicCfg envelope).recvQueue = r.recvQueue ∧
          (r.observe topicCfg envelope).popped = r.popped := by
        unfold observe
        split
        · exact ⟨rfl, rfl⟩
        · exact ⟨rfl, rfl⟩
      rw [Holds, hobserve.1, hobserve.2] at h
      exact Or.inl h
    · exact Or.inr ⟨rfl, hadmits⟩
  · exact Or.inl h

/-- A step leaves nothing in a receiver but the admitted envelope of a call. -/
theorem holds_step {a : ReceptionAction} (h : r.step msgs topicCfg a = some r')
    {e : TransportEnvelope} (he : r'.Holds e) :
    r.Holds e ∨ (a = .enqueue e ∧ admits msgs topicCfg e = true) := by
  cases a with
  | enqueue envelope =>
    cases h
    rcases holds_enqueueEnvelope he with he | ⟨rfl, hadmits⟩
    · exact Or.inl he
    · exact Or.inr ⟨rfl, hadmits⟩
  | pop =>
    rcases step_pop h with ⟨envelope, queue, _, hqueue, rfl⟩
    rcases he with he | he
    · exact Or.inl (Or.inl (by rw [hqueue]; exact List.mem_cons_of_mem envelope he))
    · cases he
      exact Or.inl (Or.inl (by rw [hqueue]; exact List.mem_cons_self))
  | publish latencyNow now =>
    rcases step_publish h with ⟨_, _, rfl⟩
    rcases he with he | he
    · exact Or.inl (Or.inl he)
    · cases he
  | fail =>
    rcases step_fail h with ⟨_, _, rfl⟩
    rcases he with he | he
    · exact Or.inl (Or.inl he)
    · cases he
  | stop =>
    cases h
    exact Or.inl he

end Reception

namespace Intake

variable {msgs : List MessageType} {recvTopics : Std.ExtTreeMap Bytes TopicFactory}
  {s s' : Intake}

/-- An envelope that a receiver has admitted, decoded from a sample of its subscription. -/
structure Origin (msgs : List MessageType) (recvTopics : Std.ExtTreeMap Bytes TopicFactory)
    (s : Intake) (name : Bytes) (envelope : TransportEnvelope) : Prop where
  admitted : ∃ factory, recvTopics[name]? = some factory ∧
    admits msgs factory.topicCfg envelope = true
  decoded : ∃ bytes, (name, bytes) ∈ s.samples ∧ decode bytes = some envelope

/-- All that a receiver holds or has published has such an origin. -/
def Traced (msgs : List MessageType) (recvTopics : Std.ExtTreeMap Bytes TopicFactory)
    (s : Intake) : Prop :=
  ∀ name envelope, (s.receptions name).Holds envelope ∨ (name, envelope) ∈ s.publications →
    Origin msgs recvTopics s name envelope

/-- Samples are never forgotten. -/
theorem Origin.mono {name : Bytes} {envelope : TransportEnvelope}
    (h : Origin msgs recvTopics s name envelope) (hsamples : s.samples ⊆ s'.samples) :
    Origin msgs recvTopics s' name envelope := by
  rcases h.decoded with ⟨bytes, hmem, hdecode⟩
  exact ⟨h.admitted, bytes, hsamples hmem, hdecode⟩

/-- A new intake goes back to nothing. -/
theorem traced_start : Traced msgs recvTopics (start recvTopics) := by
  intro name envelope h
  simp only [start, Reception.Holds, List.not_mem_nil, or_false] at h
  cases hfactory : recvTopics[name]? with
  | none => simp [hfactory] at h
  | some factory => simp [hfactory, Reception.start] at h

private theorem traced_sample (hs : Traced msgs recvTopics s) {name bytes : Bytes}
    {factory : TopicFactory} (hfactory : recvTopics[name]? = some factory)
    (h : s.sample msgs factory.topicCfg name bytes = some s') : Traced msgs recvTopics s' := by
  have hold : ∀ {t : Intake}, t.samples = s.samples ++ [(name, bytes)] → ∀ n e,
      (s.receptions n).Holds e ∨ (n, e) ∈ s.publications → Origin msgs recvTopics t n e := by
    intro t ht n e he
    apply (hs n e he).mono
    rw [ht]
    exact List.subset_append_left _ _
  unfold sample at h
  dsimp only at h
  split at h
  · next envelope hdecode =>
    rcases Option.map_eq_some_iff.mp h with ⟨r, hr, rfl⟩
    intro n e he
    rcases he with he | he
    · simp only [set] at he
      split at he
      · next hn =>
        rcases Reception.holds_step hr he with he | ⟨hcall, hadmits⟩
        · exact hold rfl n e (Or.inl (by rw [hn]; exact he))
        · cases hcall
          rw [hn]
          exact ⟨⟨factory, hfactory, hadmits⟩, bytes, by simp [set], hdecode⟩
      · exact hold rfl n e (Or.inl he)
    · exact hold rfl n e (Or.inr he)
  · cases h
    exact hold rfl

private theorem traced_work (hs : Traced msgs recvTopics s) {name : Bytes}
    {action : ReceptionAction} {factory : TopicFactory}
    (h : s.work msgs factory.topicCfg name action = some s') : Traced msgs recvTopics s' := by
  have hsteps : ∃ r, (s.receptions name).step msgs factory.topicCfg action = some r ∧
      (∀ envelope, action ≠ .enqueue envelope) ∧
      s' = { s.set name r with publications := s.publications ++
        (published (s.receptions name) action).map fun envelope ↦ (name, envelope) } := by
    cases action with
    | enqueue envelope => cases h
    | stop =>
      cases h
      exact ⟨_, rfl, nofun, rfl⟩
    | pop | publish _ _ | fail =>
      rcases Option.map_eq_some_iff.mp h with ⟨r, hr, rfl⟩
      exact ⟨r, hr, nofun, rfl⟩
  rcases hsteps with ⟨r, hr, hcall, rfl⟩
  intro n e he
  have horigin : (s.receptions n).Holds e ∨ (n, e) ∈ s.publications := by
    rcases he with he | he
    · simp only [set] at he
      split at he
      · next hn =>
        rcases Reception.holds_step hr he with he | ⟨hc, _⟩
        · exact Or.inl (by rw [hn]; exact he)
        · exact absurd hc (hcall e)
      · exact Or.inl he
    · rcases List.mem_append.mp he with he | he
      · exact Or.inr he
      · rcases List.mem_map.mp he with ⟨envelope, hpublished, hpair⟩
        cases hpair
        cases action with
        | publish _ _ => exact Or.inl (Or.inr (by simpa [published] using hpublished))
        | enqueue _ | pop | fail | stop => cases hpublished
  exact (hs n e horigin).mono (List.Subset.refl _)

/-- Each step traces what it does. -/
theorem traced_step (s : Intake) (a : IntakeAction) (s' : Intake) (hs : Traced msgs recvTopics s)
    (h : s.step msgs recvTopics a = some s') : Traced msgs recvTopics s' := by
  cases a with
  | sample name bytes =>
    rcases Option.bind_eq_some_iff.mp h with ⟨factory, hfactory, h⟩
    exact traced_sample hs hfactory h
  | work name action =>
    rcases Option.bind_eq_some_iff.mp h with ⟨factory, _, h⟩
    exact traced_work hs h

/-- What a host publishes has been admitted and comes from bytes that arrived. -/
theorem traced_of_reachable (h : (intake msgs recvTopics).Reachable s) :
    Traced msgs recvTopics s := by
  apply h.invariant
  · rintro _ rfl
    exact traced_start
  · exact traced_step

end Intake

end NetBridge.Topic
