import NetBridge.Base.LossyFifo
import NetBridge.Topic.Intake
import NetBridge.Topic.LossInference
import NetBridge.Transport.WireFormat

/-!
# From the sender to the receiver

A sending `TopicFactory` (`src/swarm_ros_bridge/src/topic_factory.cpp:136–232`), Zenoh, and a
receiving one (`src/topic_factory.cpp:433–515`) on another host. Zenoh keeps the frames of a
publisher in their order, or loses them; frames of other hosts may arrive in between, each with the
name of its own host.
-/

namespace NetBridge.Topic

open NetBridge.Base NetBridge.Diagnostics NetBridge.Transport

/-- A sender, its frames in flight, and a receiver; the envelopes whose messages the receiver has
published, and the numbers of messages that it failed to publish, of frames that were lost and of
envelopes of other hosts. -/
structure Delivery where
  sender : Sender
  flight : List Bytes := []
  reception : Reception
  publications : List TransportEnvelope := []
  failed : Nat := 0
  lost : Nat := 0
  foreign : Nat := 0

/-- The atomic steps. -/
inductive DeliveryAction where
  /-- A message reaches `subCallback`. -/
  | callback (c : Callback)
  /-- The oldest frame in flight arrives. -/
  | arrive
  /-- Zenoh loses a frame. -/
  | lose (i : Nat)
  /-- Bytes of another host arrive. -/
  | foreign (bytes : Bytes)
  /-- The worker or the owner of the receiver moves on. -/
  | work (action : ReceptionAction)

namespace Delivery

/-- The frame that `Publish` puts; `zenoh_transport.cpp:343–349`. -/
def wire (envelope : TransportEnvelope) : Bytes :=
  ((encodeEnvelope envelope (some []) (some [])).2.1).getD []

section

variable (msgs : List MessageType) (topicCfg : TopicCfg) (subscribed : Bytes → Bool)

/-- The envelopes among some publications whose keys the receiver is subscribed to. -/
def routed (publications : List (Bytes × TransportEnvelope)) : List TransportEnvelope :=
  (publications.filter fun publication ↦ subscribed publication.1).map Prod.snd

/-- `on_sample` with the bytes of a frame; `zenoh_transport.cpp:407–423`. -/
def sample (s : Delivery) (envelope : TransportEnvelope) : Option Delivery :=
  (s.reception.step msgs topicCfg (.enqueue envelope)).map fun reception ↦ { s with reception }

/-- One atomic step, where it is enabled. -/
def step (s : Delivery) : DeliveryAction → Option Delivery
  | .callback c =>
    let sender := s.sender.subCallback msgs c
    let published := sender.publications.drop s.sender.publications.length
    some { s with sender, flight := s.flight ++ (routed subscribed published).map wire }
  | .arrive =>
    match s.flight with
    | [] => none
    | bytes :: flight =>
      match Intake.decode bytes with
      | none => some { s with flight }
      | some envelope => sample msgs topicCfg { s with flight } envelope
  | .lose i =>
    if i < s.flight.length then some { s with flight := s.flight.eraseIdx i, lost := s.lost + 1 }
    else none
  | .foreign bytes =>
    match Intake.decode bytes with
    | none => some s
    | some envelope =>
      if envelope.sourceHost = s.sender.factory.topicCfg.myHostname then none
      else sample msgs topicCfg { s with foreign := s.foreign + 1 } envelope
  | .work action =>
    match action with
    | .enqueue _ => none
    | action =>
      (s.reception.step msgs topicCfg action).map fun reception ↦ { s with
        reception
        publications := s.publications ++ Intake.published s.reception action
        failed := s.failed + action.failed }

end

end Delivery

/-- A new sender and a receiver that has been started. -/
def delivery (msgs : List MessageType) (factory : TopicFactory) (topicCfg : TopicCfg)
    (subscribed : Bytes → Bool) : Machine Delivery DeliveryAction where
  init s := s = { sender := .start factory, reception := .start topicCfg }
  step := Delivery.step msgs topicCfg subscribed

namespace Delivery

variable {msgs : List MessageType} {factory : TopicFactory} {topicCfg : TopicCfg}
  {subscribed : Bytes → Bool} {s s' : Delivery}

/-- The callbacks of a run. -/
def callbacks (actions : List DeliveryAction) : List Callback :=
  actions.filterMap fun action ↦ match action with
    | .callback c => some c
    | _ => none

end Delivery

/-! ## What a callback publishes -/

namespace Sender

variable {msgs : List MessageType} {s s' s'' : Sender}

/-- A sender of a configuration builds the envelope of some message. -/
def Builds (msgs : List MessageType) (topicCfg : TopicCfg) (envelope : TransportEnvelope) : Prop :=
  ∃ sequence sourceTimeNs sourceHeaderSequence frameId payload,
    envelope =
      buildEnvelope msgs topicCfg sequence sourceTimeNs sourceHeaderSequence frameId payload

/-- The envelope of a callback is one that the sender builds. -/
theorem builds_envelope (msgs : List MessageType) (topicCfg : TopicCfg) (c : Callback)
    (sequence : UInt64) (payload : Bytes) :
    Builds msgs topicCfg (c.envelope msgs topicCfg sequence payload) := by
  unfold Callback.envelope
  split
  · exact ⟨_, _, _, _, _, rfl⟩
  · exact ⟨_, _, _, _, _, rfl⟩

/-- From one state to another only envelopes that the sender builds, and that fit the format, have
been published. -/
structure Publishes (msgs : List MessageType) (s s' : Sender) : Prop where
  factory : s'.factory = s.factory
  publications : ∃ published, s'.publications = s.publications ++ published ∧
    ∀ publication ∈ published, publication.2.Fits ∧
      Builds msgs s.factory.topicCfg publication.2

/-- What is published in two parts of a run. -/
theorem Publishes.trans (h : Publishes msgs s s') (h' : Publishes msgs s' s'') :
    Publishes msgs s s'' := by
  rcases h.publications with ⟨published, heq, hall⟩
  rcases h'.publications with ⟨published', heq', hall'⟩
  refine ⟨h'.factory.trans h.factory, published ++ published', ?_, ?_⟩
  · rw [heq', heq, List.append_assoc]
  · intro publication hm
    rcases List.mem_append.mp hm with hm | hm
    · exact hall publication hm
    · rw [← h.factory]
      exact hall' publication hm

/-- A state that differs in neither publishes nothing. -/
theorem publishes_of_eq (hfactory : s'.factory = s.factory)
    (hpublications : s'.publications = s.publications) : Publishes msgs s s' :=
  ⟨hfactory, [], by rw [hpublications, List.append_nil], nofun⟩

/-- A drop adds no publication. -/
theorem publications_drop (s : Sender) {event : SendEvent} (h : event.publication = none) :
    (s.drop event).publications = s.publications := by
  show (s.events ++ [event]).filterMap SendEvent.publication = s.publications
  rw [List.filterMap_append, List.filterMap_cons_none h, List.filterMap_nil, List.append_nil]
  rfl

/-- A drop publishes nothing. -/
theorem publishes_drop (s : Sender) {event : SendEvent} (h : event.publication = none) :
    Publishes msgs s (s.drop event) :=
  publishes_of_eq rfl (publications_drop s h)

/-- `Publish` puts an envelope that fits the format, or the message is dropped. -/
theorem publishes_publish (s : Sender) (publisher : Publisher) {envelope : TransportEnvelope}
    (hbuilt : Builds msgs s.factory.topicCfg envelope) (put : Bool) (now : RosTime) :
    Publishes msgs s (s.publish publisher envelope put now) := by
  unfold publish
  split
  · next hput =>
    rw [Bool.and_eq_true] at hput
    refine ⟨rfl, [(publisher.key, envelope)], ?_, ?_⟩
    · simp [Sender.publications]
    · intro publication hm
      rw [List.mem_singleton.mp hm]
      exact ⟨(encodeEnvelope_ok_iff envelope [] (some [])).mp hput.1, hbuilt⟩
  · exact publishes_drop s rfl

/-- The loop over `to_drone_ids` publishes its one envelope. -/
theorem publishes_directed {envelope : TransportEnvelope} (c : Callback)
    (ids : List (UInt8 × Nat)) (s : Sender)
    (hbuilt : Builds msgs s.factory.topicCfg envelope) :
    Publishes msgs s (ids.foldl (publishDirected envelope c) s) := by
  induction ids generalizing s with
  | nil => exact publishes_of_eq rfl rfl
  | cons id ids ih =>
    have hfirst : Publishes msgs s (s.publishDirected envelope c id) := by
      unfold publishDirected
      split
      · exact publishes_drop s rfl
      · exact publishes_publish s _ hbuilt _ _
    exact hfirst.trans (ih _ (hfirst.factory ▸ hbuilt))

/-- A callback publishes envelopes that the sender builds. -/
theorem publishes_subCallback (msgs : List MessageType) (s : Sender) (c : Callback) :
    Publishes msgs s (s.subCallback msgs c) := by
  unfold subCallback
  rcases s.sendFreqControl_cases c.now with ⟨subLastTime, hcontrol⟩ | hcontrol
  · rw [hcontrol]
    dsimp only
    have hnext : Publishes msgs s { s with subLastTime, sequence := s.sequence + 1 } :=
      publishes_of_eq rfl rfl
    apply hnext.trans
    split
    · exact publishes_drop _ rfl
    · split
      · exact publishes_directed c _ _ (builds_envelope msgs _ c _ _)
      · split
        · exact publishes_publish { s with subLastTime, sequence := s.sequence + 1 } _
            (builds_envelope msgs _ c _ _) _ _
        · exact publishes_drop _ rfl
  · rw [hcontrol]
    exact publishes_drop s rfl

end Sender

/-! ## What a receiver holds in order -/

namespace Reception

variable {msgs : List MessageType} {topicCfg : TopicCfg} {r r' : Reception}

/-- What is in the worker and in the queue, oldest first. -/
def inHand (r : Reception) : List TransportEnvelope := r.popped.toList ++ r.recvQueue

/-- A call leaves its envelope behind the others, if it is admitted at all, and loses some of
them. -/
theorem inHand_admitted {envelope : TransportEnvelope}
    (h : r.step msgs topicCfg (.enqueue envelope) = some r') :
    r'.inHand.Sublist (r.inHand ++ [envelope].filter (admits msgs topicCfg)) := by
  cases h
  unfold inHand enqueueEnvelope
  split
  · next hadmits =>
    have hobserve : (r.observe topicCfg envelope).recvQueue = r.recvQueue ∧
        (r.observe topicCfg envelope).popped = r.popped := by
      unfold observe
      split
      · exact ⟨rfl, rfl⟩
      · exact ⟨rfl, rfl⟩
    rw [← hobserve.1, ← hobserve.2, List.append_assoc, List.filter_cons_of_pos hadmits]
    unfold push
    split
    · exact (List.sublist_append_left _ _).append_left _
    · rcases pushToBoundedEnvelopeQueue_cases topicCfg.qosClass envelope
          (r.observe topicCfg envelope).recvQueue with
        ⟨_, hpush⟩ | ⟨_, _, hpush⟩ | ⟨_, _, oldest, rest, hqueue, hpush⟩
      · rw [hpush]
        exact .refl _
      · rw [hpush]
        exact (List.sublist_append_left _ _).append_left _
      · rw [hpush, hqueue]
        exact (List.sublist_cons_self oldest _).append_left _
  · exact List.sublist_append_left _ _

/-- A call leaves at most its envelope behind the others. -/
theorem inHand_enqueue {envelope : TransportEnvelope}
    (h : r.step msgs topicCfg (.enqueue envelope) = some r') :
    r'.inHand.Sublist (r.inHand ++ [envelope]) :=
  (inHand_admitted h).trans (List.filter_sublist.append_left _)

/-- Any other step takes what it publishes from the front. -/
theorem inHand_work {a : ReceptionAction} (ha : ∀ envelope, a ≠ .enqueue envelope)
    (h : r.step msgs topicCfg a = some r') :
    (Intake.published r a ++ r'.inHand).Sublist r.inHand := by
  cases a with
  | enqueue envelope => exact absurd rfl (ha envelope)
  | pop =>
    rcases step_pop h with ⟨envelope, queue, hpopped, hqueue, rfl⟩
    rw [inHand, inHand, hpopped, hqueue]
    exact .refl _
  | publish latencyNow now =>
    rcases step_publish h with ⟨envelope, hpopped, rfl⟩
    rw [Intake.published, inHand, inHand, hpopped]
    exact .refl _
  | fail =>
    rcases step_fail h with ⟨envelope, hpopped, rfl⟩
    rw [inHand, inHand, hpopped]
    exact List.sublist_cons_self envelope _
  | stop =>
    cases h
    exact .refl _

end Reception

/-! ## The delivery as a lossy channel -/

namespace Delivery

variable {msgs : List MessageType} {factory : TopicFactory} {topicCfg : TopicCfg}
  {subscribed : Bytes → Bool} {s s' : Delivery}

/-- The envelope is one of the sender. -/
def mine (factory : TopicFactory) (envelope : TransportEnvelope) : Bool :=
  envelope.sourceHost = factory.topicCfg.myHostname

/-- The frames in flight are those of envelopes that the sender has built. -/
structure InFlight (msgs : List MessageType) (factory : TopicFactory) (s : Delivery)
    (envelopes : List TransportEnvelope) : Prop where
  unchanged : s.sender.factory = factory
  flight : s.flight = envelopes.map wire
  built : ∀ envelope ∈ envelopes, envelope.Fits ∧ Sender.Builds msgs factory.topicCfg envelope

/-- The published envelopes that are routed to the receiver are in the channel until their messages
are published; frames in flight are such envelopes. -/
structure Carried (msgs : List MessageType) (factory : TopicFactory) (subscribed : Bytes → Bool)
    (s : Delivery) (c : Channel TransportEnvelope) : Prop where
  sent : c.sent = routed subscribed s.sender.publications
  inside : ∃ envelopes, s.InFlight msgs factory envelopes ∧
    c.inside = s.reception.inHand.filter (mine factory) ++ envelopes
  received : c.received = s.publications.filter (mine factory)

/-- What a sender builds carries its name. -/
theorem mine_of_builds {envelope : TransportEnvelope}
    (h : Sender.Builds msgs factory.topicCfg envelope) : mine factory envelope = true := by
  rcases h with ⟨_, _, _, _, _, rfl⟩
  exact decide_eq_true rfl

/-- A frame is decoded into the envelope that was put. -/
theorem decode_wire {envelope : TransportEnvelope} (hfits : envelope.Fits) :
    Intake.decode (wire envelope) = some envelope := by
  rw [Intake.decode, wire, encodeEnvelope_of_fits envelope hfits, Option.getD_some,
    decodeEnvelope_frame envelope hfits]

/-! ## What each step does to the frames in flight -/

/-- What a callback publishes to the receiver is in flight behind the other frames. -/
theorem InFlight.callback {envelopes : List TransportEnvelope}
    (hs : s.InFlight msgs factory envelopes) {callback : Callback}
    (h : s.step msgs topicCfg subscribed (.callback callback) = some s') :
    ∃ published : List TransportEnvelope,
      routed subscribed s'.sender.publications =
        routed subscribed s.sender.publications ++ published ∧
      s' = { s with sender := s'.sender, flight := s'.flight } ∧
      s'.InFlight msgs factory (envelopes ++ published) := by
  cases h
  rcases Sender.publishes_subCallback msgs s.sender callback with
    ⟨hfactory, published, hpublications, hall⟩
  have hdrop : (s.sender.subCallback msgs callback).publications.drop
      s.sender.publications.length = published := by
    rw [hpublications, List.drop_left]
  refine ⟨routed subscribed published, ?_, rfl, hfactory.trans hs.unchanged, ?_, ?_⟩
  · rw [hpublications, routed, routed, routed, List.filter_append, List.map_append]
  · rw [hdrop, hs.flight, List.map_append]
  · intro envelope hm
    rcases List.mem_append.mp hm with hm | hm
    · exact hs.built envelope hm
    · rcases List.mem_map.mp hm with ⟨publication, hpublished, rfl⟩
      have hpublication := hall publication (List.mem_filter.mp hpublished).1
      exact ⟨hpublication.1, hs.unchanged ▸ hpublication.2⟩

/-- The oldest envelope in flight is handed to the receiver. -/
theorem InFlight.arrive {envelopes : List TransportEnvelope}
    (hs : s.InFlight msgs factory envelopes)
    (h : s.step msgs topicCfg subscribed .arrive = some s') :
    ∃ envelope rest reception, envelopes = envelope :: rest ∧
      Sender.Builds msgs factory.topicCfg envelope ∧
      s.reception.step msgs topicCfg (.enqueue envelope) = some reception ∧
      s' = { s with flight := rest.map wire, reception } ∧ s'.InFlight msgs factory rest := by
  have hflight := hs.flight
  simp only [step] at h
  split at h
  · cases h
  · next bytes flight hnext =>
    cases envelopes with
    | nil => cases hflight.symm.trans hnext
    | cons envelope rest =>
      rcases List.cons.inj (hflight.symm.trans hnext) with ⟨rfl, rfl⟩
      rcases hs.built envelope List.mem_cons_self with ⟨hfit, hbuilt⟩
      rw [decode_wire hfit] at h
      rcases Option.map_eq_some_iff.mp h with ⟨reception, hstep, rfl⟩
      exact ⟨envelope, rest, reception, rfl, hbuilt, hstep, rfl, hs.unchanged, rfl,
        fun e hm ↦ hs.built e (List.mem_cons_of_mem _ hm)⟩

/-- A lost frame leaves the others. -/
theorem InFlight.lose {envelopes : List TransportEnvelope}
    (hs : s.InFlight msgs factory envelopes) {i : Nat}
    (h : s.step msgs topicCfg subscribed (.lose i) = some s') :
    i < s.flight.length ∧ s' = { s with flight := s.flight.eraseIdx i, lost := s.lost + 1 } ∧
      s'.InFlight msgs factory (envelopes.eraseIdx i) := by
  simp only [step] at h
  split at h
  · next hlt =>
    cases h
    refine ⟨hlt, rfl, hs.unchanged, ?_, ?_⟩
    · rw [hs.flight, List.eraseIdx_map]
    · intro envelope hm
      exact hs.built envelope ((List.eraseIdx_sublist envelopes i).subset hm)
  · cases h

/-- Bytes of another host are refused by the decoder, or their envelope is handed to the receiver
and is not one of the sender. -/
theorem InFlight.foreign {envelopes : List TransportEnvelope}
    (hs : s.InFlight msgs factory envelopes) {bytes : Bytes}
    (h : s.step msgs topicCfg subscribed (.foreign bytes) = some s') :
    s' = s ∨ ∃ envelope reception, mine factory envelope = false ∧
      s.reception.step msgs topicCfg (.enqueue envelope) = some reception ∧
      s' = { s with foreign := s.foreign + 1, reception } := by
  simp only [step] at h
  split at h
  · cases h
    exact Or.inl rfl
  · next envelope _ =>
    split at h
    · cases h
    · next hother =>
      rcases Option.map_eq_some_iff.mp h with ⟨reception, hstep, rfl⟩
      rw [hs.unchanged] at hother
      exact Or.inr ⟨envelope, reception, decide_eq_false hother, hstep, rfl⟩

/-- The worker or the owner moves on, with what the receiver publishes then. -/
theorem step_work {action : ReceptionAction}
    (h : s.step msgs topicCfg subscribed (.work action) = some s') :
    (∀ envelope, action ≠ .enqueue envelope) ∧
      ∃ reception, s.reception.step msgs topicCfg action = some reception ∧
        s' = { s with
          reception
          publications := s.publications ++ Intake.published s.reception action
          failed := s.failed + action.failed } := by
  simp only [step] at h
  split at h
  · cases h
  · next hne =>
    rcases Option.map_eq_some_iff.mp h with ⟨reception, hstep, rfl⟩
    exact ⟨hne, reception, hstep, rfl⟩

/-! ## What is in the channel -/

private theorem carried_callback {c : Channel TransportEnvelope}
    (hs : s.Carried msgs factory subscribed c) (callback : Callback)
    (h : s.step msgs topicCfg subscribed (.callback callback) = some s') :
    ∃ values, s'.Carried msgs factory subscribed
      { c with sent := c.sent ++ values, inside := c.inside ++ values } := by
  rcases hs.inside with ⟨envelopes, hflight, hinside⟩
  rcases hflight.callback h with ⟨published, hrouted, heq, hflight'⟩
  have hpublications : s'.publications = s.publications := by rw [heq]
  have hreception : s'.reception = s.reception := by rw [heq]
  refine ⟨published, ?_, ⟨envelopes ++ published, hflight', ?_⟩, ?_⟩
  · rw [hrouted, ← hs.sent]
  · show c.inside ++ published = _
    rw [hinside, hreception, List.append_assoc]
  · rw [hpublications]
    exact hs.received

private theorem carried_arrive {c : Channel TransportEnvelope}
    (hs : s.Carried msgs factory subscribed c)
    (h : s.step msgs topicCfg subscribed .arrive = some s') :
    ∃ kept, kept.Sublist c.inside ∧
      s'.Carried msgs factory subscribed { c with inside := kept } := by
  rcases hs.inside with ⟨envelopes, hflight, hinside⟩
  rcases hflight.arrive h with ⟨envelope, rest, reception, rfl, hbuilt, hstep, rfl, hflight'⟩
  refine ⟨reception.inHand.filter (mine factory) ++ rest, ?_, hs.sent, ⟨rest, hflight', rfl⟩,
    hs.received⟩
  -- The receiver may lose some of what it has.
  have hsublist := (Reception.inHand_enqueue hstep).filter (mine factory)
  rw [List.filter_append, List.filter_cons_of_pos (mine_of_builds hbuilt),
    List.filter_nil] at hsublist
  have hall := hsublist.append_right rest
  rw [List.append_assoc] at hall
  rw [hinside]
  exact hall

private theorem carried_lose {c : Channel TransportEnvelope}
    (hs : s.Carried msgs factory subscribed c) {i : Nat}
    (h : s.step msgs topicCfg subscribed (.lose i) = some s') :
    ∃ kept, kept.Sublist c.inside ∧
      s'.Carried msgs factory subscribed { c with inside := kept } := by
  rcases hs.inside with ⟨envelopes, hflight, hinside⟩
  rcases hflight.lose h with ⟨_, rfl, hflight'⟩
  refine ⟨s.reception.inHand.filter (mine factory) ++ envelopes.eraseIdx i, ?_, hs.sent,
    ⟨envelopes.eraseIdx i, hflight', rfl⟩, hs.received⟩
  rw [hinside]
  exact (List.eraseIdx_sublist envelopes i).append_left _

private theorem carried_foreign {c : Channel TransportEnvelope}
    (hs : s.Carried msgs factory subscribed c) {bytes : Bytes}
    (h : s.step msgs topicCfg subscribed (.foreign bytes) = some s') :
    ∃ kept, kept.Sublist c.inside ∧
      s'.Carried msgs factory subscribed { c with inside := kept } := by
  rcases hs.inside with ⟨envelopes, hflight, hinside⟩
  rcases hflight.foreign h with rfl | ⟨envelope, reception, hother, hstep, rfl⟩
  · exact ⟨c.inside, .refl _, hs⟩
  · refine ⟨reception.inHand.filter (mine factory) ++ envelopes, ?_, hs.sent,
      ⟨envelopes, ⟨hflight.unchanged, hflight.flight, hflight.built⟩, rfl⟩, hs.received⟩
    have hsublist := (Reception.inHand_enqueue hstep).filter (mine factory)
    rw [List.filter_append, List.filter_cons_of_neg (Bool.eq_false_iff.mp hother), List.filter_nil,
      List.append_nil] at hsublist
    rw [hinside]
    exact hsublist.append_right envelopes

private theorem length_published_le (r : Reception) (action : ReceptionAction) :
    (Intake.published r action).length ≤ 1 := by
  unfold Intake.published
  split
  · cases r.popped <;> simp
  · exact Nat.zero_le 1

private theorem carried_work {c : Channel TransportEnvelope}
    (hs : s.Carried msgs factory subscribed c) {action : ReceptionAction}
    (h : s.step msgs topicCfg subscribed (.work action) = some s') :
    ∃ as c', (lossyFifo TransportEnvelope).run c as = some c' ∧
      s'.Carried msgs factory subscribed c' := by
  rcases hs.inside with ⟨envelopes, hflight, hinside⟩
  rcases step_work h with ⟨hne, reception, hstep, rfl⟩
  have hall := ((Reception.inHand_work hne hstep).filter (mine factory)).append_right envelopes
  rw [List.filter_append, ← hinside] at hall
  have hreceived : (s.publications ++ Intake.published s.reception action).filter
      (mine factory) = c.received ++
        (Intake.published s.reception action).filter (mine factory) := by
    rw [List.filter_append, hs.received]
  have hle := le_trans (List.length_filter_le (mine factory)
    (Intake.published s.reception action)) (length_published_le s.reception action)
  -- The step publishes nothing of the sender, or one of its envelopes.
  cases hpublished : (Intake.published s.reception action).filter (mine factory) with
  | nil =>
    rw [hpublished, List.nil_append] at hall
    rw [hpublished, List.append_nil] at hreceived
    exact ⟨_, _, Channel.run_lose rfl c hall, hs.sent,
      ⟨envelopes, ⟨hflight.unchanged, hflight.flight, hflight.built⟩, rfl⟩, hreceived.symm⟩
  | cons envelope rest =>
    rw [hpublished, List.length_cons] at hle
    have hrest : rest = [] := List.eq_nil_of_length_eq_zero (by omega)
    rw [hpublished, hrest, List.singleton_append, List.cons_append] at hall
    rw [hpublished, hrest] at hreceived
    refine ⟨[.lose (envelope :: (reception.inHand.filter (mine factory) ++ envelopes)), .receive],
      { c with
        inside := reception.inHand.filter (mine factory) ++ envelopes
        received := c.received ++ [envelope] }, ?_, hs.sent,
      ⟨envelopes, ⟨hflight.unchanged, hflight.flight, hflight.built⟩, rfl⟩, hreceived.symm⟩
    rw [Machine.run_cons]
    show ((Channel.step c (.lose _)).bind _) = _
    rw [Channel.step, if_pos hall]
    rfl

/-- Each step of a delivery is one of a lossy channel. -/
theorem simulates_lossyFifo (msgs : List MessageType) (factory : TopicFactory)
    (topicCfg : TopicCfg) (subscribed : Bytes → Bool) :
    Machine.Simulates (delivery msgs factory topicCfg subscribed) (lossyFifo TransportEnvelope)
      (Carried msgs factory subscribed) where
  init := by
    rintro _ rfl
    exact ⟨{}, rfl, rfl, ⟨[], ⟨rfl, rfl, nofun⟩, rfl⟩, rfl⟩
  step s c a s' hs h := by
    change s.step msgs topicCfg subscribed a = some s' at h
    have hlose : (∃ kept, kept.Sublist c.inside ∧
        s'.Carried msgs factory subscribed { c with inside := kept }) →
        ∃ as c', (lossyFifo TransportEnvelope).run c as = some c' ∧
          s'.Carried msgs factory subscribed c' := by
      rintro ⟨kept, hkept, hs'⟩
      exact ⟨_, _, Channel.run_lose rfl c hkept, hs'⟩
    cases a with
    | callback callback =>
      rcases carried_callback hs callback h with ⟨values, hs'⟩
      exact ⟨[.send values], _, rfl, hs'⟩
    | arrive => exact hlose (carried_arrive hs h)
    | lose i => exact hlose (carried_lose hs h)
    | foreign bytes => exact hlose (carried_foreign hs h)
    | work action => exact carried_work hs h

/-! ## Every published envelope is accounted for -/

/-- The published envelopes that are routed to the receiver, and those of other hosts, are in
flight, lost, or have been handed to the receiver; there they have been published, could not be,
were refused or lost in the queue, or they wait. -/
structure Counted (msgs : List MessageType) (factory : TopicFactory) (topicCfg : TopicCfg)
    (subscribed : Bytes → Bool) (s : Delivery) : Prop where
  tally : ∃ dropped, s.reception.Tallied s.publications.length dropped
  calls : (routed subscribed s.sender.publications).length + s.foreign =
    s.flight.length + s.lost + s.reception.calls.length
  inside : s.reception.recvThreadFlag = true → s.reception.calls.length =
    s.publications.length + s.reception.queueLosses + s.failed +
      s.reception.refused msgs topicCfg + s.reception.inside
  foreign : s.reception.calls.countP (fun envelope ↦ !mine factory envelope) = s.foreign
  own : ∀ envelope ∈ s.reception.calls, mine factory envelope = true →
    Sender.Builds msgs factory.topicCfg envelope
  kept : (s.publications ++ s.reception.inHand).Sublist
    (s.reception.calls.filter (admits msgs topicCfg))

private theorem counted_sample (hs : s.Counted msgs factory topicCfg subscribed)
    {envelope : TransportEnvelope} {flight : List Bytes} {foreign : Nat} {reception : Reception}
    (hstep : s.reception.step msgs topicCfg (.enqueue envelope) = some reception)
    (hone : s.flight.length + foreign = flight.length + s.foreign + 1)
    (hforeign : foreign = s.foreign + if mine factory envelope then 0 else 1)
    (hbuilt : mine factory envelope = true → Sender.Builds msgs factory.topicCfg envelope) :
    Counted msgs factory topicCfg subscribed { s with flight, foreign, reception } := by
  rcases hs.tally with ⟨dropped, htally⟩
  have hcalls : reception.calls = s.reception.calls ++ [envelope] := by
    cases hstep
    rfl
  refine ⟨Reception.tallied_next htally hstep, ?_, ?_, ?_, ?_, ?_⟩
  · have hbefore := hs.calls
    show (routed subscribed s.sender.publications).length + foreign =
      flight.length + s.lost + reception.calls.length
    rw [hcalls, List.length_append, List.length_singleton]
    omega
  · exact Reception.inside_step hs.inside hstep
  · show reception.calls.countP (fun e ↦ !mine factory e) = foreign
    rw [hcalls, List.countP_append, hs.foreign, List.countP_singleton, hforeign]
    cases mine factory envelope <;> rfl
  · intro e hm
    have hm : e ∈ reception.calls := hm
    rw [hcalls] at hm
    rcases List.mem_append.mp hm with hm | hm
    · exact hs.own e hm
    · rw [List.mem_singleton.mp hm]
      exact hbuilt
  · show (s.publications ++ reception.inHand).Sublist (reception.calls.filter _)
    rw [hcalls, List.filter_append]
    apply ((Reception.inHand_admitted hstep).append_left s.publications).trans
    rw [← List.append_assoc]
    exact hs.kept.append_right _

/-- A step of the worker or of the owner makes no call. -/
theorem calls_work {r r' : Reception} {a : ReceptionAction}
    (ha : ∀ envelope, a ≠ .enqueue envelope) (h : r.step msgs topicCfg a = some r') :
    r'.calls = r.calls ∧ (Intake.published r a).length = a.published := by
  cases a with
  | enqueue envelope => exact absurd rfl (ha envelope)
  | pop =>
    rcases Reception.step_pop h with ⟨envelope, queue, _, _, rfl⟩
    exact ⟨rfl, rfl⟩
  | publish latencyNow now =>
    rcases Reception.step_publish h with ⟨envelope, hpopped, rfl⟩
    rw [Intake.published, hpopped]
    exact ⟨rfl, rfl⟩
  | fail =>
    rcases Reception.step_fail h with ⟨envelope, _, rfl⟩
    exact ⟨rfl, rfl⟩
  | stop =>
    cases h
    exact ⟨rfl, rfl⟩

private theorem counted_step {c : Channel TransportEnvelope}
    (hc : s.Carried msgs factory subscribed c) (hs : s.Counted msgs factory topicCfg subscribed)
    {a : DeliveryAction} (h : s.step msgs topicCfg subscribed a = some s') :
    s'.Counted msgs factory topicCfg subscribed := by
  have hcalls := hs.calls
  rcases hc.inside with ⟨envelopes, hflight, _⟩
  have hlength : s.flight.length = envelopes.length := by
    rw [hflight.flight, List.length_map]
  cases a with
  | callback callback =>
    rcases hflight.callback h with ⟨published, hrouted, heq, hflight'⟩
    have hlength' := congrArg List.length hflight'.flight
    have hrouted := congrArg List.length hrouted
    rw [heq] at hlength' hrouted ⊢
    refine ⟨hs.tally, ?_, hs.inside, hs.foreign, hs.own, hs.kept⟩
    simp only [List.length_map, List.length_append] at hlength' hrouted ⊢
    omega
  | arrive =>
    rcases hflight.arrive h with ⟨envelope, rest, reception, rfl, hbuilt, hstep, rfl, _⟩
    apply counted_sample hs hstep
    · rw [hlength, List.length_map, List.length_cons]
      omega
    · rw [mine_of_builds hbuilt, if_pos rfl, Nat.add_zero]
    · exact fun _ ↦ hbuilt
  | lose i =>
    rcases hflight.lose h with ⟨hlt, rfl, _⟩
    refine ⟨hs.tally, ?_, hs.inside, hs.foreign, hs.own, hs.kept⟩
    have herased := List.length_eraseIdx_add_one hlt
    simp only at hcalls ⊢
    omega
  | foreign bytes =>
    rcases hflight.foreign h with rfl | ⟨envelope, reception, hother, hstep, rfl⟩
    · exact hs
    · apply counted_sample hs hstep
      · omega
      · rw [hother, if_neg Bool.false_ne_true]
      · intro hmine
        rw [hother] at hmine
        cases hmine
  | work action =>
    rcases hs.tally with ⟨dropped, htally⟩
    rcases step_work h with ⟨hne, reception, hstep, rfl⟩
    rcases calls_work hne hstep with ⟨hsame, hlength⟩
    refine ⟨?_, ?_, ?_, ?_, ?_, ?_⟩
    · rw [List.length_append, hlength]
      exact Reception.tallied_next htally hstep
    · rw [hsame]
      exact hcalls
    · rw [List.length_append, hlength]
      exact Reception.inside_step hs.inside hstep
    · rw [hsame]
      exact hs.foreign
    · rw [hsame]
      exact hs.own
    · rw [hsame, List.append_assoc]
      exact ((Reception.inHand_work hne hstep).append_left _).trans hs.kept

/-- A reachable state is that of a reachable channel and accounts for its envelopes. -/
theorem counted_of_reachable
    (h : (delivery msgs factory topicCfg subscribed).Reachable s) :
    ∃ c, (lossyFifo TransportEnvelope).Reachable c ∧ s.Carried msgs factory subscribed c ∧
      s.Counted msgs factory topicCfg subscribed := by
  have hsimulates := simulates_lossyFifo msgs factory topicCfg subscribed
  apply h.invariant (I := fun s ↦ ∃ c, (lossyFifo TransportEnvelope).Reachable c ∧
    s.Carried msgs factory subscribed c ∧ s.Counted msgs factory topicCfg subscribed)
  · rintro s hinit
    rcases hsimulates.init s hinit with ⟨c, hc, hcarried⟩
    cases hinit
    refine ⟨c, .of_init hc, hcarried, ⟨0, ?_⟩, rfl, fun _ ↦ rfl, rfl, nofun, .refl _⟩
    exact ⟨rfl, rfl, rfl, Nat.le_refl 0, fun _ ↦ rfl⟩
  · rintro s a s' ⟨c, hc, hcarried, hcounted⟩ hstep
    rcases hsimulates.step s c a s' hcarried hstep with ⟨as, c', hrun, hcarried'⟩
    exact ⟨c', hc.run hrun, hcarried', counted_step hcarried hcounted hstep⟩

/-- What holds of a sender, Zenoh and a receiver at any time. -/
structure Delivered (msgs : List MessageType) (factory : TopicFactory) (topicCfg : TopicCfg)
    (subscribed : Bytes → Bool) (s : Delivery) : Prop where
  /-- The receiver publishes messages that were sent, each at most once and in their order. -/
  order : (s.publications.filter (mine factory)).Sublist (routed subscribed s.sender.publications)
  received : s.reception.metrics.totalReceived = UInt64.ofNat s.publications.length
  /-- Every frame is accounted for while the receiver runs. -/
  accounted : s.reception.recvThreadFlag = true →
    (routed subscribed s.sender.publications).length + s.foreign = s.flight.length + s.lost +
      s.publications.length + s.reception.queueLosses + s.failed +
        s.reception.refused msgs topicCfg + s.reception.inside
  /-- While it runs, a receiver that admits what the sender builds misses none of it, where nothing
  is lost on the way, in the queue or in the worker. -/
  complete : s.reception.recvThreadFlag = true →
    (∀ envelope, Sender.Builds msgs factory.topicCfg envelope →
      admits msgs topicCfg envelope = true) →
    s.lost = 0 → s.reception.queueLosses = 0 → s.failed = 0 →
    ∃ envelopes, s.flight = envelopes.map wire ∧
      s.publications.filter (mine factory) ++ s.reception.inHand.filter (mine factory) ++
        envelopes = routed subscribed s.sender.publications

private theorem kept_all (hs : s.Counted msgs factory topicCfg subscribed)
    (hflag : s.reception.recvThreadFlag = true) (hqueue : s.reception.queueLosses = 0)
    (hfailed : s.failed = 0) :
    s.publications ++ s.reception.inHand = s.reception.calls.filter (admits msgs topicCfg) := by
  apply hs.kept.eq_of_length
  have hinside := hs.inside hflag
  have hpartition := List.length_eq_countP_add_countP (admits msgs topicCfg)
    (l := s.reception.calls)
  have hrefused : s.reception.refused msgs topicCfg =
      s.reception.calls.countP fun envelope ↦ decide ¬admits msgs topicCfg envelope = true := by
    apply List.countP_congr
    simp
  have hhand : s.reception.inHand.length = s.reception.inside := by
    rw [Reception.inHand, Reception.inside, List.length_append, Nat.add_comm]
  rw [List.length_append, ← List.countP_eq_length_filter]
  omega

/-- Every reachable state is as delivered. -/
theorem delivered_of_reachable (h : (delivery msgs factory topicCfg subscribed).Reachable s) :
    s.Delivered msgs factory topicCfg subscribed := by
  rcases counted_of_reachable h with ⟨c, hc, hcarried, hcounted⟩
  have horder := Channel.inOrder_of_reachable hc
  rcases hcarried.inside with ⟨envelopes, hinFlight, hinside⟩
  have hflight := hinFlight.flight
  unfold Channel.InOrder at horder
  rw [hcarried.received, hinside, hcarried.sent] at horder
  rcases hcounted.tally with ⟨dropped, htally⟩
  have hcalls := hcounted.calls
  constructor
  · exact (List.sublist_append_left _ _).trans horder
  · exact htally.received
  · intro hflag
    have hinside := hcounted.inside hflag
    omega
  · intro hflag hadmits hlost hqueue hfailed
    refine ⟨envelopes, hflight, ?_⟩
    rw [← List.append_assoc, ← List.filter_append] at horder
    rw [← List.filter_append]
    apply horder.eq_of_length
    -- All envelopes of the sender that were handed to the receiver are there.
    have hmine : (s.reception.calls.filter (admits msgs topicCfg)).filter (mine factory) =
        s.reception.calls.filter (mine factory) := by
      rw [List.filter_filter]
      apply List.filter_congr
      intro envelope hm
      cases hown : mine factory envelope with
      | true => rw [hadmits envelope (hcounted.own envelope hm hown)]; rfl
      | false => rfl
    have hlength := congrArg List.length hflight
    have hpartition := List.length_eq_countP_add_countP (mine factory) (l := s.reception.calls)
    have hforeign : s.reception.calls.countP (fun envelope ↦
        decide ¬mine factory envelope = true) = s.foreign := by
      rw [← hcounted.foreign]
      apply List.countP_congr
      simp
    rw [List.length_map] at hlength
    rw [kept_all hcounted hflag hqueue hfailed, hmine, List.length_append,
      ← List.countP_eq_length_filter]
    omega

end Delivery

/-- The receiver publishes messages of the sender in their order and at most once, whatever is
lost on the way or arrives from others; and while it runs every frame is accounted for, and nothing
is missed where nothing is lost. -/
theorem delivered_in_order (msgs : List MessageType) (factory : TopicFactory)
    (topicCfg : TopicCfg) (subscribed : Bytes → Bool) (s : Delivery)
    (h : (delivery msgs factory topicCfg subscribed).Reachable s) :
    s.Delivered msgs factory topicCfg subscribed :=
  Delivery.delivered_of_reachable h

/-- Three images are sent and one is lost; the receiver publishes the first. -/
theorem delivered_in_order_lossy :
    ∃ s : Delivery, s.Delivered [] imageSender imageReceiver (fun _ ↦ true) ∧ s.lost = 1 ∧
      s.flight.length = 1 ∧ s.publications = [imageEnvelope 1] := by
  have hrun : ((delivery [] imageSender imageReceiver fun _ ↦ true).run
      { sender := .start imageSender, reception := .start imageReceiver }
      [.callback sentMessage, .callback sentMessage, .callback sentMessage, .lose 1, .arrive,
        .work .pop, .work (.publish {} {})]).bind (fun s ↦
          if s.lost = 1 ∧ s.flight.length = 1 ∧ s.publications = [imageEnvelope 1] then some ()
          else none) = some () := by
    decide +kernel
  rcases Option.bind_eq_some_iff.mp hrun with ⟨s, hs, hcheck⟩
  split at hcheck
  · next hend =>
    exact ⟨s, delivered_in_order [] imageSender imageReceiver (fun _ ↦ true) s
      ⟨_, _, rfl, hs⟩, hend⟩
  · cases hcheck

end NetBridge.Topic
