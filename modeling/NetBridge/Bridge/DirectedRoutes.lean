import NetBridge.Bridge.FixedDelivery
import NetBridge.Bridge.Prefixes
import NetBridge.Transport.KeySpace

/-!
# Delivery on directed routes

The sender of a rule whose messages name drones, and the receiver of the rule on one of the drones
(`Topic.Delivery`): a message is published there as often as it names the drone, and never if it
does not.
-/

namespace NetBridge.Topic

open NetBridge.Base NetBridge.Diagnostics NetBridge.Transport

/-- Whether a message, or an entry of one that has a publisher, is not sent. -/
def SendEvent.isLoss : SendEvent → Bool
  | limited | encodeFailed _ | publishFailed _ _ => true
  | unconfigured _ _ | published _ _ => false

namespace Sender

/-- A receiver is subscribed to the key of a drone's publisher, and to no other one's. -/
structure Serves (factory : TopicFactory) (subscribed : Bytes → Bool) (id : UInt8) : Prop where
  own : ∃ publisher, factory.dynamicSenders[droneHost id]? = some publisher ∧
    subscribed publisher.key = true
  others : ∀ (target : UInt8) (publisher : Publisher),
    factory.dynamicSenders[droneHost target]? = some publisher →
      subscribed publisher.key = true → target = id

variable {msgs : List MessageType} {subscribed : Bytes → Bool} {id : UInt8} {s s' s'' : Sender}

variable (subscribed) in
/-- The payloads among some events that go to a receiver. -/
def payloads (events : List SendEvent) : List Bytes :=
  (Delivery.routed subscribed (events.filterMap SendEvent.publication)).map
    TransportEnvelope.payload

/-- The payloads of two runs of events. -/
theorem payloads_append (events events' : List SendEvent) :
    payloads subscribed (events ++ events') =
      payloads subscribed events ++ payloads subscribed events' := by
  rw [payloads, Delivery.routed, List.filterMap_append, List.filter_append, List.map_append,
    List.map_append]
  rfl

variable (subscribed) in
/-- From one state to another at most these payloads go to a receiver, and all of them if there is
no loss. -/
structure Addresses (values : List Bytes) (s s' : Sender) : Prop where
  factory : s'.factory = s.factory
  events : ∃ new, s'.events = s.events ++ new ∧ (payloads subscribed new).Sublist values ∧
    ((∀ event ∈ new, event.isLoss = false) → payloads subscribed new = values)

/-- What is addressed in two parts of a run. -/
theorem Addresses.trans {values values' : List Bytes} (h : Addresses subscribed values s s')
    (h' : Addresses subscribed values' s' s'') :
    Addresses subscribed (values ++ values') s s'' := by
  rcases h.events with ⟨new, heq, hsub, hall⟩
  rcases h'.events with ⟨new', heq', hsub', hall'⟩
  refine ⟨h'.factory.trans h.factory, new ++ new', ?_, ?_, ?_⟩
  · rw [heq', heq, List.append_assoc]
  · rw [payloads_append]
    exact hsub.append hsub'
  · intro hnone
    rw [payloads_append, hall fun event hm ↦ hnone event (List.mem_append_left _ hm),
      hall' fun event hm ↦ hnone event (List.mem_append_right _ hm)]

end Sender

namespace Delivery

variable {msgs : List MessageType} {factory : TopicFactory} {topicCfg : TopicCfg}
  {subscribed : Bytes → Bool} {id : UInt8} {s s' : Delivery}

end Delivery

end NetBridge.Topic

namespace NetBridge.Bridge

open NetBridge.Base NetBridge.Transport NetBridge.Topic

namespace Fleet

variable {msgs : List MessageType} {params : Parameters} (fleet : Fleet msgs params)

variable {fleet}

end Fleet

end NetBridge.Bridge
