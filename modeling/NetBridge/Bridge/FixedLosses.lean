import NetBridge.Bridge.FixedDelivery

/-!
# Losses on fixed routes

The losses that the image receiver of a fixed route infers from sequence numbers
(`src/swarm_ros_bridge/src/topic_factory.cpp:433–470,553–557`,
`src/diagnostics/topic_metrics.cpp:40–68`) against what became of the frames of its sender
(`src/topic_factory.cpp:136–232`), while frames of other hosts arrive in between.
-/

namespace NetBridge.Diagnostics

end NetBridge.Diagnostics

namespace NetBridge.Topic

open NetBridge.Base NetBridge.Diagnostics NetBridge.Transport

namespace Sender

end Sender

namespace Delivery

variable {msgs : List MessageType} {factory : TopicFactory} {topicCfg : TopicCfg}
  {subscribed : Bytes → Bool} {s s' : Delivery}

/-! ## What the receiver is handed -/

end Delivery

end NetBridge.Topic

namespace NetBridge.Bridge

open NetBridge.Base NetBridge.Transport NetBridge.Topic

namespace Fleet

end Fleet

end NetBridge.Bridge
