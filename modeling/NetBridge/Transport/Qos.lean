import NetBridge.Transport.Envelope

/-!
# Quality of service and the bounded receive queue

`src/swarm_ros_bridge/src/transport/bridge_transport.cpp:249–282` over the types of
`include/transport/bridge_transport.hpp:26–46`.
-/

namespace NetBridge.Transport

open NetBridge.Base

/-- `QosClass`; `bridge_transport.hpp:26–31`. -/
inductive QosClass where
  | command
  | state
  | bulk
  | service
deriving DecidableEq, Repr

/-- `BoundedQueuePushResult`; `bridge_transport.hpp:33–37`. -/
inductive BoundedQueuePushResult where
  | enqueued
  | replacedOldest
  | rejected
deriving DecidableEq, Repr

/-- `QosPolicy`; `bridge_transport.hpp:39–46`. -/
structure QosPolicy where
  reliable : Bool := false
  blockOnCongestion : Bool := false
  express : Bool := false
  keepLatest : Bool := false
  queueCapacity : Nat := 1
  priority : Bytes := []
deriving DecidableEq

/-- `GetQosPolicy`; `bridge_transport.cpp:249–261`. -/
def getQosPolicy : QosClass → QosPolicy
  | .command => ⟨true, true, true, false, 64, ascii "real_time"⟩
  | .state => ⟨false, false, true, true, 1, ascii "data_high"⟩
  | .bulk => ⟨false, false, false, true, 1, ascii "data_low"⟩
  | .service => ⟨true, true, true, false, 64, ascii "interactive_high"⟩

/-- `PushToBoundedEnvelopeQueue`; `bridge_transport.cpp:263–282`. The result is the returned
code and `*queue`, which is `none` for a null pointer. -/
def pushToBoundedEnvelopeQueue (qosClass : QosClass) (envelope : TransportEnvelope)
    (queue : Option (List TransportEnvelope)) :
    BoundedQueuePushResult × Option (List TransportEnvelope) :=
  match queue with
  | none => (.rejected, none)
  | some queue =>
    let policy := getQosPolicy qosClass
    let capacity := max 1 policy.queueCapacity
    if queue.length ≥ capacity then
      if !policy.keepLatest then (.rejected, some queue)
      else (.replacedOldest, some (queue.drop 1 ++ [envelope]))
    else (.enqueued, some (queue ++ [envelope]))

/-- What a push does: it appends to a queue with room, and a full queue keeps either its own
envelopes or the newest ones. -/
theorem pushToBoundedEnvelopeQueue_cases (qosClass : QosClass) (envelope : TransportEnvelope)
    (queue : List TransportEnvelope) :
    (queue.length < (getQosPolicy qosClass).queueCapacity ∧
      pushToBoundedEnvelopeQueue qosClass envelope (some queue) =
        (.enqueued, some (queue ++ [envelope]))) ∨
    ((getQosPolicy qosClass).queueCapacity ≤ queue.length ∧
      (getQosPolicy qosClass).keepLatest = false ∧
      pushToBoundedEnvelopeQueue qosClass envelope (some queue) = (.rejected, some queue)) ∨
    ((getQosPolicy qosClass).queueCapacity ≤ queue.length ∧
      (getQosPolicy qosClass).keepLatest = true ∧ ∃ oldest rest, queue = oldest :: rest ∧
        pushToBoundedEnvelopeQueue qosClass envelope (some queue) =
          (.replacedOldest, some (rest ++ [envelope]))) := by
  have hcapacity : max 1 (getQosPolicy qosClass).queueCapacity =
      (getQosPolicy qosClass).queueCapacity := by cases qosClass <;> rfl
  have hpositive : 0 < (getQosPolicy qosClass).queueCapacity := by cases qosClass <;> decide
  simp only [pushToBoundedEnvelopeQueue, hcapacity]
  by_cases hfull : (getQosPolicy qosClass).queueCapacity ≤ queue.length
  · apply Or.inr
    cases hkeep : (getQosPolicy qosClass).keepLatest with
    | false => exact Or.inl (by simp [hfull])
    | true =>
      cases queue with
      | nil =>
        rw [List.length_nil] at hfull
        omega
      | cons oldest rest =>
        refine Or.inr ⟨hfull, rfl, oldest, rest, rfl, ?_⟩
        rw [if_pos hfull]
        rfl
  · exact Or.inl ⟨by omega, if_neg hfull⟩

end NetBridge.Transport
