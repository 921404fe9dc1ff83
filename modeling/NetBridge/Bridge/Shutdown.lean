import NetBridge.Base.Machine
import NetBridge.Transport.Executor

/-!
# Shutdown

`BridgeFactory::stopBridge`, `src/swarm_ros_bridge/src/bridge_factory.cpp:714–746`, as its
steps in program order, interleaved with queries and with the workers of the control
session's executor. A queued task holds a copy of the handler that the server's constructor
registered, and that handler holds the raw address of its `ServiceFactory`
(`src/service_factory.cpp:43–54`, `src/transport/zenoh_transport.cpp:430–484`).
-/

namespace NetBridge.Bridge

open NetBridge.Base NetBridge.Transport

/-- What an accepted query leaves in the executor: the server whose `handleRemoteRequest` it
will call, and the request. -/
structure QueryTask where
  owner : Bytes
  request : TransportEnvelope
deriving DecidableEq

/-- The steps of `stopBridge`. Maps are cleared by destroying their elements one by one. -/
inductive StopStep where
  | stopDiagnosticsTimer
  | stopReceiver (topic : Bytes)
  | stopSender (topic : Bytes)
  | stopClient (service : Bytes)
  /-- `stopServerThread`: the queryable is undeclared. -/
  | resetQueryable (service : Bytes)
  | destroyClient (service : Bytes)
  /-- The destructor of a server; it resets its queryable too. -/
  | destroyServer (service : Bytes)
  | destroyReceiver (topic : Bytes)
  | destroySender (topic : Bytes)
  | closeImageTransport
  | closeCloudTransport
  /-- `Close` of the control transport up to the joins of `BoundedExecutor::Stop`. -/
  | stopExecutor
  | joinExecutor
  | closeControlSession
deriving DecidableEq

/-- The running bridge: the keys of the four maps of `BridgeFactory`, which sessions exist, the
rest of `stopBridge` once it has been called, which queryables are declared, which servers are
destroyed, and the executor of the control session. -/
structure RunningBridge where
  recvTopics : List Bytes := []
  sendTopics : List Bytes := []
  serviceClients : List Bytes := []
  serviceServers : List Bytes := []
  imageTransport : Bool := false
  cloudTransport : Bool := false
  pending : Option (List StopStep) := none
  declared : List Bytes := []
  destroyed : List Bytes := []
  executor : Executor QueryTask
deriving DecidableEq

/-- `stopBridge`; `bridge_factory.cpp:714–746`. -/
def stopBridge (b : RunningBridge) : List StopStep :=
  [.stopDiagnosticsTimer] ++ b.recvTopics.map .stopReceiver ++ b.sendTopics.map .stopSender ++
    b.serviceClients.map .stopClient ++ b.serviceServers.map .resetQueryable ++
    b.serviceClients.map .destroyClient ++ b.serviceServers.map .destroyServer ++
    b.recvTopics.map .destroyReceiver ++ b.sendTopics.map .destroySender ++
    (if b.imageTransport then [.closeImageTransport] else []) ++
    (if b.cloudTransport then [.closeCloudTransport] else []) ++
    [.stopExecutor, .joinExecutor, .closeControlSession]

/-- What one step of `stopBridge` does to queryables, servers and executor, where it returns. -/
def RunningBridge.perform (b : RunningBridge) : StopStep → Option RunningBridge
  | .resetQueryable service =>
    some { b with declared := b.declared.filter fun s ↦ s != service }
  | .destroyServer service =>
    some { b with
      declared := b.declared.filter fun s ↦ s != service
      destroyed := service :: b.destroyed }
  | .stopExecutor => some { b with executor := b.executor.beginStop }
  | .joinExecutor => if b.executor.joined then some b else none
  | _ => some b

/-- The atomic steps of the system. -/
inductive BridgeAction where
  /-- A decodable query reaches a declared queryable. -/
  | query (service : Bytes) (request : TransportEnvelope)
  /-- `stopBridge` is called. -/
  | stopBridge
  /-- The next step of `stopBridge`. -/
  | proceed
  /-- Worker `w` of the executor moves. -/
  | worker (w : Nat) (step : WorkerStep)
deriving DecidableEq

/-- One atomic step, where it is enabled. -/
def RunningBridge.step (b : RunningBridge) : BridgeAction → Option RunningBridge
  | .query service request =>
    if service ∈ b.declared then
      some { b with executor := (b.executor.trySubmit ⟨service, request⟩).2 }
    else none
  | .stopBridge =>
    match b.pending with
    | none => some { b with pending := some (NetBridge.Bridge.stopBridge b) }
    -- `stopped_` is set: the call returns at once.
    | some _ => some b
  | .proceed =>
    match b.pending with
    | some (s :: rest) => ({ b with pending := some rest } : RunningBridge).perform s
    | _ => none
  | .worker w s => (b.executor.workerStep w s).map fun executor ↦ { b with executor }

/-- A started bridge: every server has its queryable, no server is destroyed, and the executor
is fresh. -/
structure RunningBridge.Started (b : RunningBridge) : Prop where
  pending : b.pending = none
  declared : b.declared = b.serviceServers
  destroyed : b.destroyed = []
  executor : ∃ threads capacity, b.executor = Executor.make threads capacity

/-- The bridge from its start on, for any topics, services, sessions and executor size. -/
def shutdownMachine : Machine RunningBridge BridgeAction where
  init := RunningBridge.Started
  step := RunningBridge.step

/-- A worker is inside the handler of a destroyed server. -/
def RunningBridge.UsesDestroyed (b : RunningBridge) : Prop :=
  ∃ task, b.executor.Runs task ∧ task.owner ∈ b.destroyed

/-- The step of `stopBridge` that an action executes. -/
def RunningBridge.next (b : RunningBridge) : BridgeAction → Option StopStep
  | .proceed => b.pending.bind List.head?
  | _ => none

/-- The step does not destroy a server that a queued or running task belongs to. -/
def StopStep.Spares (b : RunningBridge) : StopStep → Prop
  | .destroyServer service => ∀ task, b.executor.Holds task → task.owner ≠ service
  | _ => True

/-- Servers are destroyed only once their tasks are done. -/
def Drained (b : RunningBridge) (a : BridgeAction) : Prop := ∀ s ∈ b.next a, s.Spares b

instance (b : RunningBridge) : DecidablePred (StopStep.Spares b) := fun s ↦
  match s with
  | .destroyServer service =>
    inferInstanceAs (Decidable (∀ task, b.executor.Holds task → task.owner ≠ service))
  | .stopDiagnosticsTimer | .stopReceiver _ | .stopSender _ | .stopClient _
  | .resetQueryable _ | .destroyClient _ | .destroyReceiver _ | .destroySender _
  | .closeImageTransport | .closeCloudTransport | .stopExecutor | .joinExecutor
  | .closeControlSession => isTrue trivial

instance (b : RunningBridge) (a : BridgeAction) : Decidable (Drained b a) :=
  inferInstanceAs (Decidable (∀ s ∈ b.next a, s.Spares b))

/-- Declared queryables and held tasks belong to live servers. -/
structure RunningBridge.Owned (b : RunningBridge) : Prop where
  declared : ∀ service ∈ b.declared, service ∉ b.destroyed
  held : ∀ task, b.executor.Holds task → task.owner ∉ b.destroyed

private theorem owned_of_started (b : RunningBridge) (h : b.Started) : b.Owned := by
  constructor
  · rw [h.destroyed]
    exact fun _ _ ↦ List.not_mem_nil
  · rw [h.destroyed]
    exact fun _ _ ↦ List.not_mem_nil

private theorem owned_perform {b b' : RunningBridge} {s : StopStep} (hb : b.Owned)
    (hs : s.Spares b)
    (h : b.perform s = some b') : b'.Owned := by
  cases s with
  | resetQueryable service =>
    cases h
    constructor
    · intro s hs
      exact hb.declared s (List.mem_filter.mp hs).1
    · exact hb.held
  | destroyServer service =>
    cases h
    constructor
    · intro s hm hd
      have hne : s ≠ service := by simpa using (List.mem_filter.mp hm).2
      cases List.mem_cons.mp hd with
      | inl he => exact hne he
      | inr hd => exact hb.declared s (List.mem_filter.mp hm).1 hd
    · intro task ht hd
      cases List.mem_cons.mp hd with
      | inl he => exact hs task ht he
      | inr hd => exact hb.held task ht hd
  | stopExecutor =>
    cases h
    exact ⟨hb.declared, hb.held⟩
  | joinExecutor =>
    simp only [RunningBridge.perform] at h
    split at h
    · cases h
      exact hb
    · cases h
  | _ =>
    cases h
    exact hb

private theorem owned_step (b : RunningBridge) (a : BridgeAction) (b' : RunningBridge)
    (hb : b.Owned) (ha : Drained b a) (h : b.step a = some b') : b'.Owned := by
  cases a with
  | query service request =>
    simp only [RunningBridge.step] at h
    split at h
    · next hd =>
      cases h
      refine ⟨hb.declared, ?_⟩
      intro task ht
      cases Executor.holds_trySubmit ht with
      | inl ht => exact hb.held task ht
      | inr he =>
        rw [he]
        exact hb.declared service hd
    · cases h
  | stopBridge =>
    simp only [RunningBridge.step] at h
    split at h
    · cases h
      exact ⟨hb.declared, hb.held⟩
    · cases h
      exact hb
  | proceed =>
    simp only [RunningBridge.step] at h
    split at h
    · next s rest hp =>
      have hb' : RunningBridge.Owned { b with pending := some rest } :=
        ⟨hb.declared, hb.held⟩
      have hs : s.Spares b := ha s (by rw [RunningBridge.next, hp]; rfl)
      apply owned_perform hb' _ h
      cases s <;> exact hs
    · cases h
  | worker w s =>
    simp only [RunningBridge.step, Option.map_eq_some_iff] at h
    obtain ⟨executor, hw, he⟩ := h
    cases he
    refine ⟨hb.declared, ?_⟩
    intro task ht
    exact hb.held task (Executor.holds_workerStep hw ht)

/-- In every run from a started bridge in which each server is destroyed only when no queued or
running task belongs to it, no state has a worker inside the handler of a destroyed server. -/
theorem shutdown_handlers_alive (b : RunningBridge) (hb : b.Started)
    (actions : List BridgeAction) (hdrained : shutdownMachine.Along Drained b actions) :
    shutdownMachine.Always (fun b ↦ ¬b.UsesDestroyed) b actions := by
  have safe : ∀ b : RunningBridge, b.Owned → ¬b.UsesDestroyed := by
    intro b hb hu
    obtain ⟨task, hr, hd⟩ := hu
    exact hb.held task (Or.inr hr) hd
  exact Machine.always_of_invariant owned_step safe (owned_of_started b hb) hdrained

/-- A bridge with one service and a single executor thread. -/
def oneServer : RunningBridge where
  serviceServers := [ascii "/reset"]
  declared := [ascii "/reset"]
  executor := Executor.make 1 64

private theorem oneServer_started : oneServer.Started := ⟨rfl, rfl, rfl, 1, 64, rfl⟩

/-- A request that is served before the bridge stops. -/
theorem shutdown_handlers_alive_served :
    shutdownMachine.Always (fun b ↦ ¬b.UsesDestroyed) oneServer
      [.query (ascii "/reset") {}, .worker 0 .take, .worker 0 .finish, .stopBridge, .proceed,
        .proceed, .proceed] := by
  exact shutdown_handlers_alive oneServer oneServer_started _ (by decide)

/-- A request that is still queued when the servers are destroyed runs afterwards, in the
handler of a destroyed server. -/
theorem shutdown_runs_destroyed_handler :
    oneServer.Started ∧ ∃ b, shutdownMachine.run oneServer
      [.query (ascii "/reset") {}, .stopBridge, .proceed, .proceed, .proceed,
        .worker 0 .take] = some b ∧ b.UsesDestroyed :=
  ⟨oneServer_started, _, rfl, ⟨ascii "/reset", {}⟩, List.mem_singleton.mpr rfl,
    List.mem_singleton.mpr rfl⟩

end NetBridge.Bridge
