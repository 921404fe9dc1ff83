import NetBridge.Bridge.ServiceRouting
import NetBridge.Service.Calls

/-!
# Service calls in a fleet

The proxies that a rule of the service list has on all hosts which it selects, and its server, with
Zenoh between them (`Service.Rpc`): where the rules agree, the proxies are served by the host of the
rule, which refuses none of their requests.
-/

namespace NetBridge.Bridge

open NetBridge.Base NetBridge.Transport NetBridge.Service

namespace ServiceFleet

variable {types : List ServiceType} {params : Parameters} {fleet : ServiceFleet types params}
  {rule : ServiceConfig}

/-- The hosts that a rule selects. -/
abbrev Clients (rule : ServiceConfig) : Type := { host : Bytes // lists rule host = true }

/-- The server of a rule, and the proxies that it has on the hosts which it selects. -/
structure CallSystem (fleet : ServiceFleet types params) (rule : ServiceConfig)
    (server : ServiceFactory) (proxies : Clients rule → ServiceFactory) : Prop where
  held : ∃ name : Bytes, (fleet.state rule.serverHostname).servers[name]? = some server
  queryable : server.queryable = some rule.key
  serves : ∀ client : Clients rule, fleet.Serves rule client.1 (proxies client)

/-- What holds of a call of a proxy at any time: the server does not refuse its request (though it
answers with an error while its queue is full), and when it is over
it returned true exactly if the first reply before the end of its wait was an ok reply, and then
with what the local service on the host of the server made of the payload of this very call. -/
structure CallServed (types : List ServiceType) (proxies : Clients rule → ServiceFactory)
    (server : ServiceFactory) (s : Rpc (Clients rule)) (id : Nat)
    (call : ProxyCall (Clients rule)) : Prop where
  accepted : requestError types server.config call.request = none
  returned : ∀ result, call.result = some result →
    (result.isSome = true ↔ ∃ payload, call.delivered = some (.ok payload))
  served : ∀ bytes, call.result = some (some bytes) →
    s.ServedBy (fun client ↦ (proxies client).config) server.config id call bytes

/-- A rule has a server and proxies, and in every run of them, with any number of threads and any
capacity of the server, every call is served. -/
def CallsServed (fleet : ServiceFleet types params) (rule : ServiceConfig) : Prop :=
  ∃ (server : ServiceFactory) (proxies : Clients rule → ServiceFactory),
    fleet.CallSystem rule server proxies ∧
    ∀ (threadCount capacity : Nat) (s : Rpc (Clients rule)),
      (rpc types (fun client ↦ (proxies client).config) server.config threadCount
        capacity).Reachable s →
      ∀ (id : Nat) (call : ProxyCall (Clients rule)), s.calls[id]? = some call →
        CallServed types proxies server s id call

/-- Complete routing gives the server and the proxies. -/
theorem exists_callSystem (h : fleet.RoutingComplete) (hm : rule ∈ fleet.rules) {host : Bytes}
    (hlisted : lists rule host = true) :
    ∃ server proxies, fleet.CallSystem rule server proxies := by
  rcases h rule hm host hlisted with ⟨proxy, hproxy⟩
  rcases hproxy.queryable with ⟨name, server, hserver, hqueryable⟩
  choose proxies hproxies using fun client : Clients rule ↦ h rule hm client.1 client.2
  exact ⟨server, proxies, ⟨name, hserver⟩, hqueryable, hproxies⟩

/-- The server lets the calls of its proxies pass. -/
theorem accepted_of_callSystem {server : ServiceFactory} {proxies : Clients rule → ServiceFactory}
    (h : fleet.CallSystem rule server proxies) {s : Rpc (Clients rule)}
    (hs : s.Traced types (fun client ↦ (proxies client).config) server.config) {id : Nat}
    {call : ProxyCall (Clients rule)} (hcall : s.calls[id]? = some call) :
    requestError types server.config call.request = none := by
  rcases (hs.calls id call hcall).request with ⟨sequence, sourceTimeNs, payload, hrequest⟩
  rcases h.held with ⟨name, hserver⟩
  rw [hrequest]
  exact (h.serves call.proxy).admitted name server hserver h.queryable sequence sourceTimeNs payload

/-- Where the rules of a service list agree, every rule that selects a host has a server and live
proxies on all hosts which it selects, and in every run of them, whatever else queries the server,
it refuses no request of theirs, and each call that is over returned true exactly if it got an ok
reply in time, and then with what the local service on the host of the rule made of its payload. -/
theorem fleet_calls_served (fleet : ServiceFleet types params) (hagree : fleet.ServicesAgree)
    (rule : ServiceConfig) (hm : rule ∈ fleet.rules) (host : Bytes)
    (hlisted : lists rule host = true) : fleet.CallsServed rule := by
  rcases exists_callSystem (complete_of_agree hagree) hm hlisted with ⟨server, proxies, hsystem⟩
  refine ⟨server, proxies, hsystem, ?_⟩
  intro threadCount capacity s h id call hcall
  have hs := Rpc.traced_of_reachable h
  constructor
  · exact accepted_of_callSystem hsystem hs hcall
  · intro result hresult
    exact (Rpc.served_iff hs hcall hresult).1
  · intro bytes hresult
    exact (Rpc.served_iff hs hcall hresult).2 bytes rfl

/-! ## A single service -/

/-- A single rule agrees with itself. -/
theorem agree_of_single (hsingle : fleet.rules = [rule]) : fleet.ServicesAgree := by
  intro rule' hm host hl
  rw [hsingle, List.mem_singleton] at hm
  subst hm
  constructor
  · intro other hom _ _
    rw [hsingle, List.mem_singleton] at hom
    rw [hom]
    exact ⟨rfl, rfl⟩
  · intro other hom _ _
    rw [hsingle, List.mem_singleton] at hom
    rw [hom]
  · rw [hsingle, List.countP_singleton, hl, decide_eq_true rfl, Bool.and_self]
    rfl
  · intro proxied hproxied name server hserver _
    have hproxied := List.mem_of_find?_eq_some hproxied
    have hserver := List.mem_of_find?_eq_some hserver
    rw [hsingle, List.reverse_singleton, List.mem_singleton] at hproxied hserver
    rw [hproxied, hserver]
    exact ⟨rfl, hl⟩

/-- One drone offers `/reset`. -/
def onceParams : Parameters :=
  { resetParams with services := some (.array [resetEntry "drone1"]) }

/-- Every host accepts this list. -/
theorem once_starts : starts emptyService plainServices onceParams = true := by
  decide +kernel

def onceFleet : ServiceFleet emptyService onceParams :=
  ofStarts emptyService plainServices onceParams once_starts

/-- The ground station is served by the drone. -/
theorem fleet_calls_served_once : ∃ rule ∈ onceFleet.rules,
    rule.serverHostname = ascii "drone1" ∧ onceFleet.CallsServed rule := by
  have hrules : onceFleet.rules.length = 1 ∧ ∀ rule ∈ onceFleet.rules,
      rule.serverHostname = ascii "drone1" ∧ lists rule (ascii "groundStation0") = true := by
    decide +kernel
  rcases List.length_eq_one_iff.mp hrules.1 with ⟨rule, hsingle⟩
  have hm : rule ∈ onceFleet.rules := by
    rw [hsingle]
    exact List.mem_singleton_self rule
  have hlisted := hrules.2 rule hm
  exact ⟨rule, hm, hlisted.1,
    fleet_calls_served onceFleet (agree_of_single hsingle) rule hm _ hlisted.2⟩

end ServiceFleet

end NetBridge.Bridge
