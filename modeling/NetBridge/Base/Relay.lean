import Mathlib.Logic.Relation
import NetBridge.Base.Machine

/-!
# Relayed messages

Messages that travel along the edges of a graph: whatever is at a node may be forwarded along
every edge that leaves it, any number of times. Each copy records the nodes it has been at. A rank
that no edge lowers confines loops to the edges that keep it.
-/

namespace NetBridge.Base

section

variable {ν ε : Type}

/-- A node that a message was at, and the edge by which it left. -/
structure Visit (ν ε : Type) where
  node : ν
  edge : ε

/-- A copy of a message: where it is, and where it was before, the last visit first. -/
structure Copy (ν ε : Type) where
  node : ν
  trail : List (Visit ν ε)

/-- A new message at a node, or a copy that is forwarded along an edge. -/
inductive RelayAction (ν ε : Type) where
  | emit (node : ν)
  | forward (copy : Nat) (edge : ε)

variable (hop : ε → ν → Option ν)

/-- Some edge leads from the first node to the second. -/
def Hops (u v : ν) : Prop := ∃ edge, hop edge u = some v

/-- The copy that results from forwarding along an edge. -/
def Copy.forward (copy : Copy ν ε) (edge : ε) : Option (Copy ν ε) :=
  (hop edge copy.node).map fun node ↦ ⟨node, ⟨copy.node, edge⟩ :: copy.trail⟩

/-- Copies are only added: what was forwarded stays where it was. -/
def relayStep (copies : List (Copy ν ε)) : RelayAction ν ε → Option (List (Copy ν ε))
  | .emit node => some (copies ++ [⟨node, []⟩])
  | .forward copy edge => do
    let sent ← copies[copy]?
    let received ← sent.forward hop edge
    pure (copies ++ [received])

/-- Relaying, from no message at all. -/
def relay : Machine (List (Copy ν ε)) (RelayAction ν ε) where
  init copies := copies = []
  step := relayStep hop

/-- The visits are a path that ends in the node. -/
def Follows : ν → List (Visit ν ε) → Prop
  | _, [] => True
  | node, visit :: trail => hop visit.edge visit.node = some node ∧ Follows visit.node trail

/-- No edge lowers the rank, and the given edges raise it. -/
structure Ranked (rank : ν → Nat) (Raises : ε → Prop) : Prop where
  le : ∀ {edge : ε} {u v : ν}, hop edge u = some v → rank u ≤ rank v
  lt : ∀ {edge : ε} {u v : ν}, hop edge u = some v → Raises edge → rank u < rank v

variable {hop}

private theorem Copy.forward_follows {copy received : Copy ν ε} {edge : ε}
    (h : Follows hop copy.node copy.trail) (hf : copy.forward hop edge = some received) :
    Follows hop received.node received.trail := by
  obtain ⟨node, hnode, heq⟩ := Option.map_eq_some_iff.mp hf
  cases heq
  exact ⟨hnode, h⟩

/-- A step adds only copies whose visits are paths. -/
theorem relayStep_follows {copies copies' : List (Copy ν ε)} {action : RelayAction ν ε}
    (h : ∀ copy ∈ copies, Follows hop copy.node copy.trail)
    (hstep : relayStep hop copies action = some copies') :
    ∀ copy ∈ copies', Follows hop copy.node copy.trail := by
  intro copy hm
  cases action with
  | emit node =>
    cases hstep
    rw [List.mem_append, List.mem_singleton] at hm
    cases hm with
    | inl hm => exact h copy hm
    | inr heq =>
      rw [heq]
      trivial
  | forward i edge =>
    obtain ⟨sent, hsent, hstep⟩ := Option.bind_eq_some_iff.mp hstep
    obtain ⟨received, hreceived, hstep⟩ := Option.bind_eq_some_iff.mp hstep
    cases hstep
    rw [List.mem_append, List.mem_singleton] at hm
    cases hm with
    | inl hm => exact h copy hm
    | inr heq =>
      rw [heq]
      exact Copy.forward_follows (h sent (List.mem_of_getElem? hsent)) hreceived

/-- In every run the visits of every copy are a path. -/
theorem follows_of_reachable {copies : List (Copy ν ε)} (h : (relay hop).Reachable copies) :
    ∀ copy ∈ copies, Follows hop copy.node copy.trail := by
  apply h.invariant (I := fun copies ↦ ∀ copy ∈ copies, Follows hop copy.node copy.trail)
  · intro copies hinit copy hm
    rw [hinit] at hm
    exact absurd hm List.not_mem_nil
  · intro copies action copies' hI hstep
    exact relayStep_follows hI hstep

/-- Every path is the trail of a copy in some run. -/
theorem reachable_of_follows {node : ν} {trail : List (Visit ν ε)}
    (h : Follows hop node trail) :
    ∃ copies, (relay hop).Reachable copies ∧ ⟨node, trail⟩ ∈ copies := by
  induction trail generalizing node with
  | nil =>
    refine ⟨[⟨node, []⟩], ?_, List.mem_singleton_self _⟩
    exact (Machine.Reachable.of_init (m := relay hop) rfl).step (a := .emit node) rfl
  | cons visit trail ih =>
    obtain ⟨copies, hreach, hm⟩ := ih h.2
    obtain ⟨i, hi⟩ := List.mem_iff_getElem?.mp hm
    refine ⟨copies ++ [⟨node, visit :: trail⟩], ?_,
      List.mem_append_right copies (List.mem_singleton_self _)⟩
    apply hreach.step (a := .forward i visit.edge)
    have hforward : (⟨visit.node, trail⟩ : Copy ν ε).forward hop visit.edge =
        some ⟨node, visit :: trail⟩ := by
      rw [Copy.forward, h.1]
      rfl
    show (copies[i]?.bind fun sent ↦ (sent.forward hop visit.edge).bind fun received ↦
      some (copies ++ [received])) = _
    rw [hi, Option.bind_some, hforward]
    rfl

namespace Ranked

variable {rank : ν → Nat} {Raises : ε → Prop} (hr : Ranked hop rank Raises)
include hr

/-- Ranks do not fall along paths. -/
theorem le_of_path {u v : ν} (h : Relation.ReflTransGen (Hops hop) u v) : rank u ≤ rank v := by
  induction h with
  | refl => exact Nat.le_refl _
  | tail _ hlast ih =>
    obtain ⟨edge, hedge⟩ := hlast
    exact Nat.le_trans ih (hr.le hedge)

/-- An edge that raises the rank is on no cycle. -/
theorem not_path_back {edge : ε} {u v : ν} (h : hop edge u = some v) (hraises : Raises edge) :
    ¬Relation.ReflTransGen (Hops hop) v u := by
  intro hback
  have hlt := hr.lt h hraises
  have hle := hr.le_of_path hback
  omega

/-- A visited node has at most the rank of the present one. -/
theorem le_of_follows {node : ν} {pre post : List (Visit ν ε)} {visit : Visit ν ε}
    (h : Follows hop node (pre ++ visit :: post)) : rank visit.node ≤ rank node := by
  induction pre generalizing node with
  | nil => exact hr.le h.1
  | cons last pre ih => exact Nat.le_trans (ih h.2) (hr.le h.1)

/-- Behind an edge that raises the rank all earlier nodes have a smaller one. -/
theorem lt_of_follows {node : ν} {pre post : List (Visit ν ε)} {visit : Visit ν ε}
    (h : Follows hop node (pre ++ visit :: post)) {passed : Visit ν ε}
    (hm : passed ∈ pre ++ [visit]) (hraises : Raises passed.edge) :
    rank visit.node < rank node := by
  induction pre generalizing node with
  | nil =>
    rw [List.nil_append, List.mem_singleton] at hm
    rw [hm] at hraises
    exact hr.lt h.1 hraises
  | cons last pre ih =>
    cases List.mem_cons.mp hm with
    | inl hlast =>
      rw [hlast] at hraises
      exact Nat.lt_of_le_of_lt (hr.le_of_follows h.2) (hr.lt h.1 hraises)
    | inr hm => exact Nat.lt_of_lt_of_le (ih h.2 hm) (hr.le h.1)

/-- In every run, a message that is back at a node has passed no edge that raises the rank since
it was there. -/
theorem not_raises_of_return {copies : List (Copy ν ε)} (h : (relay hop).Reachable copies)
    {copy : Copy ν ε} (hc : copy ∈ copies) {pre post : List (Visit ν ε)} {visit : Visit ν ε}
    (htrail : copy.trail = pre ++ visit :: post) (hback : visit.node = copy.node)
    {passed : Visit ν ε} (hm : passed ∈ pre ++ [visit]) : ¬Raises passed.edge := by
  intro hraises
  have hfollows := follows_of_reachable h copy hc
  rw [htrail] at hfollows
  have hlt := hr.lt_of_follows hfollows hm hraises
  rw [hback] at hlt
  exact Nat.lt_irrefl _ hlt

end Ranked

end

end NetBridge.Base
