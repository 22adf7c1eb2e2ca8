import PodRoutes.Proofs.Network.Disjoint
import PodRoutes.Proofs.Node.Due
import PodRoutes.Reconcile.Cluster

/-!
# Which routes conflict with which nodes

A route does not conflict with some nodes exactly if none of them disputes it: each node with the
route's destination as its pod network runs on the route's instance, and no other pod network
contains the destination.
-/

namespace PodRoutes

theorem instanceId_of_not_conflicts {n : Node} {r : Route} {instanceId : String} {network : Network}
    (hdue : n.due? = some (instanceId, network)) (hd : r.destination = network.text)
    (h : Reconcile.conflictsWithNode r n = false) : r.instanceId = instanceId := by
  obtain ⟨_, hnet, hi⟩ := Node.due?_eq_some.1 hdue
  rw [Reconcile.conflictsWithNode, hnet] at h
  have h : Network.conflicts network r n.instanceId? = false := h
  rw [Network.conflicts_of_text_eq hd.symm, hi] at h
  simpa using h

def Owned (nodes : List Node) (destination instanceId : String) : Prop :=
  ∃ n ∈ nodes, ∃ network, n.ipv4PodNetwork = .ok (some network) ∧ network.text = destination ∧
    n.instanceId? = some instanceId

/-- Every node with the destination as its pod network runs on the instance, and no other pod
network contains the destination. -/
def Undisputed (nodes : List Node) (destination instanceId : String) : Prop :=
  ∀ n ∈ nodes, ∀ network, n.ipv4PodNetwork = .ok (some network) →
    if network.text = destination then n.instanceId? = some instanceId
    else ∀ inner, Network.parse destination = .ok inner →
      ¬(network.contains inner.first = true ∧ network.contains inner.last = true)

theorem conflictsWithAny_eq_false_iff {nodes : List Node} {r : Route} :
    Reconcile.conflictsWithAny nodes r = false ↔
      Undisputed nodes r.destination r.instanceId := by
  rw [Reconcile.conflictsWithAny, List.any_eq_false]
  refine forall_congr' fun n => forall_congr' fun _ => ?_
  rw [Reconcile.conflictsWithNode]
  cases hnet : n.ipv4PodNetwork with
  | error e => simp
  | ok network? =>
    cases network? with
    | none => simp
    | some network =>
      show ¬Network.conflicts network r n.instanceId? = true ↔ _
      by_cases htext : network.text = r.destination
      · rw [Network.conflicts_of_text_eq htext, decide_eq_true_iff, Decidable.not_not]
        constructor
        · intro howner network' he
          cases he
          rw [if_pos htext]
          exact howner.symm
        · intro hall
          have howner := hall network rfl
          rw [if_pos htext] at howner
          exact howner.symm
      · rw [Network.conflicts_of_text_ne htext]
        simp [htext]

theorem owned_of_other_conflicts {nodes : List Node} {q r : Route}
    (hq : Reconcile.conflictsWithAny nodes q = true)
    (hr : Reconcile.conflictsWithAny nodes r = false) (hd : q.destination = r.destination) :
    Owned nodes r.destination r.instanceId := by
  have hundisputed := conflictsWithAny_eq_false_iff.1 hr
  rw [Reconcile.conflictsWithAny, List.any_eq_true] at hq
  obtain ⟨n, hn, hconflict⟩ := hq
  rw [Reconcile.conflictsWithNode] at hconflict
  cases hnet : n.ipv4PodNetwork with
  | error e => simp [hnet] at hconflict
  | ok network? =>
    cases network? with
    | none => simp [hnet] at hconflict
    | some network =>
      have hnode := hundisputed n hn network hnet
      by_cases htext : network.text = r.destination
      · rw [if_pos htext] at hnode
        exact ⟨n, hn, network, hnet, htext, hnode⟩
      · rw [if_neg htext] at hnode
        simp only [hnet] at hconflict
        have htext' : network.text ≠ q.destination := hd ▸ htext
        obtain ⟨inner, hparse, hcontains⟩ := (Network.conflicts_of_text_ne htext' _).1 hconflict
        rw [hd] at hparse
        exact absurd hcontains (hnode inner hparse)

end PodRoutes
