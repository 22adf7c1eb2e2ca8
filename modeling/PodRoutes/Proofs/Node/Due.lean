import PodRoutes.Node.Instance
import PodRoutes.Node.PodNetwork
import PodRoutes.Proofs.Node.Condition

/-!
# What a node is due

A node that is not skipped and has an IPv4 pod network and an instance is due a route from the one
to the other. This is not a matter of its network condition, so marking a node changes nothing.
-/

namespace PodRoutes.Node

theorem isExcluded_congr {m n : Node} (h : m.metadata = n.metadata) :
    m.isExcluded = n.isExcluded := by
  simp [isExcluded, labels, h]

theorem ipv4PodNetwork_congr {m n : Node} (h : m.spec = n.spec) :
    m.ipv4PodNetwork = n.ipv4PodNetwork := by
  simp [ipv4PodNetwork, podCidrs, h]

theorem instanceId?_congr {m n : Node} (hm : m.metadata = n.metadata) (hs : m.spec = n.spec) :
    m.instanceId? = n.instanceId? := by
  simp [instanceId?, instanceSource?, annotations, providerId?, hm, hs]

def due? (n : Node) : Option (String × Network) :=
  if n.skipReason?.isSome then none
  else
    match n.ipv4PodNetwork, n.instanceId? with
    | .ok (some network), some instanceId => some (instanceId, network)
    | _, _ => none

theorem due?_eq_some {n : Node} {instanceId : String} {network : Network} :
    n.due? = some (instanceId, network) ↔
      n.skipReason? = none ∧ n.ipv4PodNetwork = .ok (some network) ∧
        n.instanceId? = some instanceId := by
  rw [due?]
  cases hs : n.skipReason? with
  | some reason => simp
  | none =>
    cases hn : n.ipv4PodNetwork with
    | error e => simp
    | ok network? => cases network? <;> cases hi : n.instanceId? <;> simp [and_comm]

variable (n : Node) (routeCreated : Bool) (now : Instant)

theorem skipReason?_marked : (n.marked routeCreated now).skipReason? = n.skipReason? := by
  rw [skipReason?, skipReason?, isReadyUnknown_marked, isBeingDeleted, metadata_marked,
    isExcluded_congr (n.metadata_marked routeCreated now)]
  rfl

@[simp] theorem due?_marked : (n.marked routeCreated now).due? = n.due? := by
  rw [due?, skipReason?_marked, ipv4PodNetwork_congr (n.spec_marked routeCreated now),
    instanceId?_congr (n.metadata_marked routeCreated now) (n.spec_marked routeCreated now)]
  rfl

def plain (name podCidr providerId : String) : Node where
  metadata := { name := some name }
  spec := some { podCidr := some podCidr, providerId := some providerId }

example : (plain "n1" "10.244.1.7/24" "i-1").due?.map (fun d => (d.1, d.2.text)) =
    some ("i-1", "10.244.1.0/24") := by decide +kernel

theorem isExcluded_of_not_skipped {n : Node} (h : n.skipReason? = none) : n.isExcluded = false := by
  cases he : n.isExcluded with
  | false => rfl
  | true => simp [skipReason?, he] at h

end PodRoutes.Node
