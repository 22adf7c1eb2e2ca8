import PodRoutes.Proofs.Node.Due
import PodRoutes.Proofs.Protocol.Requests
import PodRoutes.Reconcile.Cluster

/-!
# What reconciling a node asks for

Reconciling a node looks up and creates only the route that the node is due, remembers a route only
under the node's name, and patches and records only for it. It lists and deletes nothing. Until the
route is in place it remembers nothing, and afterwards it only patches.
-/

namespace PodRoutes

open Control

/-- The instance and the destination of the route that a node is due. -/
def Node.dueRoute? (n : Node) : Option (String × String) := n.due?.map fun d => (d.1, d.2.text)

theorem Node.dueRoute?_of_due {n : Node} {instanceId : String} {network : Network}
    (h : n.due? = some (instanceId, network)) : n.dueRoute? = some (instanceId, network.text) := by
  rw [dueRoute?, h]
  rfl

theorem Node.isSome_dueRoute? {n : Node} : n.dueRoute?.isSome = n.due?.isSome := by
  rw [dueRoute?, Option.isSome_map]

def Node.MayAskToEnsure (node : Node) : Request → Prop
  | .createRoute i c => node.dueRoute? = some (i, c)
  | .findRoute c => ∃ i, node.dueRoute? = some (i, c)
  | .lock | .unlock | .pause _ | .draw => True
  | _ => False

def Node.MayAsk (node : Node) : Request → Prop
  | .createRoute i c => node.dueRoute? = some (i, c)
  | .findRoute c => ∃ i, node.dueRoute? = some (i, c)
  | .remember name _ => name = node.name ∧ node.dueRoute?.isSome = true
  | .patchNode name _ _ => name = node.name
  | .record event => event.node = node
  | .observe _ _ | .now | .lock | .unlock | .pause _ | .draw => True
  | _ => False

theorem Node.MayAskToEnsure.mayAsk {node : Node} {r : Request} (h : node.MayAskToEnsure r) :
    node.MayAsk r := by
  cases r with
  | createRoute i c => exact h
  | findRoute c => exact h
  | lock => trivial
  | unlock => trivial
  | pause millis => trivial
  | draw => trivial
  | _ => exact h.elim

namespace Only

variable {b : Backoff} {node : Node} {instanceId : String} {network : Network}
  {atHand : Option (List Route)}

section Ensuring

variable (hdue : node.due? = some (instanceId, network))

include hdue

theorem ensure : Only node.MayAskToEnsure (Protocol.ensure b instanceId network.text atHand) := by
  refine Protocol.only_ensure.mono fun r hr => ?_
  cases r with
  | createRoute i c =>
    obtain ⟨rfl, rfl⟩ := hr
    exact Node.dueRoute?_of_due hdue
  | findRoute c =>
    obtain rfl : c = network.text := hr
    exact ⟨instanceId, Node.dueRoute?_of_due hdue⟩
  | _ => exact hr

theorem addRoute : Only node.MayAsk (Reconcile.addRoute b node network.text atHand) := by
  have hi := (Node.due?_eq_some.1 hdue).2.2
  have hsome : node.dueRoute?.isSome = true := by rw [Node.dueRoute?_of_due hdue]; rfl
  have hensure : Only node.MayAsk (Protocol.ensure b instanceId network.text atHand) :=
    (ensure hdue).mono fun _ h => h.mayAsk
  rw [Reconcile.addRoute, hi]
  refine askThen trivial fun start => bind hensure fun x => ?_
  rcases x with e | ⟨r⟩ | ⟨r⟩
  · cases e with
    | lookup c cause => exact askThen rfl fun _ => done _
    | _ => exact askThen trivial fun _ => askThen rfl fun _ => done _
  · exact askThen ⟨rfl, hsome⟩ fun _ => done _
  · exact askThen trivial fun _ => askThen rfl fun _ => askThen ⟨rfl, hsome⟩ fun _ => done _

end Ensuring

theorem patchCondition {R : Request → Prop} {name : String} {routeCreated : Bool} {left : Nat}
    {last : RouteError} (h : R (.patchNode name (Node.setNetworkCondition routeCreated) .status)) :
    Only R (Reconcile.patchCondition name routeCreated left last) := by
  induction left generalizing last with
  | zero => exact done _
  | succ left ih =>
    rw [Reconcile.patchCondition]
    refine ⟨h, fun x => ?_⟩
    cases x with
    | ok u => exact done _
    | error e =>
      show Only R (if e.isConflict then _ else _)
      split
      · exact ih
      · exact done _

theorem updateCondition {R : Request → Prop} {routeCreated : Bool}
    (h : R (.patchNode node.name (Node.setNetworkCondition routeCreated) .status)) :
    Only R (Reconcile.updateCondition node routeCreated) := by
  unfold Reconcile.updateCondition
  split
  · exact done _
  · exact patchCondition h

theorem markUnavailable {R : Request → Prop}
    (h : R (.patchNode node.name (Node.setNetworkCondition false) .status)) :
    Only R (Reconcile.markUnavailable node) :=
  bind (updateCondition h) fun _ => done _

theorem addRoute_of_unresolved (hi : node.instanceId? = none) (destination : String) :
    Only node.MayAsk (Reconcile.addRoute b node destination atHand) := by
  rw [Reconcile.addRoute, hi]
  exact done _

theorem syncNode : Only node.MayAsk (Reconcile.syncNode b node atHand) := by
  have hmark : Only node.MayAsk (Reconcile.markUnavailable node) := markUnavailable rfl
  rw [Reconcile.syncNode]
  cases hskip : node.skipReason? with
  | some reason => exact done _
  | none =>
    cases hnet : node.ipv4PodNetwork with
    | error e => exact bind hmark fun _ => done _
    | ok network? =>
      cases network? with
      | none => exact bind hmark fun _ => done _
      | some network =>
        have hadd : Only node.MayAsk (Reconcile.addRoute b node network.text atHand) := by
          cases hi : node.instanceId? with
          | none => exact addRoute_of_unresolved hi network.text
          | some instanceId => exact addRoute (Node.due?_eq_some.2 ⟨hskip, hnet, hi⟩)
        refine bind hadd fun x => ?_
        cases x with
        | ok u => exact updateCondition rfl
        | error e => exact bind hmark fun _ => done _

theorem syncNodes {settings : Settings} {atHand : List Route} {nodes : List Node} :
    Only (fun r => ∃ n ∈ nodes, n.MayAsk r) (Reconcile.syncNodes settings b atHand nodes) := by
  induction nodes with
  | nil => exact done _
  | cons n rest ih =>
    have hn : ∀ {r}, n.MayAsk r → ∃ m ∈ n :: rest, m.MayAsk r := fun h =>
      ⟨n, List.mem_cons_self, h⟩
    refine bind ((Only.syncNode.mono fun r hr => hn hr).within (hn trivial) (hn trivial) _)
      fun _ => ih.mono ?_
    rintro r ⟨m, hm, hr⟩
    exact ⟨m, List.mem_cons_of_mem n hm, hr⟩

end Only

end PodRoutes
