import PodRoutes.Control.Deadline
import PodRoutes.Network.Overlap
import PodRoutes.Reconcile.Node

/-!
# The full pass

A pass lists the nodes without exclude label and the routes, deletes every route that conflicts
with one of these nodes, and then reconciles the nodes with the routes that are left at hand. The
listings and deletions share one deadline; each node has its own.
-/

namespace PodRoutes.Reconcile

open Control

/-! ### Conflicts -/

/-- Whether a route conflicts with a node; a node whose pod network is missing or unreadable is in
no conflict. -/
def conflictsWithNode (route : Route) (node : Node) : Bool :=
  match node.ipv4PodNetwork with
  | .ok (some network) => Network.conflicts network route node.instanceId?
  | _ => false

def conflictsWithAny (nodes : List Node) (route : Route) : Bool :=
  nodes.any (conflictsWithNode route)

/-- Deletes routes one by one and gives the listed routes that are left. A failed delete leaves its
route in the list and the cache, and does not stop the others. -/
def deleteConflicting : List Route → List Route → Control (List Route)
  | [], listed => return listed
  | route :: rest, listed => do
    match ← Protocol.delete route.destination with
    | .error _ => deleteConflicting rest listed
    | .ok () =>
      evict route.destination
      deleteConflicting rest (listed.filter fun r => r.destination ≠ route.destination)

/-- Lists nodes and routes and deletes the routes in conflict. -/
def dropConflicts : Control (Outcome (List Node × List Route)) := do
  match ← listNodes with
  | .error e => return .error e
  | .ok stored =>
    let nodes := stored.filter fun n => !n.isExcluded
    match ← Protocol.listAll with
    | .error e => return .error e
    | .ok listed =>
      let left ← deleteConflicting (listed.filter (conflictsWithAny nodes)) listed
      return .ok (nodes, left)

/-! ### Nodes -/

/-- Reconciles nodes one by one, each under its own deadline; what fails or takes too long for one
does not stop the others. -/
def syncNodes (s : Settings) (b : Backoff) (atHand : List Route) : List Node → Control Unit
  | [] => return ()
  | node :: rest => do
    let _ ← within s.timeout (syncNode b node (some atHand))
    syncNodes s b atHand rest

/-! ### The pass -/

def syncRoutes (s : Settings) (b : Backoff) : Control (Outcome Unit) := do
  match ← within s.timeout dropConflicts with
  | none => return .error (.internal .listingTimedOut)
  | some (.error e) => return .error e
  | some (.ok (nodes, routes)) =>
    syncNodes s b routes nodes
    return .ok ()

def reconcileAll (s : Settings) (b : Backoff) : Control (Outcome Unit) :=
  if s.configureRoutes then do
    let start ← now
    let result ← syncRoutes s b
    observe .reconcile start
    return result
  else return .ok ()

end PodRoutes.Reconcile
