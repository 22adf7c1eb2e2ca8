import PodRoutes.Node.Eligibility
import PodRoutes.Node.Instance
import PodRoutes.Node.PodNetwork
import PodRoutes.Protocol.Basic
import PodRoutes.Reconcile.Settings

/-!
# Reconciling one node

A stored node gets its route and a network condition that says how that went; a node that is gone
loses the route that the cache remembers for it. Only a failed look at the store and a failed delete
are errors of the whole: what goes wrong for a stored node is recorded on it and left to later
passes.
-/

namespace PodRoutes.Reconcile

open Control

/-! ### The network condition -/

def patchAttempts : Nat := 3

/-- Patches the network condition a number of times; `last` is the error to give when no attempt
is left. -/
def patchCondition (name : String) (routeCreated : Bool) :
    Nat → RouteError → Control (Outcome Unit)
  | 0, last => return .error last
  | left + 1, _ => do
    match ← patchNode name (Node.setNetworkCondition routeCreated) .status with
    | .ok () => return .ok ()
    | .error e => if e.isConflict then patchCondition name routeCreated left e else return .error e

/-- Sets the network condition of a node unless it says the right thing already. -/
def updateCondition (node : Node) (routeCreated : Bool) : Control (Outcome Unit) :=
  if node.networkConditionIsCurrent routeCreated then return .ok ()
  else patchCondition node.name routeCreated patchAttempts (.internal (.noPatchAttempt node.name))

/-- Says on the node that it has no route; a failure to say so is let go. -/
def markUnavailable (node : Node) : Control Unit := do
  let _ ← updateCondition node false

/-! ### The route of a stored node -/

/-- Sees to it that a node has the route to its pod network, and remembers the route. -/
def addRoute (b : Backoff) (node : Node) (destination : String) (atHand : Option (List Route)) :
    Control (Outcome Unit) :=
  match node.instanceId? with
  | none => return .error (.instanceIdUnresolved node.name)
  | some instanceId => do
    let start ← now
    match ← Protocol.ensure b instanceId destination atHand with
    | .ok (.existing route) =>
      remember node.name route
      return .ok ()
    | .ok (.created route) =>
      observe .create start
      record ⟨node, .normal, .createdRoute,
        "Created route for " ++ node.name ++ " -> " ++ destination ++ " successfully"⟩
      remember node.name route
      return .ok ()
    | .error (.lookup c cause) =>
      record ⟨node, .warning, .describeRouteFailed,
        "Describe Route Failed for " ++ destination ++ " reason: " ++
          (RouteError.lookup c cause).message⟩
      return .error (.lookup c cause)
    | .error e =>
      observe .create start
      record ⟨node, .warning, .createRouteFailed, "Error creating route entry : " ++ e.message⟩
      return .error e

def syncNode (b : Backoff) (node : Node) (atHand : Option (List Route)) :
    Control (Outcome Unit) :=
  if node.skipReason?.isSome then return .ok () else
    match node.ipv4PodNetwork with
    | .ok none => do
      markUnavailable node
      return .ok ()
    | .error e => do
      markUnavailable node
      return .error e
    | .ok (some network) => do
      match ← addRoute b node network.text atHand with
      | .ok () => updateCondition node true
      | .error e =>
        markUnavailable node
        return .error e

/-! ### The route of a removed node -/

def removeRoute (name : String) : Control (Outcome Unit) := do
  match ← cachedRoute name with
  | none => return .ok ()
  | some route =>
    let start ← now
    let deleted ← Protocol.delete route.destination
    observe .delete start
    match deleted with
    | .ok () =>
      forget name
      return .ok ()
    | .error e => return .error e

/-! ### By name -/

/-- Reconciles a stored node, and notes on it when that failed. -/
def reconcileStored (b : Backoff) (node : Node) : Control (Outcome Unit) := do
  match ← syncNode b node none with
  | .ok () => return .ok ()
  | .error _ =>
    record ⟨node, .warning, .syncRouteFailed, "sync cloud route failed"⟩
    return .ok ()

def reconcile (s : Settings) (b : Backoff) (name : String) : Control (Outcome Unit) :=
  if s.configureRoutes then do
    match ← getNode name with
    | .error e => return .error e
    | .ok none => removeRoute name
    | .ok (some node) => reconcileStored b node
  else return .ok ()

end PodRoutes.Reconcile
