import PodRoutes.Node.Basic

/-!
# Conditions of a node

Of several conditions with the same type the one with the greatest heartbeat counts; a missing
heartbeat is the least, and of equals the last one counts. Setting the network condition replaces
the one that counts, or adds one at the end.
-/

namespace PodRoutes

/-! ### The condition that counts -/

/-- Whether a heartbeat is older than another; a missing one is older than all others. -/
def heartbeatBefore : Option Instant → Option Instant → Bool
  | none, some _ => true
  | some a, some b => a < b
  | _, none => false

/-- The position and value of the condition of a type that counts. -/
def latestCondition? (type : String) : List Condition → Option (Nat × Condition)
  | [] => none
  | c :: rest =>
    match latestCondition? type rest with
    | none => if c.type = type then some (0, c) else none
    | some (i, d) =>
      if c.type = type ∧ heartbeatBefore d.heartbeat c.heartbeat then some (0, c)
      else some (i + 1, d)

def findCondition? (conditions : List Condition) (type : String) : Option Condition :=
  (latestCondition? type conditions).map Prod.snd

namespace Node

def condition? (n : Node) (type : String) : Option Condition := findCondition? n.conditions type

/-! ### The network condition -/

def readyType : String := "Ready"

def networkUnavailableType : String := "NetworkUnavailable"

def networkStatus (routeCreated : Bool) : String := if routeCreated then "False" else "True"

def networkCondition (routeCreated : Bool) (now : Instant) : Condition where
  type := networkUnavailableType
  status := networkStatus routeCreated
  reason := some (if routeCreated then "RouteCreated" else "NoRouteCreated")
  message := some (if routeCreated then "RouteController created a route"
    else "RouteController failed to create a route")
  heartbeat := some now
  transition := some now

/-- Whether a node already says what the outcome asks for. -/
def networkConditionIsCurrent (n : Node) (routeCreated : Bool) : Bool :=
  match n.condition? networkUnavailableType with
  | some c => c.status = networkStatus routeCreated
  | none => false

def placeNetworkCondition (routeCreated : Bool) (now : Instant) (conditions : List Condition) :
    List Condition :=
  match latestCondition? networkUnavailableType conditions with
  | some (i, _) => conditions.set i (networkCondition routeCreated now)
  | none => conditions ++ [networkCondition routeCreated now]

def setNetworkCondition (routeCreated : Bool) (now : Instant) (n : Node) : Node :=
  let status := n.status.getD {}
  let conditions := placeNetworkCondition routeCreated now (status.conditions.getD [])
  { n with status := some { status with conditions := some conditions } }

end Node

end PodRoutes
