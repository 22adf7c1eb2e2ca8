import PodRoutes.Effect.Program
import PodRoutes.Node.Basic
import PodRoutes.Route.Cache
import PodRoutes.RouteError

/-!
# What the controller asks

The controller asks the cloud about routes, the cluster about nodes, and its own process for the
cache, the clock, the lock and the metrics. The calls to the cloud and the cluster can fail; what
they give back says so.
-/

namespace PodRoutes

/-- A value, or why there is none. -/
abbrev Outcome (α : Type) := Except RouteError α

/-! ### Nodes and events -/

inductive PatchScope where
  | spec
  | status
  | all
deriving DecidableEq

/-- A change of a node, which may read the clock. -/
abbrev NodeEdit := Instant → Node → Node

inductive EventKind where
  | normal
  | warning
deriving DecidableEq

def EventKind.text : EventKind → String
  | normal => "Normal"
  | warning => "Warning"

inductive EventReason where
  | createdRoute
  | createRouteFailed
  | syncRouteFailed
  | describeRouteFailed
  | other (name : String)
deriving DecidableEq

def EventReason.text : EventReason → String
  | createdRoute => "CreatedRoute"
  | createRouteFailed => "CreateRouteFailed"
  | syncRouteFailed => "SyncRouteFailed"
  | describeRouteFailed => "DescribeRouteFailed"
  | other name => name

structure NodeEvent where
  node : Node
  kind : EventKind
  reason : EventReason
  message : String
deriving DecidableEq

inductive Verb where
  | create
  | delete
  | reconcile
deriving DecidableEq

def Verb.text : Verb → String
  | create => "create"
  | delete => "delete"
  | reconcile => "reconcile"

/-! ### Requests -/

namespace Control

inductive Request where
  | createRoute (instanceId destination : String)
  | findRoute (destination : String)
  | listRoutes
  | deleteRoute (destination : String)
  | getNode (name : String)
  | listNodes
  | patchNode (name : String) (edit : NodeEdit) (scope : PatchScope)
  | record (event : NodeEvent)
  | cachedRoute (name : String)
  /-- Caches a route for a name without one. -/
  | remember (name : String) (route : Route)
  | forget (name : String)
  | evict (destination : String)
  /-- Measures an operation that began at a point of the clock. -/
  | observe (verb : Verb) (start : Nat)
  | now
  /-- Waits for the lock that orders all changes of the route table. -/
  | lock
  | unlock
  | pause (millis : Rat)
  /-- A random share, at least nothing and less than the whole. -/
  | draw

def Reply : Request → Type
  | .createRoute _ _ => Outcome (Option Route)
  | .findRoute _ => Outcome (Option Route)
  | .listRoutes => Outcome (List Route)
  | .deleteRoute _ => Outcome Unit
  | .getNode _ => Outcome (Option Node)
  | .listNodes => Outcome (List Node)
  | .patchNode _ _ _ => Outcome Unit
  | .record _ => Unit
  | .cachedRoute _ => Option Route
  | .remember _ _ => Unit
  | .forget _ => Unit
  | .evict _ => Unit
  | .observe _ _ => Unit
  | .now => Nat
  | .lock => Unit
  | .unlock => Unit
  | .pause _ => Unit
  | .draw => Rat

def interface : Interface := ⟨Request, Reply⟩

end Control

abbrev Control (α : Type) := Program Control.interface α

namespace Control

/-! ### Single requests -/

def createRoute (instanceId destination : String) : Control (Outcome (Option Route)) :=
  Program.request (I := interface) (.createRoute instanceId destination)

def findRoute (destination : String) : Control (Outcome (Option Route)) :=
  Program.request (I := interface) (.findRoute destination)

def listRoutes : Control (Outcome (List Route)) :=
  Program.request (I := interface) .listRoutes

def deleteRoute (destination : String) : Control (Outcome Unit) :=
  Program.request (I := interface) (.deleteRoute destination)

def getNode (name : String) : Control (Outcome (Option Node)) :=
  Program.request (I := interface) (.getNode name)

def listNodes : Control (Outcome (List Node)) :=
  Program.request (I := interface) .listNodes

def patchNode (name : String) (edit : NodeEdit) (scope : PatchScope) : Control (Outcome Unit) :=
  Program.request (I := interface) (.patchNode name edit scope)

def record (event : NodeEvent) : Control Unit :=
  Program.request (I := interface) (.record event)

def cachedRoute (name : String) : Control (Option Route) :=
  Program.request (I := interface) (.cachedRoute name)

def remember (name : String) (route : Route) : Control Unit :=
  Program.request (I := interface) (.remember name route)

def forget (name : String) : Control Unit :=
  Program.request (I := interface) (.forget name)

def evict (destination : String) : Control Unit :=
  Program.request (I := interface) (.evict destination)

def observe (verb : Verb) (start : Nat) : Control Unit :=
  Program.request (I := interface) (.observe verb start)

def now : Control Nat := Program.request (I := interface) .now

def lock : Control Unit := Program.request (I := interface) .lock

def unlock : Control Unit := Program.request (I := interface) .unlock

def pause (millis : Rat) : Control Unit := Program.request (I := interface) (.pause millis)

def draw : Control Rat := Program.request (I := interface) .draw

/-- A program that holds the lock from its start to its end. -/
def locked (body : Control α) : Control α := do
  lock
  let a ← body
  unlock
  return a

end Control

end PodRoutes
