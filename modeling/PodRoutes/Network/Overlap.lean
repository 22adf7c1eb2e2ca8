import PodRoutes.Network.Basic
import PodRoutes.Route.Basic
import PodRoutes.RouteError

/-!
# A route beside a node's pod network

A route conflicts with a node when the node's pod network contains its destination, or when both
are written alike and the route forwards to an instance other than the node's.
-/

namespace PodRoutes

/-- How a route's destination lies to a node's pod network. -/
structure Overlap where
  equal : Bool
  /-- The destination lies within the pod network. -/
  contains : Bool
deriving DecidableEq

inductive Verdict where
  | disjoint
  | equalSameOwner
  | equalDifferentOwner
  | contains
deriving DecidableEq

def Verdict.isConflict : Verdict → Bool
  | equalDifferentOwner => true
  | contains => true
  | _ => false

namespace Network

def canonicalOf (s : String) : Except RouteError Network :=
  match parseCanonical s with
  | .ok n => .ok n
  | .error fault => .error (.invalidCidr (.unreadable s fault))

/-- Compares a node's pod network with a destination. A node without one overlaps every route. A
destination written like the pod network is equal to it and not contained in it; any other is
contained when its lowest and its highest address are. -/
def overlap (node : Option Network) (destination : String) : Except RouteError Overlap :=
  match node with
  | none => .ok ⟨true, true⟩
  | some outer =>
    match parse destination with
    | .error fault => .error (.invalidCidr (.routeUnreadable destination fault))
    | .ok inner =>
      if outer.text = destination then .ok ⟨true, false⟩
      else .ok ⟨false, outer.contains inner.first && outer.contains inner.last⟩

def verdict (node : Option Network) (route : Route) (instanceId : Option String) :
    Except RouteError Verdict :=
  match overlap node route.destination with
  | .error e => .error e
  | .ok o =>
    .ok (if o.contains then .contains
      else if o.equal then
        if some route.instanceId = instanceId then .equalSameOwner else .equalDifferentOwner
      else .disjoint)

/-- Whether a route conflicts with a node; a destination that cannot be read conflicts with none. -/
def conflicts (node : Network) (route : Route) (instanceId : Option String) : Bool :=
  match verdict (some node) route instanceId with
  | .ok v => v.isConflict
  | .error _ => false

end Network

end PodRoutes
