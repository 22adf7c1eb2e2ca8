import PodRoutes.Json.Basic
import PodRoutes.Table
import PodRoutes.Time.Instant

/-!
# Nodes

A cluster node with the parts that decide about its route. A missing part is kept apart from an
empty one, because a node is written back as it was read. The other members of its specification and
status are only carried along, as documents.
-/

namespace PodRoutes

structure Condition where
  type : String
  status : String
  reason : Option String := none
  message : Option String := none
  heartbeat : Option Instant := none
  transition : Option Instant := none
deriving DecidableEq

structure Metadata where
  name : Option String := none
  generateName : Option String := none
  uid : Option String := none
  resourceVersion : Option String := none
  labels : Option (Table String) := none
  annotations : Option (Table String) := none
  deletionTimestamp : Option Instant := none
deriving DecidableEq

structure NodeSpec where
  podCidr : Option String := none
  podCidrs : Option (List String) := none
  providerId : Option String := none
  unschedulable : Option Bool := none
  others : List (String × Json) := []
deriving DecidableEq

structure NodeStatus where
  conditions : Option (List Condition) := none
  phase : Option String := none
  others : List (String × Json) := []
deriving DecidableEq

structure Node where
  metadata : Metadata := {}
  spec : Option NodeSpec := none
  status : Option NodeStatus := none
deriving DecidableEq

namespace Node

/-- The name of a node, or what its name is to be made from. -/
def name (n : Node) : String := (n.metadata.name <|> n.metadata.generateName).getD ""

def labels (n : Node) : Table String := n.metadata.labels.getD Table.empty

def annotations (n : Node) : Table String := n.metadata.annotations.getD Table.empty

def conditions (n : Node) : List Condition := (n.status.bind NodeStatus.conditions).getD []

def isBeingDeleted (n : Node) : Bool := n.metadata.deletionTimestamp.isSome

end Node

end PodRoutes
