import PodRoutes.Node.Condition

/-!
# Nodes without a route

A node with an exclude label, one whose readiness is unknown and one on its way out get no route,
in this order of reasons. A node that says it is not ready keeps its route.
-/

namespace PodRoutes

inductive SkipReason where
  | excluded
  | readyUnknown
  | deleting
deriving DecidableEq

namespace Node

/-- The labels that take a node out of route handling. -/
def excludeLabels : List String :=
  ["service.beta.kubernetes.io/exclude-node", "service.ksyun.com/exclude-node"]

def isExcluded (n : Node) : Bool := excludeLabels.any fun label => n.labels.contains label

def isReadyUnknown (n : Node) : Bool :=
  match n.condition? readyType with
  | some c => c.status = "Unknown"
  | none => false

def skipReason? (n : Node) : Option SkipReason :=
  if n.isExcluded then some .excluded
  else if n.isReadyUnknown then some .readyUnknown
  else if n.isBeingDeleted then some .deleting
  else none

end Node

end PodRoutes
