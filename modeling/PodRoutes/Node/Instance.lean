import PodRoutes.Node.Basic

/-!
# The instance behind a node

The id of the cloud instance that a node runs on comes from the first of three sources that has
one: two annotations, the older one first, and the provider id. An empty annotation counts as an
id, an empty provider id does not.
-/

namespace PodRoutes

inductive InstanceIdSource where
  | legacyKey
  | key
  | providerId
deriving DecidableEq

namespace Node

/-- The annotation that older node agents write. -/
def legacyIdKey : String := "appengine.sdns.ksyun.com/instance-uuid"

/-- The annotation that current node agents write. -/
def idKey : String := "kce.sdns.ksyun.com/instanceId"

/-- The provider id, unless it is empty. -/
def providerId? (n : Node) : Option String :=
  (n.spec.bind NodeSpec.providerId).filter (· ≠ "")

def instanceSource? (n : Node) : Option (String × InstanceIdSource) :=
  match n.annotations.get? legacyIdKey with
  | some id => some (id, .legacyKey)
  | none =>
    match n.annotations.get? idKey with
    | some id => some (id, .key)
    | none => n.providerId?.map (·, .providerId)

def instanceId? (n : Node) : Option String := n.instanceSource?.map Prod.fst

def isAnnotated (n : Node) : Bool :=
  n.annotations.contains legacyIdKey || n.annotations.contains idKey

end Node

end PodRoutes
