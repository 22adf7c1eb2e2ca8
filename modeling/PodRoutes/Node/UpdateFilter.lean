import PodRoutes.Node.Instance

/-!
# Updates worth looking at

An update of a node is let through when it can change the route that the node should have: its
identity, pod networks or provider id changed. Where instance ids come from annotations, a node
without such an annotation is held back, and one on which an annotation appears is let through.
-/

namespace PodRoutes

structure UpdateFilter where
  annotatedOnly : Bool
deriving DecidableEq

namespace UpdateFilter

/-- Whether an instance id annotation is on the new version and not on the old one. -/
def idKeyAppeared (old new : Node) : Bool :=
  [Node.legacyIdKey, Node.idKey].any fun key =>
    new.annotations.contains key && !old.annotations.contains key

/-- Whether the identity, a pod network or the provider id differs. -/
def identityChanged (old new : Node) : Bool :=
  let before := old.spec.getD {}
  let after := new.spec.getD {}
  old.metadata.uid ≠ new.metadata.uid || before.podCidr ≠ after.podCidr ||
    before.providerId ≠ after.providerId || before.podCidrs ≠ after.podCidrs

def admits (f : UpdateFilter) (old new : Node) : Bool :=
  if f.annotatedOnly then
    new.isAnnotated && (idKeyAppeared old new || identityChanged old new)
  else identityChanged old new

end UpdateFilter

end PodRoutes
