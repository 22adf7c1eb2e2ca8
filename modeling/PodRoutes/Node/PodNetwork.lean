import PodRoutes.Network.Ipv6
import PodRoutes.Network.Overlap
import PodRoutes.Node.Basic

/-!
# The pod network of a node

The pod networks of a node are the entries of the list, then the older single field, without empty
texts. Its IPv4 pod network is the first entry that is one; an entry that cannot be read in front
of it is an error.
-/

namespace PodRoutes.Node

/-- The pod networks of a node in the order in which they are looked at. -/
def podCidrs (n : Node) : List String :=
  match n.spec with
  | none => []
  | some spec => (spec.podCidrs.getD [] ++ spec.podCidr.toList).filter (· ≠ "")

/-- The first IPv4 network of a list of texts, in canonical form. -/
def firstIpv4 : List String → Except RouteError (Option Network)
  | [] => .ok none
  | text :: rest =>
    match Cidr.parse? text with
    | none => .error (.invalidCidr (.onNodeSpec text))
    | some (.v4 _) => (Network.canonicalOf text).map some
    | some (.v6 _ _) => firstIpv4 rest

def ipv4PodNetwork (n : Node) : Except RouteError (Option Network) := firstIpv4 n.podCidrs

end PodRoutes.Node
