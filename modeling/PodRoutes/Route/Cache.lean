import PodRoutes.Route.Basic
import PodRoutes.Table

/-!
# The routes of known nodes

The cache remembers for each node name the first route that was seen to belong to it, so that the
route can be deleted after the node is gone. An entry stays until it is taken out by name or until
its destination is evicted.
-/

namespace PodRoutes

abbrev RouteCache := Table Route

namespace RouteCache

/-- Remembers a route for a name without one; says whether it did. -/
def setIfAbsent (c : RouteCache) (name : String) (route : Route) : RouteCache × Bool :=
  (c.insertNew name route, !c.contains name)

def remove (c : RouteCache) (name : String) : RouteCache × Option Route :=
  (c.erase name, c.get? name)

def without (c : RouteCache) (destination : String) : RouteCache :=
  c.filter fun _ r => r.destination ≠ destination

/-- Forgets the routes to a destination; gives their number. -/
def evict (c : RouteCache) (destination : String) : RouteCache × Nat :=
  (c.without destination, c.size - (c.without destination).size)

end RouteCache

end PodRoutes
