import PodRoutes.Control.Basic

/-!
# A route table in memory

A gateway that keeps its routes in a map by destination. Errors can be queued for the next calls of
each kind, destinations can be refused for good, and two switches choose how a taken destination is
reported and whether a create gives its route back. Each call is counted, also a failing one.
-/

namespace PodRoutes

structure CallCounts where
  creates : Nat := 0
  finds : Nat := 0
  lists : Nat := 0
  deletes : Nat := 0
deriving DecidableEq

/-- The errors that wait for the next calls of each kind. -/
structure CallFailures where
  create : List RouteError := []
  find : List RouteError := []
  list : List RouteError := []
  delete : List RouteError := []
deriving DecidableEq

structure MemoryGateway where
  table : Table Route := Table.empty
  failures : CallFailures := {}
  /-- The destinations whose creates always fail. -/
  refused : List String := []
  /-- Whether a taken destination is reported as a plain message. -/
  duplicateAsMessage : Bool := false
  /-- Whether a create that succeeds gives no route back. -/
  createReturnsNone : Bool := false
  /-- The number of routes made so far, from which ids are made. -/
  made : Nat := 0
  counts : CallCounts := {}
  deleted : List String := []

namespace MemoryGateway

def insert (g : MemoryGateway) (r : Route) : MemoryGateway :=
  { g with table := g.table.insert r.destination r }

/-- A gateway with the given routes; of routes with the same destination the last one stays. -/
def ofRoutes (routes : List Route) : MemoryGateway := routes.foldl insert {}

def routes (g : MemoryGateway) : List Route := g.table.values

/-! ### Calls -/

def duplicateError (g : MemoryGateway) (destination : String) : RouteError :=
  let message := "CIDR already exists for " ++ destination
  if g.duplicateAsMessage then .gateway message else .duplicateDestination destination message

def refusal (destination : String) : RouteError :=
  .gateway ("CreateRoute failed with 503 Service Unavailable for " ++ destination)

def nextRoute (g : MemoryGateway) (instanceId destination : String) : Route :=
  Route.named ("route-" ++ Decimal.text (g.made + 1)) destination instanceId

def create (g : MemoryGateway) (instanceId destination : String) :
    Outcome (Option Route) × MemoryGateway :=
  let g := { g with counts.creates := g.counts.creates + 1 }
  match g.failures.create with
  | e :: rest => (.error e, { g with failures.create := rest })
  | [] =>
    if g.refused.contains destination then (.error (refusal destination), g)
    else if g.table.contains destination then (.error (g.duplicateError destination), g)
    else
      let r := g.nextRoute instanceId destination
      (.ok (if g.createReturnsNone then none else some r),
        { g with table := g.table.insert destination r, made := g.made + 1 })

def find (g : MemoryGateway) (destination : String) : Outcome (Option Route) × MemoryGateway :=
  let g := { g with counts.finds := g.counts.finds + 1 }
  match g.failures.find with
  | e :: rest => (.error e, { g with failures.find := rest })
  | [] => (.ok (g.table.get? destination), g)

def list (g : MemoryGateway) : Outcome (List Route) × MemoryGateway :=
  let g := { g with counts.lists := g.counts.lists + 1 }
  match g.failures.list with
  | e :: rest => (.error e, { g with failures.list := rest })
  | [] => (.ok g.routes, g)

def delete (g : MemoryGateway) (destination : String) : Outcome Unit × MemoryGateway :=
  let g := { g with counts.deletes := g.counts.deletes + 1 }
  match g.failures.delete with
  | e :: rest => (.error e, { g with failures.delete := rest })
  | [] =>
    (.ok (), { g with table := g.table.erase destination, deleted := g.deleted ++ [destination] })

end MemoryGateway

end PodRoutes
