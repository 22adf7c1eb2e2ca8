import PodRoutes.Json.Record

/-!
# Routes

A route forwards a destination network of the route table to an instance. Its JSON form is a record
of four required texts.
-/

namespace PodRoutes

structure Route where
  name : String
  destination : String
  id : String
  instanceId : String
deriving DecidableEq, Inhabited, Repr

namespace Route

/-- The route with the name that goes with its id and destination. -/
def named (id destination instanceId : String) : Route :=
  { name := id ++ "-" ++ destination, destination, id, instanceId }

def isOwnedBy (r : Route) (instanceId : String) : Bool := r.instanceId = instanceId

theorem isOwnedBy_iff {r : Route} {instanceId : String} :
    r.isOwnedBy instanceId = true ↔ r.instanceId = instanceId := by
  simp [isOwnedBy]

def find? (routes : List Route) (destination : String) : Option Route :=
  routes.find? fun r => r.destination = destination

theorem mem_of_find? {routes : List Route} {destination : String} {r : Route}
    (h : find? routes destination = some r) : r ∈ routes :=
  List.mem_of_find?_eq_some h

theorem destination_of_find? {routes : List Route} {destination : String} {r : Route}
    (h : find? routes destination = some r) : r.destination = destination := by
  simpa using List.find?_some h

/-! ### JSON -/

def toJson (r : Route) : Json :=
  .record [("name", .text r.name), ("destinationCidr", .text r.destination),
    ("routeId", .text r.id), ("instanceId", .text r.instanceId)]

def fieldNames : List (List String) :=
  [["name"], ["destinationCidr"], ["routeId"], ["instanceId"]]

def ofJson? (j : Json) : Option Route := do
  match ← j.fields? fieldNames with
  | [name, destination, id, instanceId] => do
    some {
      name := ← Json.required? Json.text? name
      destination := ← Json.required? Json.text? destination
      id := ← Json.required? Json.text? id
      instanceId := ← Json.required? Json.text? instanceId }
  | _ => none

def render (r : Route) : String := r.toJson.render

def parse? (s : String) : Option Route := (Json.parse? s).bind ofJson?

end Route

end PodRoutes
