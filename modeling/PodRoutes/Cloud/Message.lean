import PodRoutes.Json.Record
import PodRoutes.Route.Basic

/-!
# Messages of the cloud API

The documents that the API answers. Every field has an empty default.
-/

namespace PodRoutes.Cloud

structure RouteItem where
  id : String
  vpcId : String
  type : String
  destination : String
  nextHops : List String
deriving DecidableEq

/-- The listed route as a route; the first gateway is its owner, and without one it has none. -/
def RouteItem.toRoute (r : RouteItem) : Route :=
  Route.named r.id r.destination (r.nextHops.head?.getD "")

structure RouteListing where
  requestId : String
  items : List RouteItem
deriving DecidableEq

structure CreatedRoute where
  requestId : String
  routeId : String
deriving DecidableEq

structure ApiRefusal where
  requestId : String
  code : String
  message : String
deriving DecidableEq

/-! ### Reading -/

/-- Reads a field that is an empty text when it is missing. -/
def textField? : Option Json → Option String := Json.defaulted? "" Json.text?

def nextHopOfJson? (j : Json) : Option String := do
  match ← j.fields? [["GatewayId"]] with
  | [gateway] => textField? gateway
  | _ => none

def RouteItem.ofJson? (j : Json) : Option RouteItem := do
  match ← j.fields? [["RouteId"], ["VpcId"], ["RouteType"], ["DestinationCidrBlock"],
    ["NextHopset"]] with
  | [id, vpcId, type, destination, nextHops] => do
    some {
      id := ← textField? id
      vpcId := ← textField? vpcId
      type := ← textField? type
      destination := ← textField? destination
      nextHops := ← Json.defaulted? [] (Json.list? nextHopOfJson?) nextHops }
  | _ => none

def RouteListing.ofJson? (j : Json) : Option RouteListing := do
  match ← j.fields? [["RequestId"], ["RouteSet"]] with
  | [requestId, items] => do
    some {
      requestId := ← textField? requestId
      items := ← Json.defaulted? [] (Json.list? RouteItem.ofJson?) items }
  | _ => none

def CreatedRoute.ofJson? (j : Json) : Option CreatedRoute := do
  match ← j.fields? [["RequestId"], ["RouteId"]] with
  | [requestId, routeId] => do
    some { requestId := ← textField? requestId, routeId := ← textField? routeId }
  | _ => none

def refusalDetail? (j : Json) : Option (String × String) := do
  match ← j.fields? [["Code"], ["Message"]] with
  | [code, message] => do some (← textField? code, ← textField? message)
  | _ => none

def ApiRefusal.ofJson? (j : Json) : Option ApiRefusal := do
  match ← j.fields? [["RequestId"], ["Error"]] with
  | [requestId, detail] => do
    let requestId ← textField? requestId
    let (code, message) ← Json.defaulted? ("", "") refusalDetail? detail
    some { requestId, code, message }
  | _ => none

end PodRoutes.Cloud
