import PodRoutes.Cloud.Config
import PodRoutes.Cloud.Message
import PodRoutes.Text.Base64
import PodRoutes.Web.Basic
import PodRoutes.Web.Header
import PodRoutes.Web.Status
import PodRoutes.Web.Url

/-!
# Routes over the cloud API

The API takes an action and its parameters in the query of a request. A create waits until its route
is seen in a listing; a delete looks up the id of its route first. The default route is left out of
listings.
-/

namespace PodRoutes.Cloud

open Web (HttpRequest HttpResponse Method)

structure Client where
  config : Config
  headers : Table String

namespace Client

/-! ### Setting up -/

def ownHeaders : Table String :=
  Table.ofList [("accept", "application/json"), ("user-agent", "vpc-route-controller"),
    ("x-producttag-source", "all")]

def headersFor (c : Config) : Except ConfigProblem (Table String) := do
  let headers ← match c.securityToken.filter (· ≠ "") with
    | some token => Web.Header.setValue ownHeaders "x-ksc-security-token" token
    | none => .ok ownHeaders
  Web.Header.setAll headers c.headers.entries

def ofConfig (c : Config) : Outcome Client :=
  match headersFor c with
  | .ok headers => .ok ⟨c, headers⟩
  | .error problem => .error (.invalidConfiguration problem)

/-! ### Requests -/

def apiVersion : String := "2016-03-04"

def hostRoute : String := "Host"

def defaultRoute : String := "0.0.0.0/0"

def authorization (u : Web.Url) : List (String × String) :=
  if u.user = "" ∧ u.password = "" then [] else
    [("authorization", "Basic " ++
      String.ofList (Base64.encode (u.user ++ ":" ++ u.password).toUTF8.toList))]

def request (c : Client) (method : Method) (action : String)
    (parameters : List (String × String)) : Except TransportFault HttpRequest :=
  match Web.Url.parse c.config.endpoint with
  | .error fault => .error fault
  | .ok u =>
    let query := ("Action", action) :: ("Version", apiVersion) :: parameters
    let headers := (authorization u).foldl (fun t h => t.insert h.1 h.2) c.headers
    .ok { method, target := (u.addParameters query).text, headers := headers.entries }

def refusalText (body : String) : String :=
  match (Json.parse? body).bind ApiRefusal.ofJson? with
  | some r => if r.code ≠ "" ∨ r.message ≠ "" then r.code ++ ": " ++ r.message else body
  | none => body

def refused (action : String) (status : Nat) (body : String) : RouteError :=
  .gateway (action ++ " failed with " ++ Web.statusText status ++ ": " ++ refusalText body)

def unreadableText (body : String) : String :=
  match Json.parse? body with
  | some (.string (some s)) => "unexpected text " ++ s
  | _ => "not the expected document"

def unreadable (action body : String) : RouteError :=
  .gateway (action ++ " returned an unreadable body: " ++ unreadableText body)

def requestLimit (c : Client) : Nat := c.config.requestTimeout * 1000

def send (c : Client) (method : Method) (action : String) (parameters : List (String × String)) :
    Web (Outcome String) :=
  match c.request method action parameters with
  | .error fault => return .error (.transport fault)
  | .ok r => do
    match ← Web.send r (some c.requestLimit) with
    | .error fault => return .error (.transport fault)
    | .ok response =>
      let body := response.body.read
      return if Web.isSuccess response.status then .ok body
        else .error (refused action response.status body)

def call (c : Client) (decode : Json → Option α) (method : Method) (action : String)
    (parameters : List (String × String)) : Web (Outcome α) := do
  match ← c.send method action parameters with
  | .error e => return .error e
  | .ok body =>
    match (Json.parse? body).bind decode with
    | some a => return .ok a
    | none => return .error (unreadable action body)

/-! ### Listing -/

def listingParameters (c : Client) (destination : Option String) : List (String × String) :=
  [("Filter.1.Name", "vpc-id"), ("Filter.1.Value.1", c.config.vpcId),
    ("Filter.2.Name", "route-type"), ("Filter.2.Value.1", hostRoute)] ++
    match destination with
    | none => []
    | some d => [("Filter.3.Name", "destination-cidr-block"), ("Filter.3.Value.1", d)]

def describe (c : Client) (destination : Option String) : Web (Outcome (List RouteItem)) :=
  return (← c.call RouteListing.ofJson? .get "DescribeRoutes" (c.listingParameters destination)).map
    RouteListing.items

def describeId (c : Client) (id : String) : Web (Outcome (Option RouteItem)) :=
  return (← c.call RouteListing.ofJson? .get "DescribeRoutes" [("RouteId.1", id)]).map
    fun listing => listing.items.find? fun r => r.id = id

def findRoute (c : Client) (destination : String) : Web (Outcome (Option Route)) :=
  return (← c.describe (some destination)).map fun items =>
    (items.find? fun r => r.destination = destination).map RouteItem.toRoute

def listRoutes (c : Client) : Web (Outcome (List Route)) :=
  return (← c.describe none).map fun items =>
    (items.filter fun r => r.destination ≠ defaultRoute).map RouteItem.toRoute

/-! ### Creating -/

/-- Looks for a new route up to a number of times, until it is seen or another wait would end after
the deadline. -/
def pollRoute (c : Client) (id destination : String) (deadline : Nat) :
    Nat → Web (Outcome Route)
  | 0 => return .error (.notVisible destination)
  | left + 1 => do
    match ← c.describeId id with
    | .ok (some item) => return .ok item.toRoute
    | _ =>
      let time ← Web.now
      if deadline < time + c.config.waitInterval * 1000 then
        return .error (.notVisible destination)
      else
        Web.pause (c.config.waitInterval * 1000)
        pollRoute c id destination deadline left

/-- Waits until a new route is seen. The polls are an interval apart, which bounds their number. -/
def awaitRoute (c : Client) (id destination : String) : Web (Outcome Route) := do
  let start ← Web.now
  c.pollRoute id destination (start + c.config.waitTimeout * 1000)
    (c.config.waitTimeout / c.config.waitInterval + 1)

def createParameters (c : Client) (instanceId destination : String) : List (String × String) :=
  [("VpcId", c.config.vpcId), ("RouteType", hostRoute), ("InstanceId", instanceId),
    ("DestinationCidrBlock", destination)]

/-- Creates a route and waits until it is seen; an answer without an id gives no route. -/
def createRoute (c : Client) (instanceId destination : String) : Web (Outcome (Option Route)) := do
  match ← c.call CreatedRoute.ofJson? .post "CreateRoute"
      (c.createParameters instanceId destination) with
  | .error e =>
    return .error (if e.isDuplicate then .duplicateDestination destination e.message else e)
  | .ok created =>
    if created.routeId = "" then return .ok none
    else return (← c.awaitRoute created.routeId destination).map some

/-! ### Deleting -/

def deleteRoute (c : Client) (destination : String) : Web (Outcome Unit) := do
  match ← c.findRoute destination with
  | .error e => return .error e
  | .ok none => return .ok ()
  | .ok (some r) => return (← c.send .delete "DeleteRoute" [("RouteId", r.id)]).map fun _ => ()

end Client

end PodRoutes.Cloud
