import PodRoutes.Control.Basic
import PodRoutes.Json.Record
import PodRoutes.Text.Blank

/-!
# Configuration of the cloud API

The configuration is a JSON record in which every field has a default, except that the network has
to be named. Of several faults the first of these counts: the document cannot be read, the network
is not named, the endpoint is no HTTP address, the wait between polls is nothing.
-/

namespace PodRoutes.Cloud

/-- How the cloud API is reached; times are in seconds. -/
structure Config where
  endpoint : String
  vpcId : String
  region : String
  clusterId : String
  headers : Table String
  securityToken : Option String
  waitTimeout : Nat
  waitInterval : Nat
  requestTimeout : Nat
deriving DecidableEq

namespace Config

def defaultEndpoint : String := "http://internal.api.ksyun.com"

def fieldNames : List (List String) :=
  [["network_endpoint"], ["vpc_id"], ["region"], ["cluster_uuid"], ["headers"],
    ["security_token", "securityToken"], ["wait_timeout_seconds"], ["wait_interval_seconds"],
    ["request_timeout_seconds"]]

def ofJson? (j : Json) : Option Config := do
  match ← j.fields? fieldNames with
  | [endpoint, vpcId, region, clusterId, headers, token, timeout, interval, request] => do
    let endpoint ← Json.defaulted? "" Json.text? endpoint
    some {
      endpoint := if endpoint = "" then defaultEndpoint else endpoint
      vpcId := ← Json.defaulted? "" Json.text? vpcId
      region := ← Json.defaulted? "" Json.text? region
      clusterId := ← Json.defaulted? "" Json.text? clusterId
      headers := ← Json.defaulted? Table.empty (Json.table? Json.text?) headers
      securityToken := ← Json.defaulted? none (Json.nullable? Json.text?) token
      waitTimeout := ← Json.defaulted? 60 Json.nat64? timeout
      waitInterval := ← Json.defaulted? 5 Json.nat64? interval
      requestTimeout := ← Json.defaulted? 30 Json.nat64? request }
  | _ => none

def isHttp (endpoint : String) : Bool :=
  "http://".toList.isPrefixOf endpoint.toList || "https://".toList.isPrefixOf endpoint.toList

def problem? (c : Config) : Option ConfigProblem :=
  if c.vpcId = "" then some .missingVpc
  else if !isHttp c.endpoint then some (.endpointScheme c.endpoint)
  else if c.waitInterval = 0 then some .zeroWaitInterval
  else none

def parse (text : String) : Outcome Config :=
  match (Json.parse? text).bind ofJson? with
  | none => .error (.invalidConfiguration .unreadable)
  | some c =>
    match c.problem? with
    | some problem => .error (.invalidConfiguration problem)
    | none => .ok c

def environmentName : String := "NET_CONF"

/-- Reads the configuration from the value of its variable; a blank value is none. -/
def ofVariable (value : Option String) : Outcome Config :=
  match value.filter fun text => !Blank.isBlankText text with
  | none => .error (.invalidConfiguration .notSet)
  | some text => parse text

end Config

end PodRoutes.Cloud
