import PodRoutes.Cluster.Answer
import PodRoutes.Json.Kept
import PodRoutes.Node.Json

/-!
# Nodes over the cluster's API

A patch reads the node, changes it, and writes back the parts in its scope as a merge patch that
names the version it was computed from, so that the server can refuse it when the node has changed
in between. A change that changes nothing is not sent.
-/

namespace PodRoutes.Cluster

/-! ### Requests -/

def nodesPath : String := "/api/v1/nodes"

def nodeTarget? (name : String) (subresource : String) : Option String :=
  if name = "" then none
  else (pathOf? (nodesPath ++ "/" ++ name ++ subresource).toList).map String.ofList

def ask (decode : Json → Option α) (r : Web.HttpRequest) : Web (Except ClusterFault α) := do
  match ← Web.send r none with
  | .ok response => return read decode response
  | .error _ => return .error .badRequest

def getRequest (target : String) : Web.HttpRequest := { method := .get, target }

def listRequest : Web.HttpRequest := { method := .get, target := nodesPath }

def patchRequest (target : String) (body : Json) : Web.HttpRequest :=
  { method := .patch, target
    headers := [("accept", "application/json"), ("content-type", "application/merge-patch+json")]
    body := some body }

/-! ### Reading nodes -/

def greatestDepth : Nat := 127

def isListMetadata (j : Json) : Bool :=
  match j.members? with
  | none => false
  | some ms =>
    (Json.optional? "continue" Json.text? ms).isSome &&
      (Json.optional? "remainingItemCount" Json.int64? ms).isSome &&
      (Json.optional? "resourceVersion" Json.text? ms).isSome &&
      (Json.optional? "selfLink" Json.text? ms).isSome

/-- Reads a list of nodes. Its items have to be there, with `null` for none; its metadata has to
have its form where there is any; and all other members, which say what it is a list of, have to
be keepable. -/
def nodesOfJson? (j : Json) : Option (List Node) := do
  let ms ← j.members?
  let items ← (← Json.field? ["items"] ms)
  let metadata ← Json.field? ["metadata"] ms
  let others := ms.filter fun m => m.1 ≠ "items" ∧ m.1 ≠ "metadata"
  let nodes ← Json.nullable? (Json.list? Node.ofJson?) items
  if metadata.all isListMetadata ∧ others.all fun m => m.2.isKeepable (greatestDepth - 1) then
    some (nodes.getD [])
  else none

def fetch (name : String) : Web (Except ClusterFault (Option Node)) :=
  match nodeTarget? name "" with
  | none => return .error .badRequest
  | some target => do
    match ← ask Node.ofJson? (getRequest target) with
    | .ok node => return .ok (some node)
    | .error fault => return if fault.isNotFound then .ok none else .error fault

def getNode (name : String) : Web (Outcome (Option Node)) :=
  return (← fetch name).mapError .cluster

def listNodes : Web (Outcome (List Node)) :=
  return (← ask nodesOfJson? listRequest).mapError .cluster

/-! ### Writing nodes -/

def specPatch (version : Option String) (node : Node) : Json :=
  .record [
    ("metadata", .record [
      ("resourceVersion", Json.ofOption .text version),
      ("labels", Json.ofOption Table.toJson node.metadata.labels),
      ("annotations", Json.ofOption Table.toJson node.metadata.annotations)]),
    ("spec", Json.ofOption NodeSpec.toJson node.spec)]

def statusPatch (version : Option String) (node : Node) : Json :=
  .record [
    ("metadata", .record [("resourceVersion", Json.ofOption .text version)]),
    ("status", Json.ofOption NodeStatus.toJson node.status)]

def write (name subresource : String) (body : Json) :
    Web (Except ClusterFault (Option String)) :=
  match nodeTarget? name subresource with
  | none => return .error .badRequest
  | some target =>
    return (← ask Node.ofJson? (patchRequest target body)).map fun n => n.metadata.resourceVersion

/-- Writes the specification if it is in scope, and gives the version to go on from. -/
def writeSpec (name : String) (scope : PatchScope) (version : Option String) (node : Node) :
    Web (Except ClusterFault (Option String)) :=
  if scope = .status then return .ok version else write name "" (specPatch version node)

def writeStatus (name : String) (scope : PatchScope) (version : Option String) (node : Node) :
    Web (Except ClusterFault (Option String)) :=
  if scope = .spec then return .ok version else write name "/status" (statusPatch version node)

def writeBack (name : String) (scope : PatchScope) (version : Option String) (node : Node) :
    Web (Except ClusterFault Unit) := do
  match ← writeSpec name scope version node with
  | .error fault => return .error fault
  | .ok version => return (← writeStatus name scope version node).map fun _ => ()

def patchNode (name : String) (edit : NodeEdit) (scope : PatchScope) : Web (Outcome Unit) := do
  match ← fetch name with
  | .error fault => return .error (.cluster fault)
  | .ok none => return .error (.nodeNotFound name)
  | .ok (some current) =>
    let updated := edit (← Web.date) current
    if updated = current then return .ok ()
    else return (← writeBack name scope current.metadata.resourceVersion updated).mapError .cluster

end PodRoutes.Cluster
