import PodRoutes.Json.Shape
import PodRoutes.Node.Basic

/-!
# Nodes in JSON

Nodes are read from objects in which `null` is the same as nothing and of a repeated key the last
value counts; members that a node does not have are ignored. Missing parts are left out when a node
is written.
-/

namespace PodRoutes

open Json.Shape (optional requiredText requiredInteger)

/-! ### Parts that are carried along -/

def NodeSpec.configSource : Json.Shape :=
  .record [
    optional "configMap" (.record [requiredText "kubeletConfigKey", requiredText "name",
      requiredText "namespace", optional "resourceVersion" .text, optional "uid" .text])]

def NodeSpec.carried : List Json.Shape.Field :=
  [optional "configSource" configSource, optional "externalID" .text,
    optional "taints" (.list (.record [requiredText "effect", requiredText "key",
      optional "timeAdded" .time, optional "value" .text]))]

def NodeStatus.carried : List Json.Shape.Field :=
  [optional "addresses" (.list (.record [requiredText "address", requiredText "type"])),
    optional "allocatable" .texts,
    optional "capacity" .texts,
    optional "config" (.record [optional "active" NodeSpec.configSource,
      optional "assigned" NodeSpec.configSource, optional "error" .text,
      optional "lastKnownGood" NodeSpec.configSource]),
    optional "daemonEndpoints"
      (.record [optional "kubeletEndpoint" (.record [requiredInteger "Port" 32])]),
    optional "features" (.record [optional "supplementalGroupsPolicy" .flag]),
    optional "images" (.list (.record [optional "names" (.list .text),
      optional "sizeBytes" (.integer 64)])),
    optional "nodeInfo" (.record [requiredText "architecture", requiredText "bootID",
      requiredText "containerRuntimeVersion", requiredText "kernelVersion",
      requiredText "kubeProxyVersion", requiredText "kubeletVersion", requiredText "machineID",
      requiredText "operatingSystem", requiredText "osImage", requiredText "systemUUID"]),
    optional "runtimeHandlers" (.list (.record [
      optional "features" (.record [optional "recursiveReadOnlyMounts" .flag,
        optional "userNamespaces" .flag]),
      optional "name" .text])),
    optional "volumesAttached" (.list (.record [requiredText "devicePath", requiredText "name"])),
    optional "volumesInUse" (.list .text)]

/-! ### Reading -/

namespace Condition

def ofJson? (j : Json) : Option Condition := do
  let ms ← j.members?
  some {
    type := (← Json.optional? "type" Json.text? ms).getD ""
    status := (← Json.optional? "status" Json.text? ms).getD ""
    reason := ← Json.optional? "reason" Json.text? ms
    message := ← Json.optional? "message" Json.text? ms
    heartbeat := ← Json.optional? "lastHeartbeatTime" Instant.ofJson? ms
    transition := ← Json.optional? "lastTransitionTime" Instant.ofJson? ms }

end Condition

def Metadata.ofJson? (j : Json) : Option Metadata := do
  let ms ← j.members?
  some {
    name := ← Json.optional? "name" Json.text? ms
    generateName := ← Json.optional? "generateName" Json.text? ms
    uid := ← Json.optional? "uid" Json.text? ms
    resourceVersion := ← Json.optional? "resourceVersion" Json.text? ms
    labels := ← Json.optional? "labels" (Json.table? Json.text?) ms
    annotations := ← Json.optional? "annotations" (Json.table? Json.text?) ms
    deletionTimestamp := ← Json.optional? "deletionTimestamp" Instant.ofJson? ms }

def NodeSpec.ofJson? (j : Json) : Option NodeSpec := do
  let ms ← j.members?
  some {
    podCidr := ← Json.optional? "podCIDR" Json.text? ms
    podCidrs := ← Json.optional? "podCIDRs" (Json.list? Json.text?) ms
    providerId := ← Json.optional? "providerID" Json.text? ms
    unschedulable := ← Json.optional? "unschedulable" Json.bool? ms
    others := ← Json.Shape.fieldsIn? carried ms }

def NodeStatus.ofJson? (j : Json) : Option NodeStatus := do
  let ms ← j.members?
  some {
    conditions := ← Json.optional? "conditions" (Json.list? Condition.ofJson?) ms
    phase := ← Json.optional? "phase" Json.text? ms
    others := ← Json.Shape.fieldsIn? carried ms }

/-- Whether an object of the cluster says that it is of the given kind, where it says anything. -/
def isOfKind (kind : String) (ms : List (String × Json)) : Bool :=
  let said (name expected : String) := (ms.filter fun m => m.1 = name).all fun m =>
    m.2.text? = some expected
  said "apiVersion" "v1" && said "kind" kind

def Node.ofJson? (j : Json) : Option Node := do
  let ms ← j.members?
  if isOfKind "Node" ms then
    some {
      metadata := (← Json.optional? "metadata" Metadata.ofJson? ms).getD {}
      spec := ← Json.optional? "spec" NodeSpec.ofJson? ms
      status := ← Json.optional? "status" NodeStatus.ofJson? ms }
  else none

/-! ### Writing -/

def Condition.toJson (c : Condition) : Json :=
  .present [
    ("lastHeartbeatTime", c.heartbeat.map Instant.toJson),
    ("lastTransitionTime", c.transition.map Instant.toJson),
    ("message", c.message.map .text),
    ("reason", c.reason.map .text),
    ("status", some (.text c.status)),
    ("type", some (.text c.type))]

def Metadata.toJson (m : Metadata) : Json :=
  .present [
    ("annotations", m.annotations.map Table.toJson),
    ("deletionTimestamp", m.deletionTimestamp.map Instant.toJson),
    ("generateName", m.generateName.map .text),
    ("labels", m.labels.map Table.toJson),
    ("name", m.name.map .text),
    ("resourceVersion", m.resourceVersion.map .text),
    ("uid", m.uid.map .text)]

def NodeSpec.toJson (s : NodeSpec) : Json :=
  .present ([
    ("podCIDR", s.podCidr.map .text),
    ("podCIDRs", s.podCidrs.map fun cs => .array (cs.map .text)),
    ("providerID", s.providerId.map .text),
    ("unschedulable", s.unschedulable.map .bool)] ++ s.others.map fun m => (m.1, some m.2))

def NodeStatus.toJson (s : NodeStatus) : Json :=
  .present ([
    ("conditions", s.conditions.map fun cs => .array (cs.map Condition.toJson)),
    ("phase", s.phase.map .text)] ++ s.others.map fun m => (m.1, some m.2))

def Node.toJson (n : Node) : Json :=
  .present [
    ("apiVersion", some (.text "v1")),
    ("kind", some (.text "Node")),
    ("metadata", some n.metadata.toJson),
    ("spec", n.spec.map NodeSpec.toJson),
    ("status", n.status.map NodeStatus.toJson)]

end PodRoutes
