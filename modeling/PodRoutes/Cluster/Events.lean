import PodRoutes.Cluster.Nodes

/-!
# Events over the cluster's API

An event is posted as an object that points to its node. It does not matter whether that succeeds.
-/

namespace PodRoutes.Cluster

def eventNamespace : String := "default"

def eventsPath : String := "/api/v1/namespaces/" ++ eventNamespace ++ "/events"

def eventSource : String := "route-controller"

def eventJson (e : NodeEvent) (date : Instant) : Json :=
  .record [
    ("apiVersion", .text "v1"),
    ("kind", .text "Event"),
    ("count", .nat 1),
    ("firstTimestamp", date.toJson),
    ("involvedObject", .present [
      ("apiVersion", some (.text "v1")),
      ("kind", some (.text "Node")),
      ("name", some (.text e.node.name)),
      ("uid", e.node.metadata.uid.map .text)]),
    ("lastTimestamp", date.toJson),
    ("message", .text e.message),
    ("metadata", .record [
      ("generateName", .text (e.node.name ++ "-")),
      ("namespace", .text eventNamespace)]),
    ("reason", .text e.reason.text),
    ("source", .record [("component", .text eventSource)]),
    ("type", .text e.kind.text)]

def eventRequest (e : NodeEvent) (date : Instant) : Web.HttpRequest :=
  { method := .post, target := eventsPath
    headers := [("content-type", "application/json")], body := some (eventJson e date) }

def postEvent (e : NodeEvent) : Web Unit := do
  let date ← Web.date
  let _ ← Web.send (eventRequest e date) none

end PodRoutes.Cluster
