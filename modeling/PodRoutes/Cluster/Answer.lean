import PodRoutes.Control.Basic
import PodRoutes.Json.Record
import PodRoutes.Web.Basic

/-!
# Answers of the cluster's API server

A status from 400 to 599 is an error. Its body may be a status object that gives the code and the
reason; otherwise the code is the status. Any other answer has to be the expected document.
-/

namespace PodRoutes.Cluster

def refusalOfJson? (j : Json) : Option ClusterFault := do
  match ← j.fields? [["status"], ["message"], ["reason"], ["code"]] with
  | [status, message, reason, code] => do
    let _ ← Json.required? Json.text? status
    let message ← Json.defaulted? "" Json.text? message
    let reason ← Json.defaulted? "" Json.text? reason
    let code ← (Json.required? Json.nat64? code).filter (· < 65536)
    some (.refused code reason message)
  | _ => none

def refusal (status : Nat) (body : String) : ClusterFault :=
  match (Json.parse? body).bind refusalOfJson? with
  | some fault => fault
  | none => .refused status "Failed to parse error data" body

def isFailure (status : Nat) : Bool := 400 ≤ status && status < 600

def read (decode : Json → Option α) (r : Web.HttpResponse) : Except ClusterFault α :=
  if isFailure r.status then .error (refusal r.status r.body.read)
  else match (Json.parse? r.body.read).bind decode with
    | some a => .ok a
    | none => .error .unreadable

/-! ### Targets -/

def isQueryChar (c : Char) : Bool :=
  let n := c.toNat
  0x21 ≤ n && n ≠ 0x7F && !"\"#<>".toList.contains c

def isPathChar (c : Char) : Bool :=
  let n := c.toNat
  0x21 ≤ n && n ≠ 0x7F && !"#<>?`".toList.contains c

/-- The greatest number of bytes of a target, with the question mark that ends it. -/
def greatestTarget : Nat := 65534

def byteCount (cs : List Char) : Nat := cs.foldl (fun n c => n + c.utf8Size) 0

/-- The path of a target, if the target can be sent. The query follows the first question mark and
a fragment is dropped. -/
def pathOf? (target : List Char) : Option (List Char) :=
  let (sent, _) := Fields.cut '#' target
  let (path, query) := Fields.cut '?' sent
  if path.all isPathChar && (query.getD []).all isQueryChar &&
      byteCount target < greatestTarget then
    some path
  else none

end PodRoutes.Cluster
