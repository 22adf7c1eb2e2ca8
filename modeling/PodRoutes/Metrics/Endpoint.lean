import PodRoutes.Metrics.Exposition
import PodRoutes.Text.Fields

/-!
# The endpoint for metrics and health

The endpoint answers by the path of a request alone: the histogram, a sign of life, or that there is
nothing. A request for the head gets the same answer without its body.
-/

namespace PodRoutes.Metrics

structure EndpointAnswer where
  status : Nat
  contentType : Option String
  body : String
deriving DecidableEq

def textType : String := "text/plain; version=0.0.4"

/-- What follows the scheme and the host of a whole URL. -/
def afterAuthority : List Char → Option (List Char)
  | [] => none
  | ':' :: '/' :: '/' :: rest => some (rest.dropWhile fun c => c ≠ '/' && c ≠ '?' && c ≠ '#')
  | _ :: rest => afterAuthority rest

def targetPath (target : String) : String :=
  let local_ := match target.toList with
    | '/' :: rest => '/' :: rest
    | cs => (afterAuthority cs).getD []
  String.ofList (local_.takeWhile fun c => c ≠ '?' && c ≠ '#')

def answerTo (h : Histogram) (path : String) : EndpointAnswer :=
  if path = "/metrics" then ⟨200, some textType, exposition h⟩
  else if path = "/healthz" then ⟨200, some textType, "OK\n"⟩
  else ⟨404, none, "Not Found\n"⟩

def respond (h : Histogram) (method target : String) : EndpointAnswer :=
  let a := answerTo h (targetPath target)
  if method = "HEAD" then { a with body := "" } else a

end PodRoutes.Metrics
