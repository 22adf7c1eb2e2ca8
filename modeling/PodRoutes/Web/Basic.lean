import PodRoutes.Effect.Program
import PodRoutes.Json.Basic
import PodRoutes.RouteError
import PodRoutes.Text.Utf8
import PodRoutes.Time.Instant

/-!
# Requests over HTTP

What a client of an HTTP service may ask: send a request with a limit on the time to the end of its
answer, wait, and read the clock.
-/

namespace PodRoutes

namespace Web

inductive Method where
  | get
  | post
  | patch
  | delete
deriving DecidableEq

def Method.text : Method → String
  | get => "GET"
  | post => "POST"
  | patch => "PATCH"
  | delete => "DELETE"

/-- A request. The target is a path of the service, or a whole URL. -/
structure HttpRequest where
  method : Method
  target : String
  headers : List (String × String) := []
  body : Option Json := none

/-- The body of an answer: a text, or bytes that may be none. -/
inductive Body where
  | text (s : String)
  | bytes (bs : List UInt8)
deriving DecidableEq

def Body.read : Body → String
  | text s => s
  | bytes bs => Utf8.decode bs

structure HttpResponse where
  status : Nat
  body : Body
deriving DecidableEq

/-- Something that a client asks for; times are in milliseconds. -/
inductive Request where
  | send (request : HttpRequest) (limit : Option Nat)
  | pause (millis : Nat)
  | now
  | date

def Reply : Request → Type
  | .send _ _ => Except TransportFault HttpResponse
  | .pause _ => Unit
  | .now => Nat
  | .date => Instant

def interface : Interface := ⟨Request, Reply⟩

end Web

abbrev Web (α : Type) := Program Web.interface α

namespace Web

def send (r : HttpRequest) (limit : Option Nat) : Web (Except TransportFault HttpResponse) :=
  Program.request (I := interface) (.send r limit)

def pause (millis : Nat) : Web Unit := Program.request (I := interface) (.pause millis)

def now : Web Nat := Program.request (I := interface) .now

def date : Web Instant := Program.request (I := interface) .date

def isSuccess (status : Nat) : Bool := 200 ≤ status && status < 300

end Web

end PodRoutes
