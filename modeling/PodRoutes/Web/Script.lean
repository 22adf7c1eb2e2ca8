import PodRoutes.Web.Basic

/-!
# A scripted service

A service that gives prepared answers one after the other, and records the requests. A connection
may also be closed without an answer, or never be answered. Where nobody listens no request arrives.
-/

namespace PodRoutes.Web

inductive Answer where
  | reply (response : HttpResponse)
  | close
  | hang
deriving DecidableEq

structure Script where
  listening : Bool := true
  answers : List Answer
  /-- What is done when the prepared answers run out. -/
  fallback : Answer
  clock : Nat := 0
  epoch : Instant
  received : List HttpRequest := []

namespace Script

def next (s : Script) : Answer × Script :=
  match s.answers with
  | [] => (s.fallback, s)
  | a :: rest => (a, { s with answers := rest })

/-- Whether a request can arrive: there is no service behind a secure connection. -/
def accepts (s : Script) (r : HttpRequest) : Bool :=
  s.listening && !"https://".toList.isPrefixOf r.target.toList

/-- What comes of sending a request. A limit of nothing is over before the request is sent. -/
def send (s : Script) (r : HttpRequest) (limit : Option Nat) :
    Except TransportFault HttpResponse × Script :=
  if limit = some 0 then (.error .timedOut, s)
  else if s.accepts r then
    match { s with received := s.received ++ [r] }.next with
    | (.reply response, s) => (.ok response, s)
    | (.close, s) => (.error .closed, s)
    | (.hang, s) => (.error .timedOut, { s with clock := s.clock + limit.getD 0 })
  else (.error .unreachable, s)

def reply (s : Script) : (r : Request) → Reply r × Script
  | .send r limit => s.send r limit
  | .pause millis => ((), { s with clock := s.clock + millis })
  | .now => (s.clock, s)
  | .date => (s.epoch.addMillis s.clock, s)

/-- The service as the surroundings of a client. Requests of a client carry their own limits, so a
deadline is never missed. -/
def handler : Program.Handler interface Script where
  reply r s := s.reply r
  replyBy _ r s :=
    let (x, s) := s.reply r
    (some x, s)

def run (s : Script) (p : Web α) : α × Script := p.run handler s

end Script

end PodRoutes.Web
