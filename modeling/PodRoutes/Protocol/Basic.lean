import PodRoutes.Protocol.Backoff

/-!
# Changing the route table

All creates and deletes hold one lock, so that two of them never mix. A create is attempted with
growing pauses. A refusal because the destination is taken ends the attempts: the route is adopted
if it is the instance's own. A create that gives no route back is followed by a lookup.
-/

namespace PodRoutes

inductive EnsuredRoute where
  | existing (route : Route)
  | created (route : Route)
deriving DecidableEq

namespace EnsuredRoute

def route : EnsuredRoute → Route
  | existing r => r
  | created r => r

def wasCreated : EnsuredRoute → Bool
  | existing _ => false
  | created _ => true

end EnsuredRoute

namespace Protocol

open Control

/-! ### Looking up -/

def listAll : Control (Outcome (List Route)) := listRoutes

/-- Looks a destination up, in a list at hand if there is one that is not empty. -/
def find (destination : String) (atHand : Option (List Route)) : Control (Outcome (Option Route)) :=
  if destination = "" then return .error (.invalidCidr .emptyQuery) else
    match atHand with
    | some (r :: rs) => return .ok (Route.find? (r :: rs) destination)
    | _ => findRoute destination

/-! ### Creating -/

/-- The route of a destination that is taken, if it is the instance's own. A lookup that fails or
shows nothing leaves the refusal as it is. -/
def adopt (instanceId destination : String) (refusal : RouteError) : Control (Outcome Route) := do
  match ← findRoute destination with
  | .ok (some r) =>
    return if r.isOwnedBy instanceId then .ok r
      else .error (.ownedByOther destination r.instanceId instanceId)
  | _ => return .error refusal

/-- The route of a create that gave none back. -/
def lookUpCreated (destination : String) : Control (Outcome Route) := do
  match ← findRoute destination with
  | .ok (some r) => return .ok r
  | .ok none => return .error (.notVisible destination)
  | .error e => return .error e

/-- Attempts a create a number of times; `last` is the error to give when no attempt is left. -/
def attempts (b : Backoff) (instanceId destination : String) :
    Nat → Rat → RouteError → Control (Outcome Route)
  | 0, _, last => return .error last
  | left + 1, delay, _ => do
    match ← createRoute instanceId destination with
    | .ok (some r) => return .ok r
    | .ok none => lookUpCreated destination
    | .error e =>
      if e.isDuplicate then adopt instanceId destination e
      else if left = 0 then return .error e
      else do
        b.rest delay
        attempts b instanceId destination left (delay * b.factor) e

def createHeld (b : Backoff) (instanceId destination : String) : Control (Outcome Route) :=
  attempts b instanceId destination b.steps b.duration (.internal (.noCreateAttempt destination))

def create (b : Backoff) (instanceId destination : String) : Control (Outcome Route) :=
  locked (createHeld b instanceId destination)

/-- Creates the route that a lookup did not show, or says what the one it showed means. -/
def ensureAfter (b : Backoff) (instanceId destination : String) (found : Option Route) :
    Control (Outcome EnsuredRoute) :=
  match found.filter fun r => r.destination = destination with
  | some r =>
    return if r.isOwnedBy instanceId then .ok (.existing r)
      else .error (.ownedByOther destination r.instanceId instanceId)
  | none => do return (← createHeld b instanceId destination).map .created

def ensure (b : Backoff) (instanceId destination : String) (atHand : Option (List Route)) :
    Control (Outcome EnsuredRoute) :=
  locked do
    match ← find destination atHand with
    | .error e => return .error (.lookup destination e)
    | .ok found => ensureAfter b instanceId destination found

/-! ### Deleting -/

def delete (destination : String) : Control (Outcome Unit) := locked (deleteRoute destination)

end Protocol

end PodRoutes
