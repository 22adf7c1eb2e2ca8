import PodRoutes.Reconcile.Node
import PodRoutes.World.Basic
import PodRoutes.Control.Deadline

/-!
# The worker

The worker takes names from a queue, one at a time and in the order of their arrival. A name whose
attempt fails or takes too long arrives again some time after the attempt has ended; a name whose
attempt succeeds does not.
-/

namespace PodRoutes

structure Arrival where
  time : Nat
  name : String
deriving DecidableEq

/-- What an attempt on a name gives: whether it succeeded, or `none` if it was cut off. -/
abbrev Attempt := String → World → Option Bool × World

structure AttemptRecord where
  name : String
  started : Nat
  ended : Nat
  outcome : Option Bool
deriving DecidableEq

namespace Worker

structure Progress where
  /-- The arrivals that were not taken yet, also those of times to come. -/
  queue : List Arrival
  /-- The attempts so far, the last one first. -/
  records : List AttemptRecord := []
  world : World

/-- Puts an arrival in its place: after all that come no later. -/
def enqueue (a : Arrival) : List Arrival → List Arrival
  | [] => [a]
  | b :: rest => if a.time < b.time then a :: b :: rest else b :: enqueue a rest

def requeue (delay : Nat) (r : AttemptRecord) (rest : List Arrival) : List Arrival :=
  if r.outcome = some false then enqueue ⟨r.ended + delay, r.name⟩ rest else rest

def Progress.isCutOff (p : Progress) : Bool :=
  match p.records with
  | r :: _ => r.outcome.isNone
  | [] => false

def step (attempt : Attempt) (delay stop : Nat) (p : Progress) : Option Progress :=
  match p.queue with
  | [] => none
  | a :: rest =>
    if p.isCutOff then none
    else if a.time < stop then
      let before := p.world.advanceTo a.time
      let (outcome, after) := attempt a.name before
      let r : AttemptRecord := ⟨a.name, before.clock, after.clock, outcome⟩
      some { queue := requeue delay r rest, records := r :: p.records, world := after }
    else none

def steps (attempt : Attempt) (delay stop : Nat) : Nat → Progress → Progress
  | 0, p => p
  | n + 1, p =>
    match step attempt delay stop p with
    | some p => steps attempt delay stop n p
    | none => p

def reconcileInTime (s : Settings) (b : Backoff) (name : String) : Control Bool := do
  match ← Control.within s.timeout (Reconcile.reconcile s b name) with
  | some (.ok ()) => return true
  | _ => return false

def attemptUntil (s : Settings) (b : Backoff) (stop : Nat) : Attempt := fun name w =>
  w.run (Control.bounded stop false (reconcileInTime s b name))

/-- A bound on the attempts in a stretch of time: a name that comes back waits for the requeue delay
each time. -/
def attemptBound (s : Settings) (names length : Nat) : Nat :=
  names * (length / max 1 s.requeueDelay + 2)

def runFor (s : Settings) (b : Backoff) (names : List String) (length : Nat) (w : World) : World :=
  let stop := w.clock + length
  let arrivals := names.map fun name => ⟨w.clock, name⟩
  (steps (attemptUntil s b stop) s.requeueDelay stop (attemptBound s names.length length)
    { queue := arrivals, world := w }).world.advanceTo stop

end Worker

end PodRoutes
