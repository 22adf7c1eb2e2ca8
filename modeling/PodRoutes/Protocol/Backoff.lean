import PodRoutes.Control.Basic

/-!
# Pauses between attempts

The pause after the first failed attempt has a given length, and each further pause is longer by a
factor. A positive jitter adds a random share of itself to each pause. Pauses are exact; the timer
rounds them.
-/

namespace PodRoutes

/-- How often a create is attempted, and the pauses in between. -/
structure Backoff where
  steps : Nat
  duration : Rat
  factor : Rat
  jitter : Rat
deriving DecidableEq

namespace Backoff

/-- Three attempts, five seconds, doubling, at most as much again by chance. -/
def standard : Backoff := { steps := 3, duration := 5000, factor := 2, jitter := 1 }

def rest (b : Backoff) (delay : Rat) : Control Unit :=
  if b.jitter ≤ 0 then Control.pause delay else do
    let share ← Control.draw
    Control.pause (delay * (1 + share * b.jitter))

/-- Whether successive waits could be pauses of the schedule, up to a millisecond. -/
def fits (b : Backoff) : Rat → List Nat → Bool
  | _, [] => true
  | delay, wait :: waits =>
    delay ≤ (wait : Rat) && (wait : Rat) ≤ delay * (1 + b.jitter) + 1 &&
      b.fits (delay * b.factor) waits

end Backoff

end PodRoutes
