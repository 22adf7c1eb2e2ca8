import PodRoutes.Reconcile.Cluster
import PodRoutes.World.Basic
import PodRoutes.Control.Deadline

/-!
# Periodic passes

The first pass comes at once and each further one a period after the one before. When a pass
overruns its period, the next one comes at once, and the ones after it a period later each.
-/

namespace PodRoutes.Periodic

def period (s : Settings) : Nat := max s.period Settings.minPeriod

/-- By how many milliseconds a pass may be late and still keep its successor in time. -/
def tolerance : Nat := 5

/-- The time of the next tick, for a tick that was due at one time and came at another. -/
def nextTick (period due came : Nat) : Nat :=
  if due + tolerance < came then came + period else due + period

/-- Makes passes from the next tick on until a point of the clock, at most a bounded number. A pass
under way at that point is cut off. -/
def run (s : Settings) (b : Backoff) (stop : Nat) : Nat → Nat → World → World
  | 0, _, w => w.advanceTo stop
  | bound + 1, tick, w =>
    if max tick w.clock < stop then
      let w := w.advanceTo tick
      let following := nextTick (period s) tick w.clock
      match w.run (Control.bounded stop false (Reconcile.reconcileAll s b)) with
      | (none, w) => w.advanceTo stop
      | (some _, w) => run s b stop bound following w
    else w.advanceTo stop

def runFor (s : Settings) (b : Backoff) (length : Nat) (w : World) : World :=
  run s b (w.clock + length) (2 * (length / period s) + 2) w.clock w

end PodRoutes.Periodic
