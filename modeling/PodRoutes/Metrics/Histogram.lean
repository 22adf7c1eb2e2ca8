import PodRoutes.Table

/-!
# Durations of operations

For every operation the histogram counts the durations up to each of seven bounds, and all of them.
Durations are in microseconds.
-/

namespace PodRoutes.Metrics

def bounds : List Nat := [100, 200, 500, 1000, 2000, 5000, 10000]

/-- The observed durations of one operation, the latest first. -/
structure Series where
  micros : List Nat := []
deriving DecidableEq

namespace Series

def count (s : Series) : Nat := s.micros.length

def countUpTo (s : Series) (bound : Nat) : Nat := (s.micros.filter (· ≤ bound * 1000)).length

/-- The sum of the durations in microseconds. -/
def sum (s : Series) : Nat := s.micros.foldl (· + ·) 0

end Series

abbrev Histogram := Table Series

namespace Histogram

def series (h : Histogram) (verb : String) : Series := (h.get? verb).getD {}

def observe (h : Histogram) (verb : String) (micros : Nat) : Histogram :=
  h.insert verb ⟨micros :: (h.series verb).micros⟩

def sampleCount (h : Histogram) (verb : String) : Nat := (h.series verb).count

end Histogram

end PodRoutes.Metrics
