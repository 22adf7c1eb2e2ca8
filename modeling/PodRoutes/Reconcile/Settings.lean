/-!
# Settings of the controller
-/

namespace PodRoutes

/-- How the controller goes about its work; times are in milliseconds. -/
structure Settings where
  configureRoutes : Bool := true
  period : Nat := 300000
  /-- The deadline for one node, and for the listings of one pass. -/
  timeout : Nat := 120000
  /-- The time after which a failed node comes back. -/
  requeueDelay : Nat := 15000
deriving DecidableEq

def Settings.minPeriod : Nat := 60000

end PodRoutes
