import PodRoutes.Protocol.Basic
import PodRoutes.World.Schedule

/-!
# Calls of the protocol

The operations of the protocol as data, so that several of them can be started side by side.
-/

namespace PodRoutes.Protocol

inductive Call where
  | create (instanceId destination : String)
  | ensure (instanceId destination : String) (atHand : Option (List Route))
  | find (destination : String) (atHand : Option (List Route))
  | list
  | delete (destination : String)
deriving DecidableEq

inductive CallResult where
  | route (r : Route)
  | ensured (r : EnsuredRoute)
  | found (r : Option Route)
  | routes (rs : List Route)
  | done
deriving DecidableEq

def Call.program (b : Backoff) : Call → Control (Outcome CallResult)
  | create i c => return (← Protocol.create b i c).map .route
  | ensure i c atHand => return (← Protocol.ensure b i c atHand).map .ensured
  | find c atHand => return (← Protocol.find c atHand).map .found
  | list => return (← Protocol.listAll).map .routes
  | delete c => return (← Protocol.delete c).map fun _ => .done

/-- A bound on the steps of one call: at most two for each of its requests, of which an attempt
has three and the rest of a call five, and one to finish. -/
def callSteps (b : Backoff) : Nat := 6 * b.steps + 11

def runTogether (b : Backoff) (w : World) (calls : List Call) :
    List (Option (Outcome CallResult)) × World :=
  w.runAll (calls.length * callSteps b) (calls.map (Call.program b))

end PodRoutes.Protocol
