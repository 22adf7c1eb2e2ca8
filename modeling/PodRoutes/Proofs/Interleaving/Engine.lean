import PodRoutes.Proofs.Interleaving.Obeys
import PodRoutes.Reconcile.Cluster

/-!
# The controller as a crew

A full pass and any number of attempts on single names share the world and the lock. All of them are
guarded, so that in every run only the holder of the lock changes the route table.
-/

namespace PodRoutes

open Control

/-! ### Guarded programs of the controller -/

theorem NodeEdit.keepsNames_setNetworkCondition (routeCreated : Bool) :
    NodeEdit.KeepsNames (Node.setNetworkCondition routeCreated) := fun _ _ => rfl

namespace Guarded

variable {b : Backoff} {held : Bool} {node : Node} {instanceId destination name : String}
  {atHand : Option (List Route)}

theorem rest (b : Backoff) (delay : Rat) : Guarded held (b.rest delay) held := by
  rw [Backoff.rest]
  split
  · exact ask trivial rfl
  · exact askThen trivial fun _ => ask trivial rfl

theorem find : Guarded held (Protocol.find destination atHand) held := by
  unfold Protocol.find
  split
  · exact done _ _
  · split
    · exact done _ _
    · exact ask trivial rfl

theorem adopt {refusal : RouteError} :
    Guarded true (Protocol.adopt instanceId destination refusal) true := by
  refine askThen trivial fun x => ?_
  rcases x with e | _ | r
  · exact done _ _
  · exact done _ _
  · exact done _ _

theorem lookUpCreated : Guarded true (Protocol.lookUpCreated destination) true := by
  refine askThen trivial fun x => ?_
  rcases x with e | _ | r
  · exact done _ _
  · exact done _ _
  · exact done _ _

theorem attempts {left : Nat} {delay : Rat} {last : RouteError} :
    Guarded true (Protocol.attempts b instanceId destination left delay last) true := by
  induction left generalizing delay last with
  | zero => exact done _ _
  | succ left ih =>
    rw [Protocol.attempts]
    refine askThen rfl fun x => ?_
    split
    · exact done _ _
    · exact lookUpCreated
    · split
      · exact adopt
      · split
        · exact done _ _
        · exact bind (rest b delay) fun _ => ih

theorem ensure : Guarded false (Protocol.ensure b instanceId destination atHand) false := by
  refine locked (bind find fun x => ?_)
  split
  · exact done _ _
  · unfold Protocol.ensureAfter
    split
    · exact done _ _
    · exact bind attempts fun _ => done _ _

theorem delete : Guarded false (Protocol.delete destination) false := locked (ask rfl rfl)

theorem patchCondition {routeCreated : Bool} {left : Nat} {last : RouteError} :
    Guarded false (Reconcile.patchCondition name routeCreated left last) false := by
  induction left generalizing last with
  | zero => exact done _ _
  | succ left ih =>
    rw [Reconcile.patchCondition]
    refine bind (ask (NodeEdit.keepsNames_setNetworkCondition routeCreated) rfl) fun x => ?_
    split
    · exact done _ _
    · split
      · exact ih
      · exact done _ _

theorem updateCondition {routeCreated : Bool} :
    Guarded false (Reconcile.updateCondition node routeCreated) false := by
  rw [Reconcile.updateCondition]
  split
  · exact done _ _
  · exact patchCondition

theorem markUnavailable : Guarded false (Reconcile.markUnavailable node) false :=
  bind updateCondition fun _ => done _ _

theorem addRoute : Guarded false (Reconcile.addRoute b node destination atHand) false := by
  unfold Reconcile.addRoute
  split
  · exact done _ _
  · refine askThen trivial fun start => bind ensure fun x => ?_
    split
    · exact askThen trivial fun _ => done _ _
    · refine askThen trivial fun _ => ?_
      refine askThen trivial fun _ => ?_
      exact askThen trivial fun _ => done _ _
    · exact askThen trivial fun _ => done _ _
    · refine askThen trivial fun _ => ?_
      exact askThen trivial fun _ => done _ _

theorem syncNode : Guarded false (Reconcile.syncNode b node atHand) false := by
  unfold Reconcile.syncNode
  split
  · exact done _ _
  · split
    · exact bind markUnavailable fun _ => done _ _
    · exact bind markUnavailable fun _ => done _ _
    · refine bind addRoute fun x => ?_
      split
      · exact updateCondition
      · exact bind markUnavailable fun _ => done _ _

theorem removeRoute : Guarded false (Reconcile.removeRoute name) false := by
  unfold Reconcile.removeRoute
  refine askThen trivial fun x => ?_
  split
  · exact done _ _
  · refine askThen trivial fun start => bind delete fun x => ?_
    refine askThen trivial fun _ => ?_
    split
    · exact askThen trivial fun _ => done _ _
    · exact done _ _

theorem reconcile {settings : Settings} :
    Guarded false (Reconcile.reconcile settings b name) false := by
  unfold Reconcile.reconcile
  split
  · refine askThen trivial fun x => ?_
    split
    · exact done _ _
    · exact removeRoute
    · refine bind syncNode fun y => ?_
      split
      · exact done _ _
      · exact askThen trivial fun _ => done _ _
  · exact done _ _

theorem deleteConflicting {doomed listed : List Route} :
    Guarded false (Reconcile.deleteConflicting doomed listed) false := by
  induction doomed generalizing listed with
  | nil => exact done _ _
  | cons r rest ih =>
    rw [Reconcile.deleteConflicting]
    refine bind delete fun x => ?_
    split
    · exact ih
    · exact askThen trivial fun _ => ih

theorem dropConflicts : Guarded false Reconcile.dropConflicts false := by
  unfold Reconcile.dropConflicts
  refine askThen trivial fun x => ?_
  split
  · exact done _ _
  · refine askThen trivial fun y => ?_
    split
    · exact done _ _
    · exact bind deleteConflicting fun _ => done _ _

theorem syncNodes {settings : Settings} {routes : List Route} {nodes : List Node} :
    Guarded false (Reconcile.syncNodes settings b routes nodes) false := by
  induction nodes with
  | nil => exact done _ _
  | cons n rest ih => exact bind (within _ syncNode) fun _ => ih

theorem syncRoutes {settings : Settings} :
    Guarded false (Reconcile.syncRoutes settings b) false := by
  refine bind (within _ dropConflicts) fun x => ?_
  split
  · exact done _ _
  · exact done _ _
  · exact bind syncNodes fun _ => done _ _

theorem reconcileAll {settings : Settings} :
    Guarded false (Reconcile.reconcileAll settings b) false := by
  unfold Reconcile.reconcileAll
  split
  · refine askThen trivial fun start => ?_
    exact bind syncRoutes fun _ => askThen trivial fun _ => done _ _
  · exact done _ _

end Guarded

/-! ### The crew -/

/-- An attempt on a name, up to a limit of milliseconds if there is one. -/
structure Errand where
  name : String
  limit : Option Nat := none

/-- The program of an attempt; `none` when it is cut off. -/
def Errand.program (settings : Settings) (b : Backoff) (e : Errand) :
    Control (Option (Outcome Unit)) :=
  match e.limit with
  | none => do return some (← Reconcile.reconcile settings b e.name)
  | some limit => Control.within limit (Reconcile.reconcile settings b e.name)

inductive Member where
  | pass
  | errand (k : Nat)
deriving DecidableEq

/-- A full pass and attempts on single names before any of them has begun. -/
def controllerCrew (settings : Settings) (b : Backoff) (errands : Nat → Errand) (w : World) :
    Crew Member (Option (Outcome Unit)) where
  world := w
  left
    | .pass => do return some (← Reconcile.reconcileAll settings b)
    | .errand k => (errands k).program settings b

theorem orderly_controllerCrew (settings : Settings) (b : Backoff) (errands : Nat → Errand)
    {w : World} (hw : w.Keyed) : (controllerCrew settings b errands w).Orderly := by
  refine ⟨fun i => ?_, hw⟩
  cases i with
  | pass => exact Guarded.reconcileAll.bind fun _ => Guarded.done _ _
  | errand k =>
    show Guarded false ((errands k).program settings b) false
    unfold Errand.program
    split
    · exact Guarded.reconcile.bind fun _ => Guarded.done _ _
    · exact Guarded.reconcile.within _

end PodRoutes
