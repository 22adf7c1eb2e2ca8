import PodRoutes.Proofs.Reconcile.Removal

/-!
# How an attempt on one node fails

Of all the calls of an attempt, two can make it fail: the look at the store, and the delete for a
node that is gone. Both come before anything is changed, so an attempt that fails leaves everything
as it was and can be made again. What goes wrong for a stored node never makes it fail
(`World.reconcile_fails_untouched`).
-/

namespace PodRoutes

open Control

/-- How an attempt on a name ends, and what it leaves. -/
structure AttemptReport (w : World) (name : String) (after : Outcome Unit × World) : Prop where
  error_iff : ∀ e, after.1 = .error e ↔
    (w.store.get name).1 = .error e ∨
      (w.store.get name).1 = .ok none ∧
        ∃ r, w.cache.get? name = some r ∧ (w.gateway.delete r.destination).1 = .error e
  untouched : ∀ e, after.1 = .error e →
    after.2.gateway.table = w.gateway.table ∧ after.2.cache = w.cache ∧
      after.2.store.nodes = w.store.nodes ∧ after.2.events = w.events
  stored : ∀ n, (w.store.get name).1 = .ok (some n) → after.1 = .ok ()
  /-- After a failed look at the store the gateway is not called. -/
  unseen : ∀ e, (w.store.get name).1 = .error e → after.2.gatewayCalls = w.gatewayCalls
  /-- For a node that is gone, the cached route is deleted with one call. -/
  removed : (w.store.get name).1 = .ok none → ∀ r, w.cache.get? name = some r →
    (∃ time, after.2.gatewayCalls = w.gatewayCalls ++ [(time, .delete r.destination)]) ∧
      (after.1 = .ok () → after.2.cache = w.cache.erase name)
  /-- Without a cached route the gateway is not called. -/
  unknown : (w.store.get name).1 = .ok none → w.cache.get? name = none →
    after.1 = .ok () ∧ after.2.gatewayCalls = w.gatewayCalls

namespace World

variable {settings : Settings}

/-- Whatever fails on the way, the attempt on a stored node succeeds. -/
theorem run_reconcileStored_ok (w : World) (b : Backoff) (n : Node) :
    (w.run (Reconcile.reconcileStored b n)).1 = .ok () := by
  rw [Reconcile.reconcileStored, run_bind]
  cases (w.run (Reconcile.syncNode b n none)).1 with
  | error e => rfl
  | ok u => rfl

/-! ### Every attempt -/

/-- An attempt fails exactly if the look at the store fails or the delete for a node that is gone,
and one that fails has changed nothing. -/
theorem reconcile_fails_untouched (hc : settings.configureRoutes = true) (b : Backoff) (w : World)
    (name : String) : AttemptReport w name (w.run (Reconcile.reconcile settings b name)) := by
  have hnodes : (w.afterGet name).store.nodes = w.store.nodes := w.store.nodes_get name
  rw [run_reconcile hc]
  rcases hget : (w.store.get name).1 with e | _ | n
  · constructor
    case error_iff => simp [hget]
    case untouched => exact fun _ _ => ⟨rfl, rfl, hnodes, rfl⟩
    case unseen => exact fun _ _ => rfl
    case stored | removed | unknown => simp [hget]
  · have hsame : (w.afterGet name).cache.get? name = w.cache.get? name := rfl
    cases hcache : w.cache.get? name with
    | none =>
      rw [run_removeRoute_of_not_cached (hsame.trans hcache)]
      constructor
      case error_iff => simp [hget, hcache]
      case untouched => exact fun _ _ => ⟨rfl, rfl, hnodes, rfl⟩
      case unknown => exact fun _ _ => ⟨rfl, rfl⟩
      case stored | unseen => simp [hget]
      case removed => simp [hcache]
    | some r =>
      rw [run_removeRoute_of_cached (hsame.trans hcache)]
      have hgateway : (w.afterGet name).gateway = w.gateway := rfl
      rw [hgateway]
      constructor
      case error_iff => simp [hget, hcache]
      case untouched =>
        intro e he
        have he : (w.gateway.delete r.destination).1 = .error e := he
        refine ⟨MemoryGateway.table_of_delete_error he, ?_, hnodes, rfl⟩
        simp only [he]
        rfl
      case removed =>
        intro _ r' hr'
        cases hcache.symm.trans hr'
        refine ⟨⟨_, rfl⟩, fun hok => ?_⟩
        have hok : (w.gateway.delete r.destination).1 = .ok () := hok
        simp only [hok]
        rfl
      case stored | unseen => simp [hget]
      case unknown => simp [hcache]
  · have hok := run_reconcileStored_ok (w.afterGet name) b n
    constructor
    case error_iff => simp [hget, hok]
    case untouched => simp [hok]
    case stored => exact fun _ _ => hok
    case unseen | removed | unknown => simp [hget]

end World

/-! ### A delete that is refused -/

def strandedRoute : Route := Route.named "r-1" "10.244.1.0/24" "i-1"

/-- The node is gone, its route is cached, and the next delete fails. -/
def refusingWorld : World where
  epoch := ⟨0, 0⟩
  gateway := { MemoryGateway.ofRoutes [strandedRoute] with
    failures := { delete := [.gateway "503"] } }
  cache := Table.empty.insert "n1" strandedRoute

theorem refused_delete_leaves_route :
    (refusingWorld.run (Reconcile.reconcile {} .standard "n1")).1 = .error (.gateway "503") ∧
      (refusingWorld.run (Reconcile.reconcile {} .standard "n1")).2.gateway.table.get?
          "10.244.1.0/24" = some strandedRoute ∧
      (refusingWorld.run (Reconcile.reconcile {} .standard "n1")).2.cache.get? "n1" =
        some strandedRoute := by
  have hreport : AttemptReport refusingWorld "n1"
      (refusingWorld.run (Reconcile.reconcile {} .standard "n1")) :=
    World.reconcile_fails_untouched rfl .standard refusingWorld "n1"
  have herror := (hreport.error_iff (.gateway "503")).2 (Or.inr ⟨rfl, strandedRoute, rfl, rfl⟩)
  obtain ⟨htable, hcache, -, -⟩ := hreport.untouched _ herror
  refine ⟨herror, ?_, ?_⟩
  · rw [htable]
    rfl
  · rw [hcache]
    rfl

end PodRoutes
