import PodRoutes.Proofs.Node.Due
import PodRoutes.Proofs.World.Effect
import PodRoutes.Proofs.World.History

/-!
# The route of a removed node

The cache keeps the first route that was remembered for a name, until the name is forgotten or the
route's destination is evicted. It does not follow a node to another pod network, so what a removed
node loses is the route that was kept and not the one that was ensured last.
-/

namespace PodRoutes

open Control

/-! ### What a history leaves in the cache -/

namespace History

def keptAfter (name : String) (kept : Option Route) : Request → Option Route
  | .remember name' r => if name' = name then some (kept.getD r) else kept
  | .forget name' => if name' = name then none else kept
  | .evict destination => kept.filter fun r => r.destination ≠ destination
  | _ => kept

/-- The route kept for a name: the first one remembered since the name was last without one. -/
def kept (h : History) (name : String) : Option Route := h.foldl (keptAfter name) none

/-- The route that was remembered last for a name, which is the one ensured last. -/
def lastEnsured (h : History) (name : String) : Option Route :=
  h.foldl (fun last request =>
    match request with
    | .remember name' r => if name' = name then some r else last
    | _ => last) none

theorem kept_add (h : History) (r : Request) (name : String) :
    (h.add r).kept name = keptAfter name (h.kept name) r := by
  simp [kept, add, List.foldl_append]

end History

namespace World

theorem get?_cache_effect (w : World) (r : Request) (name : String) :
    (w.effect r).2.cache.get? name = History.keptAfter name (w.cache.get? name) r := by
  cases r with
  | remember name' route =>
    show (w.cache.insertNew name' route).get? name = _
    rw [Table.get?_insertNew, History.keptAfter]
    by_cases he : name' = name
    · rw [if_pos he, if_pos he, he]
    · rw [if_neg he, if_neg he]
  | forget name' => exact Table.get?_erase _ _ _
  | evict destination => exact Table.get?_filter _ _ _
  | _ => rfl

theorem get?_cache_reply {w : World} {h : History} {name : String}
    (hi : w.cache.get? name = h.kept name) (r : Request) :
    (w.reply r).2.cache.get? name = (h.add r).kept name := by
  rw [History.kept_add, ← hi, ← cache_begin w r (w.wait r)]
  exact get?_cache_effect _ r name

theorem cache_performAll (settings : Settings) (b : Backoff) {w : World}
    (hw : w.cache = Table.empty) (ops : List Operation) (name : String) :
    (Operation.performAll settings b w ops).1.cache.get? name =
      (Operation.performAll settings b w ops).2.kept name := by
  refine Operation.performAll_invariant (I := fun w h => w.cache.get? name = h.kept name)
    ?_ ?_ ?_ ?_ settings b ?_ ops
  · exact fun w h r hi => get?_cache_reply hi r
  · intro w h r deadline hi
    rw [cache_advanceTo]
    exact hi
  · exact fun w h nodes hi => hi
  · exact fun w h millis hi => hi
  · rw [hw]
    rfl

end World

/-! ### The removal -/

namespace World

theorem run_removeRoute_of_not_cached {w : World} {name : String}
    (hcache : w.cache.get? name = none) : w.run (Reconcile.removeRoute name) = (.ok (), w) := by
  have hcached : w.run (cachedRoute name) = (w.cache.get? name, w) := rfl
  simp only [Reconcile.removeRoute, run_bind, hcached, hcache]
  rfl

/-- The kept route is deleted with one call, whose error is the error of the removal. -/
theorem run_removeRoute_of_cached {w : World} {name : String} {r : Route}
    (hcache : w.cache.get? name = some r) :
    w.run (Reconcile.removeRoute name) =
      ((w.gateway.delete r.destination).1,
        { (w.reply (.deleteRoute r.destination)).2 with
          observed := w.observed ++ [.delete]
          cache := match (w.gateway.delete r.destination).1 with
            | .ok () => w.cache.erase name
            | .error _ => w.cache }) := by
  have hcached : w.run (cachedRoute name) = (w.cache.get? name, w) := rfl
  have hnow : w.run now = (w.clock, w) := rfl
  have hdelete : w.run (Protocol.delete r.destination) =
      ((w.gateway.delete r.destination).1, (w.reply (.deleteRoute r.destination)).2) := rfl
  simp only [Reconcile.removeRoute, run_bind, hcached, hcache, hnow, hdelete]
  cases (w.gateway.delete r.destination).1 with
  | error e => rfl
  | ok u => rfl

/-- A removal that succeeds deletes the kept route and no other, one that fails deletes nothing. -/
theorem removeRoute_cases (w : World) (name : String) :
    (w.run (Reconcile.removeRoute name)).1 = .ok () ∧
        (w.run (Reconcile.removeRoute name)).2.gateway.table =
          (match w.cache.get? name with
          | none => w.gateway.table
          | some r => w.gateway.table.erase r.destination) ∨
      (∃ e, (w.run (Reconcile.removeRoute name)).1 = .error e) ∧
        (w.run (Reconcile.removeRoute name)).2.gateway.table = w.gateway.table := by
  cases hcache : w.cache.get? name with
  | none =>
    rw [run_removeRoute_of_not_cached hcache]
    exact Or.inl ⟨rfl, rfl⟩
  | some r =>
    rw [run_removeRoute_of_cached hcache]
    rcases w.gateway.delete_cases r.destination with hfailed | hdeleted
    · exact Or.inr hfailed
    · exact Or.inl hdeleted

/-- The world after the look at the store. -/
def afterGet (w : World) (name : String) : World := (w.reply (.getNode name)).2

theorem run_reconcile {settings : Settings} (hc : settings.configureRoutes = true) (b : Backoff)
    (w : World) (name : String) :
    w.run (Reconcile.reconcile settings b name) =
      match (w.store.get name).1 with
      | .error e => (.error e, w.afterGet name)
      | .ok none => (w.afterGet name).run (Reconcile.removeRoute name)
      | .ok (some n) => (w.afterGet name).run (Reconcile.reconcileStored b n) := by
  have hlook : w.run (getNode name) = ((w.store.get name).1, w.afterGet name) := rfl
  simp only [Reconcile.reconcile, hc, if_true, run_bind, hlook]
  rcases (w.store.get name).1 with e | _ | n <;> rfl

theorem reconcile_of_gone_cases {settings : Settings} (hc : settings.configureRoutes = true)
    (b : Backoff) {w : World} {name : String} (hgone : w.store.nodes.get? name = none) :
    (w.run (Reconcile.reconcile settings b name)).1 = .ok () ∧
        (w.run (Reconcile.reconcile settings b name)).2.gateway.table =
          (match w.cache.get? name with
          | none => w.gateway.table
          | some r => w.gateway.table.erase r.destination) ∨
      (∃ e, (w.run (Reconcile.reconcile settings b name)).1 = .error e) ∧
        (w.run (Reconcile.reconcile settings b name)).2.gateway.table = w.gateway.table := by
  rw [run_reconcile hc]
  cases hget : (w.store.get name).1 with
  | error e => exact Or.inr ⟨⟨e, rfl⟩, rfl⟩
  | ok found =>
    obtain rfl : found = none := (NodeStore.get_eq_of_ok hget).trans hgone
    exact removeRoute_cases _ name

/-- A successful attempt on the name of a node that is gone deletes the kept route and no other. -/
theorem table_reconcile_of_gone {settings : Settings} (hc : settings.configureRoutes = true)
    (b : Backoff) {w : World} {name : String} (hgone : w.store.nodes.get? name = none)
    (hok : (w.run (Reconcile.reconcile settings b name)).1 = .ok ()) :
    (w.run (Reconcile.reconcile settings b name)).2.gateway.table =
      match w.cache.get? name with
      | none => w.gateway.table
      | some r => w.gateway.table.erase r.destination := by
  rcases reconcile_of_gone_cases hc b hgone with ⟨-, htable⟩ | ⟨⟨e, hfailed⟩, -⟩
  · exact htable
  · rw [hfailed] at hok
    cases hok

end World

theorem Operation.performAll_of_not_configured {settings : Settings}
    (hc : settings.configureRoutes = false) (b : Backoff) (w : World) (ops : List Operation) :
    (performAll settings b w ops).2 = [] := by
  suffices h : ∀ s : World × History, (ops.foldl (perform settings b) s).2 = s.2 from h (w, [])
  induction ops with
  | nil => exact fun s => rfl
  | cons op rest ih =>
    intro s
    rw [List.foldl_cons, ih]
    cases op with
    | reconcile name => rw [perform, Reconcile.reconcile, hc]; rfl
    | reconcileAll => rw [perform, Reconcile.reconcileAll, hc]; rfl
    | store n => rfl
    | remove name => rfl
    | wait millis => rfl

/-- After a node is removed and its name was reconciled, the route ensured for it last is gone
exactly if the cache had kept a route to the same destination, or the table held none. -/
theorem removed_node_loses_route_iff {settings : Settings} {b : Backoff} {w₀ w : World}
    {ops : List Operation} {h : History} {name : String} {r : Route}
    (hempty : w₀.cache = Table.empty)
    (hrun : Operation.performAll settings b w₀ ops = (w, h))
    (hlast : h.lastEnsured name = some r)
    (hok : ((w.removeNode name).run (Reconcile.reconcile settings b name)).1 = .ok ()) :
    ((w.removeNode name).run (Reconcile.reconcile settings b name)).2.gateway.table.get?
        r.destination = none ↔
      (h.kept name).map Route.destination = some r.destination ∨
        w.gateway.table.get? r.destination = none := by
  have hc : settings.configureRoutes = true := by
    cases hc : settings.configureRoutes with
    | true => rfl
    | false =>
      have := Operation.performAll_of_not_configured hc b w₀ ops
      rw [hrun] at this
      rw [show h = [] from this] at hlast
      cases hlast
  have hgone : (w.removeNode name).store.nodes.get? name = none := by
    show (w.store.nodes.erase name).get? name = none
    rw [Table.get?_erase, if_pos rfl]
  have hcache : (w.removeNode name).cache.get? name = h.kept name := by
    have := World.cache_performAll settings b hempty ops name
    rw [hrun] at this
    exact this
  rw [World.table_reconcile_of_gone hc b hgone hok, hcache]
  cases hkept : h.kept name with
  | none =>
    show w.gateway.table.get? r.destination = none ↔ _
    simp
  | some k =>
    show (w.gateway.table.erase k.destination).get? r.destination = none ↔ _
    rw [Table.get?_erase]
    by_cases he : k.destination = r.destination
    · simp [he]
    · simp [he]

def moveOperations : List Operation :=
  [.store (Node.plain "n1" "10.244.1.0/24" "i-1"), .reconcile "n1",
    .store (Node.plain "n1" "10.244.2.0/24" "i-1"), .reconcile "n1"]

/-- Before the move the node would take its route along. -/
theorem unmoved_node_loses_route :
    let w := (Operation.performAll {} .standard { epoch := ⟨0, 0⟩ } (moveOperations.take 2)).1
    ((w.removeNode "n1").run (Reconcile.reconcile {} .standard "n1")).2.gateway.table.get?
      "10.244.1.0/24" = none := by
  intro w
  have hlast : (Operation.performAll {} .standard { epoch := ⟨0, 0⟩ }
      (moveOperations.take 2)).2.lastEnsured "n1" =
        some (Route.named "route-1" "10.244.1.0/24" "i-1") := by decide +kernel
  have hok : ((w.removeNode "n1").run (Reconcile.reconcile {} .standard "n1")).1 = .ok () := by
    decide +kernel
  exact (removed_node_loses_route_iff rfl rfl hlast hok).2 (Or.inl (by decide +kernel))

/-- After the move it leaves behind the route that was ensured for it last, although its removal
succeeds and no other node is stored. -/
theorem moved_node_leaves_route :
    let s := Operation.performAll {} .standard { epoch := ⟨0, 0⟩ } moveOperations
    let after := (s.1.removeNode "n1").run (Reconcile.reconcile {} .standard "n1")
    (s.2.lastEnsured "n1").map Route.destination = some "10.244.2.0/24" ∧
      (s.1.removeNode "n1").store.nodes.values = [] ∧ after.1 = .ok () ∧
      after.2.gateway.table.get? "10.244.2.0/24" ≠ none := by
  decide +kernel

end PodRoutes
