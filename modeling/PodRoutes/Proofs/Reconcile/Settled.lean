import PodRoutes.Proofs.Calm.Routes
import PodRoutes.Proofs.Table.Keyed
import PodRoutes.Reconcile.Cluster

/-!
# Settled scenes

A scene is settled when no route conflicts with a node and every node has what it is due: its route,
an entry in the cache and a network condition that says so. A full pass over a settled scene asks
for no write and changes nothing.
-/

namespace PodRoutes

open Reconcile

def includedNodes (nodes : Table Node) : List Node := nodes.values.filter fun n => !n.isExcluded

theorem mem_includedNodes {nodes : Table Node} {n : Node} :
    n ∈ includedNodes nodes ↔ n ∈ nodes.values ∧ n.isExcluded = false := by
  simp [includedNodes]

namespace Scene

/-- A node that is not skipped has the route that it is due, is remembered for it and says so; or it
is due none and says that. -/
def Serves (s : Scene) (n : Node) : Prop :=
  n.skipReason? = none →
    match n.due? with
    | some (instanceId, network) =>
      (∃ r, s.table.get? network.text = some r ∧ r.instanceId = instanceId) ∧
        s.cache.contains n.name = true ∧ n.networkConditionIsCurrent true = true
    | none => n.networkConditionIsCurrent false = true

structure Keyed (s : Scene) : Prop where
  routes : s.table.KeyedBy Route.destination
  nodes : s.nodes.KeyedBy Node.name

structure Settled (s : Scene) : Prop where
  free : ∀ r ∈ s.table.values, conflictsWithAny (includedNodes s.nodes) r = false
  served : ∀ n ∈ includedNodes s.nodes, s.Serves n

end Scene

namespace Comes

variable {s : Scene} {b : Backoff} {n : Node}

theorem find_values {t : Scene} {destination : String} (ht : t.table.KeyedBy Route.destination)
    (hne : destination ≠ "") (h : s.table.get? destination = t.table.get? destination) :
    Comes (Protocol.find destination (some t.table.values)) s
      (.ok (t.table.get? destination)) s := by
  cases hv : t.table.values with
  | nil =>
    rw [← h]
    exact find_table hne rfl s
  | cons r rs =>
    have hfind : Route.find? (r :: rs) destination = t.table.get? destination := by
      rw [← hv]
      exact ht.find?_values destination
    rw [← hfind]
    exact find_atHand hne r rs s

theorem syncRoutes {settings : Settings} {t u : Scene} {nodes : List Node} {routes : List Route}
    (hdrop : Comes dropConflicts s (.ok (nodes, routes)) t)
    (hsync : Comes (syncNodes settings b routes nodes) t () u) :
    Comes (Reconcile.syncRoutes settings b) s (.ok ()) u :=
  (hdrop.within settings.timeout).bind (hsync.bind (done _ _))

theorem reconcileAll {settings : Settings} {t : Scene} (hc : settings.configureRoutes = true)
    (h : Comes (Reconcile.syncRoutes settings b) s (.ok ()) t) :
    Comes (Reconcile.reconcileAll settings b) s (.ok ()) t := by
  rw [Reconcile.reconcileAll, if_pos hc]
  refine ⟨rfl, ?_⟩
  exact h.bind ⟨rfl, done _ _⟩

/-! ### A pass without work -/

theorem remembering_of_contains {name : String} (h : s.cache.contains name = true) (r : Route) :
    s.remembering name r = s := by
  have hc : s.cache.insertNew name r = s.cache := by rw [Table.insertNew, h]; rfl
  rw [Scene.remembering, hc]

theorem marked_of_isCurrent {routeCreated : Bool}
    (h : n.networkConditionIsCurrent routeCreated = true) : s.marked n routeCreated = s := by
  rw [Scene.marked, if_pos h]

theorem syncNode_of_serves (hs : s.Keyed) (hn : s.nodes.get? n.name = some n) (h : s.Serves n) :
    ∃ x, Comes (syncNode b n (some s.table.values)) s x s := by
  cases hskip : n.skipReason? with
  | some reason => exact ⟨_, syncNode_of_skipped (by simp [hskip])⟩
  | none =>
    have h := h hskip
    cases hdue : n.due? with
    | none =>
      simp only [hdue] at h
      obtain ⟨x, hx⟩ := syncNode_of_not_due b (some s.table.values) hskip hdue hn
      rw [marked_of_isCurrent h] at hx
      exact ⟨x, hx⟩
    | some due =>
      obtain ⟨instanceId, network⟩ := due
      simp only [hdue] at h
      obtain ⟨⟨r, hr, ho⟩, hcache, hcurrent⟩ := h
      have hfind := find_values (s := s) hs.routes network.text_ne_empty rfl
      rw [hr] at hfind
      have hadd := addRoute_of_found (b := b) (Node.due?_eq_some.1 hdue).2.2 hfind
        (hs.routes _ _ hr) ho
      rw [remembering_of_contains hcache] at hadd
      have hsync := syncNode_of_addRoute hdue hadd hn
      rw [marked_of_isCurrent hcurrent] at hsync
      exact ⟨_, hsync⟩

theorem syncNodes_of_serves {settings : Settings} (hs : s.Keyed) {nodes : List Node}
    (hnodes : ∀ n ∈ nodes, s.nodes.get? n.name = some n ∧ s.Serves n) :
    Comes (syncNodes settings b s.table.values nodes) s () s := by
  induction nodes with
  | nil => exact done _ _
  | cons n rest ih =>
    rw [List.forall_mem_cons] at hnodes
    obtain ⟨⟨hn, hserves⟩, hrest⟩ := hnodes
    obtain ⟨x, hx⟩ := syncNode_of_serves (b := b) hs hn hserves
    exact (hx.within _).bind (ih hrest)

theorem dropConflicts_of_free
    (h : ∀ r ∈ s.table.values, conflictsWithAny (includedNodes s.nodes) r = false) :
    Comes dropConflicts s (.ok (includedNodes s.nodes, s.table.values)) s := by
  have hnone : s.table.values.filter (conflictsWithAny (includedNodes s.nodes)) = [] :=
    List.filter_eq_nil_iff.2 fun r hr => by simp [h r hr]
  refine ⟨rfl, rfl, ?_⟩
  show Comes (deleteConflicting (s.table.values.filter
    (conflictsWithAny (includedNodes s.nodes))) s.table.values >>= _) _ _ _
  rw [hnone]
  exact done _ _

theorem reconcileAll_of_settled {settings : Settings} (hc : settings.configureRoutes = true)
    (b : Backoff) (hs : s.Keyed) (h : s.Settled) :
    Comes (Reconcile.reconcileAll settings b) s (.ok ()) s := by
  have hnodes : ∀ n ∈ includedNodes s.nodes, s.nodes.get? n.name = some n ∧ s.Serves n := by
    intro n hn
    exact ⟨hs.nodes.get?_of_mem (mem_includedNodes.1 hn).1, h.served n hn⟩
  exact reconcileAll hc (syncRoutes (dropConflicts_of_free h.free) (syncNodes_of_serves hs hnodes))

end Comes

end PodRoutes
