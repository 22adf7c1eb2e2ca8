import Mathlib.Data.List.Induction
import PodRoutes.Proofs.Interleaving.NodeRequests
import PodRoutes.Proofs.Reconcile.Removal

/-!
# Live routes

A removed node is looked up in the cache alone: the route remembered for its name names the
destination that is deleted. Meanwhile the destination may have become that of another node. Its
live route goes exactly if the cache still remembers the destination for the removed name
(`reconcile_takes_live_route_iff`).
-/

namespace PodRoutes

open Control

/-! ### Reachable worlds -/

/-- Programs run one after another, with a record of their requests. In between anything may change
but the cache: nodes come and go, others change the route table, errors are queued, time passes. -/
inductive World.Reaches (w₀ : World) : World → History → Prop
  | start : Reaches w₀ w₀ []
  | run {α : Type} {w : World} {h : History} (before : Reaches w₀ w h) (p : Control α) :
    Reaches w₀ (p.run recorder (w, h)).2.1 (p.run recorder (w, h)).2.2
  | change {w : World} {h : History} (before : Reaches w₀ w h) (v : World)
    (same : v.cache = w.cache) : Reaches w₀ v h

theorem World.Reaches.get?_cache {w₀ w : World} {h : History} (hreach : w₀.Reaches w h)
    (hempty : w₀.cache = Table.empty) (name : String) : w.cache.get? name = h.kept name := by
  induction hreach with
  | start => rw [hempty]; rfl
  | run before p ih =>
    refine recorder_invariant (I := fun w h => w.cache.get? name = h.kept name)
      (fun w h r hi => get?_cache_reply hi r) ?_ p ih
    intro w h r deadline hi
    rw [cache_advanceTo]
    exact hi
  | change before v same ih => rw [same, ih]

/-! ### What the cache still remembers -/

namespace History

variable {h since : History} {name c : String} {k : Route}

/-- A route to the destination was remembered for the name, for which none was kept then, and since
then neither the name was forgotten nor the destination evicted. -/
def StillRemembers (h : History) (name c : String) : Prop :=
  ∃ (before : History) (k : Route) (since : History), h = before ++ .remember name k :: since ∧
    before.kept name = none ∧ k.destination = c ∧ ∀ r ∈ since, r ≠ .forget name ∧ r ≠ .evict c

theorem keptAfter_of_kept {r : Request} (hforget : r ≠ .forget name)
    (hevict : r ≠ .evict k.destination) : keptAfter name (some k) r = some k := by
  cases r with
  | remember name' q => simp [keptAfter]
  | forget name' =>
    have hne : name' ≠ name := fun he => hforget (by rw [he])
    simp [keptAfter, hne]
  | evict destination =>
    have hne : k.destination ≠ destination := fun he => hevict (by rw [he])
    simp [keptAfter, Option.filter, hne]
  | _ => rfl

theorem foldl_keptAfter (hsince : ∀ r ∈ since, r ≠ .forget name ∧ r ≠ .evict k.destination) :
    since.foldl (keptAfter name) (some k) = some k := by
  induction since with
  | nil => rfl
  | cons r rest ih =>
    obtain ⟨⟨hforget, hevict⟩, hrest⟩ := List.forall_mem_cons.1 hsince
    rw [List.foldl_cons, keptAfter_of_kept hforget hevict]
    exact ih hrest

theorem StillRemembers.add (hstill : h.StillRemembers name c) {r : Request}
    (hforget : r ≠ .forget name) (hevict : r ≠ .evict c) : (h.add r).StillRemembers name c := by
  obtain ⟨before, k, since, rfl, hnone, hk, hsince⟩ := hstill
  refine ⟨before, k, since ++ [r], by simp [History.add], hnone, hk, ?_⟩
  intro q hq
  rcases List.mem_append.1 hq with hq | hq
  · exact hsince q hq
  · rw [List.mem_singleton.1 hq]
    exact ⟨hforget, hevict⟩

theorem stillRemembers_add {r : Request} (hkept : (h.add r).kept name = some k)
    (ih : ∀ {k : Route}, h.kept name = some k → h.StillRemembers name k.destination) :
    (h.add r).StillRemembers name k.destination := by
  rw [kept_add] at hkept
  cases r with
  | remember name' q =>
    by_cases hname : name' = name
    · subst hname
      cases hbefore : h.kept name' with
      | none =>
        obtain rfl : q = k := by simpa [hbefore, keptAfter] using hkept
        exact ⟨h, q, [], rfl, hbefore, rfl, by simp⟩
      | some p =>
        obtain rfl : p = k := by simpa [hbefore, keptAfter] using hkept
        exact (ih hbefore).add (by simp) (by simp)
    · rw [keptAfter, if_neg hname] at hkept
      exact (ih hkept).add (by simp) (by simp)
  | forget name' =>
    by_cases hname : name' = name
    · rw [keptAfter, if_pos hname] at hkept
      cases hkept
    · rw [keptAfter, if_neg hname] at hkept
      exact (ih hkept).add (by simpa using hname) (by simp)
  | evict destination =>
    obtain ⟨hold, hother⟩ := Option.filter_eq_some_iff.1 hkept
    have hne : k.destination ≠ destination := by simpa using hother
    exact (ih hold).add (by simp) (by simpa using hne.symm)
  | _ => exact (ih hkept).add (by simp) (by simp)

theorem stillRemembers_of_kept (hkept : h.kept name = some k) :
    h.StillRemembers name k.destination := by
  induction h using List.reverseRecOn generalizing k with
  | nil => cases hkept
  | append_singleton h r ih => exact stillRemembers_add hkept ih

theorem stillRemembers_iff :
    h.StillRemembers name c ↔ (h.kept name).map Route.destination = some c := by
  constructor
  · rintro ⟨before, k, since, rfl, hnone, rfl, hsince⟩
    have hkept : History.kept (before ++ .remember name k :: since) name = some k := by
      rw [kept, List.foldl_append, List.foldl_cons]
      show since.foldl (keptAfter name) (keptAfter name (before.kept name) _) = some k
      rw [hnone, keptAfter, if_pos rfl]
      exact foldl_keptAfter hsince
    rw [hkept]
    rfl
  · intro hkept
    obtain ⟨k, hk, rfl⟩ := Option.map_eq_some_iff.1 hkept
    exact stillRemembers_of_kept hk

end History

/-! ### The removal -/

/-- The table has the route that a stored node is due. -/
structure World.LiveRoute (w : World) (n : Node) (c : String) (r : Route) : Prop where
  stored : n ∈ w.store.nodes.values
  due : n.dueRoute? = some (r.instanceId, c)
  entry : w.gateway.table.get? c = some r

/-- An attempt on a name that is not stored takes the live route of a stored node out of the table
exactly if it succeeds and the cache still remembers the destination for the name. -/
theorem reconcile_takes_live_route_iff {settings : Settings} {b : Backoff} {w₀ w : World}
    {h : History} {name : String} {n : Node} {c : String} {r : Route}
    (hempty : w₀.cache = Table.empty) (hreach : w₀.Reaches w h)
    (hgone : w.store.nodes.get? name = none) (hlive : w.LiveRoute n c r) :
    (w.run (Reconcile.reconcile settings b name)).2.gateway.table.get? c ≠ some r ↔
      settings.configureRoutes = true ∧
        (w.run (Reconcile.reconcile settings b name)).1 = .ok () ∧ h.StillRemembers name c := by
  cases hc : settings.configureRoutes with
  | false =>
    have hidle : w.run (Reconcile.reconcile settings b name) = (.ok (), w) := by
      rw [Reconcile.reconcile, hc]
      rfl
    simp [hidle, hlive.entry]
  | true =>
    rcases World.reconcile_of_gone_cases hc b hgone with ⟨hok, htable⟩ | ⟨⟨e, hfailed⟩, hsame⟩
    · rw [hok, htable, hreach.get?_cache hempty, History.stillRemembers_iff]
      cases hkept : h.kept name with
      | none => simp [hlive.entry]
      | some k =>
        show (w.gateway.table.erase k.destination).get? c ≠ some r ↔ _
        rw [Table.get?_erase]
        by_cases hk : k.destination = c
        · simp [hk]
        · simp [hk, hlive.entry]
    · simp [hfailed, hsame, hlive.entry]

/-! ### A removal that is tried again -/

def startingWorld : World where
  epoch := ⟨0, 0⟩
  store.nodes := Table.empty.insert "n1" (Node.plain "n1" "10.244.1.0/24" "i-1")

def routedRun : World × History :=
  ((Reconcile.reconcile {} .standard "n1").run World.recorder (startingWorld, [])).2

/-- The node is removed, and the gateway refuses to delete its route. -/
def removedWorld : World :=
  { routedRun.1.removeNode "n1" with gateway.failures.delete := [.gateway "503"] }

def refusedRun : World × History :=
  ((Reconcile.reconcile {} .standard "n1").run World.recorder (removedWorld, routedRun.2)).2

/-- The instance comes back under another name and keeps its pod network. -/
def renamedNode : Node := Node.plain "n1-new" "10.244.1.0/24" "i-1"

def renamedRun : World × History :=
  ((Reconcile.reconcile {} .standard "n1-new").run World.recorder
    (refusedRun.1.storeNode renamedNode, refusedRun.2)).2

/-- The node with its network condition. -/
def servedNode : Node := renamedNode.marked true (renamedRun.1.date)

def keptRoute : Route := Route.named "route-1" "10.244.1.0/24" "i-1"

theorem reaches_renamedRun : startingWorld.Reaches renamedRun.1 renamedRun.2 := by
  have hrouted : startingWorld.Reaches routedRun.1 routedRun.2 :=
    .run .start (Reconcile.reconcile {} .standard "n1")
  have hremoved : startingWorld.Reaches removedWorld routedRun.2 := .change hrouted removedWorld rfl
  have hrefused : startingWorld.Reaches refusedRun.1 refusedRun.2 :=
    .run hremoved (Reconcile.reconcile {} .standard "n1")
  have hsame : ∀ w : World, (w.storeNode renamedNode).cache = w.cache := fun _ => rfl
  have hrenamed : startingWorld.Reaches (refusedRun.1.storeNode renamedNode) refusedRun.2 :=
    .change hrefused (refusedRun.1.storeNode renamedNode) (hsame _)
  exact .run hrenamed (Reconcile.reconcile {} .standard "n1-new")

theorem liveRoute_servedNode :
    renamedRun.1.LiveRoute servedNode "10.244.1.0/24" keptRoute := by
  have hstored : renamedRun.1.store.nodes.get? "n1-new" = some servedNode := by decide +kernel
  exact ⟨Table.KeyedBy.mem_of_get? hstored, by decide +kernel, by decide +kernel⟩

theorem retry_takes_live_route :
    startingWorld.Reaches renamedRun.1 renamedRun.2 ∧
      renamedRun.1.store.nodes.get? "n1" = none ∧
      renamedRun.1.LiveRoute servedNode "10.244.1.0/24" keptRoute ∧
      (renamedRun.1.run (Reconcile.reconcile {} .standard "n1")).2.gateway.table.get?
        "10.244.1.0/24" = none :=
  ⟨reaches_renamedRun, by decide +kernel, liveRoute_servedNode, by decide +kernel⟩

/-- The retry under the old name takes the route, an attempt on a name that never had one does
not. -/
theorem renamed_node_loses_route :
    renamedRun.2.StillRemembers "n1" "10.244.1.0/24" ∧
      (renamedRun.1.run (Reconcile.reconcile {} .standard "n2")).2.gateway.table.get?
        "10.244.1.0/24" = some keptRoute := by
  have hretry : (renamedRun.1.run (Reconcile.reconcile {} .standard "n1")).2.gateway.table.get?
      "10.244.1.0/24" ≠ some keptRoute ↔ _ :=
    reconcile_takes_live_route_iff rfl reaches_renamedRun (by decide +kernel) liveRoute_servedNode
  have hother : (renamedRun.1.run (Reconcile.reconcile {} .standard "n2")).2.gateway.table.get?
      "10.244.1.0/24" ≠ some keptRoute ↔ _ :=
    reconcile_takes_live_route_iff rfl reaches_renamedRun (by decide +kernel) liveRoute_servedNode
  refine ⟨(hretry.1 (by decide +kernel)).2.2, Decidable.not_not.1 fun htaken => ?_⟩
  have hstill := History.stillRemembers_iff.1 (hother.1 htaken).2.2
  revert hstill
  decide +kernel

end PodRoutes
