import PodRoutes.Proofs.Interleaving.Engine
import PodRoutes.Proofs.Interleaving.NodeRequests
import PodRoutes.Proofs.Interleaving.Play
import PodRoutes.Proofs.Interleaving.Seen
import PodRoutes.Proofs.Reconcile.Conflict

/-!
# What the full pass deletes

The pass decides on its own listings and deletes later, by destination. What a delete removes may
therefore be another route than the listed one: one that an attempt created meanwhile for a node
that owns the destination.
-/

namespace PodRoutes

open Control

/-! ### The listings of a pass -/

structure HasListed (stored : List Node) (listed : List Route) (t : List Answer) : Prop where
  nodes : t.findSome? Answer.shown? = some (stored.filter fun n => !n.isExcluded)
  routes : t.findSome? Answer.routes? = some listed
  noCreate : ∀ a ∈ t, ∀ i c, a.request ≠ .createRoute i c

theorem HasListed.snoc {stored : List Node} {listed : List Route} {t : List Answer}
    (h : HasListed stored listed t) {a : Answer} (ha : ∀ i c, a.request ≠ .createRoute i c) :
    HasListed stored listed (t ++ [a]) := by
  refine ⟨?_, ?_, ?_⟩
  · simp [List.findSome?_append, h.nodes]
  · simp [List.findSome?_append, h.routes]
  · exact Answer.forall_mem_snoc h.noCreate ha

/-- A delete comes before any create and is for a listed route that conflicts with a listed node. -/
def DeletesConflicts (t : List Answer) (r : Request) : Prop :=
  ∀ c, r = .deleteRoute c → (∀ a ∈ t, ∀ i c, a.request ≠ .createRoute i c) ∧
    ∃ q ∈ listedRoutes t, q.destination = c ∧
      Reconcile.conflictsWithAny (seenNodes t) q = true

theorem deletesConflicts_of_ne {t : List Answer} {r : Request} (h : ∀ c, r ≠ .deleteRoute c) :
    DeletesConflicts t r := fun c hc => absurd hc (h c)

theorem HasListed.deletesConflicts {stored : List Node} {listed : List Route} {t : List Answer}
    (h : HasListed stored listed t) {q : Route} (hq : q ∈ listed)
    (hconflict : Reconcile.conflictsWithAny (stored.filter fun n => !n.isExcluded) q = true) :
    DeletesConflicts t (.deleteRoute q.destination) := by
  rintro c hc
  cases hc
  refine ⟨h.noCreate, q, ?_, rfl, ?_⟩
  · rw [listedRoutes, h.routes]
    exact hq
  · rw [seenNodes, h.nodes]
    exact hconflict

section Contract

variable {I : Answer → Prop} {b : Backoff} {settings : Settings} {t : List Answer}

theorem deletesConflicts_deleteConflicting {stored : List Node} {listed : List Route}
    (ht : HasListed stored listed t) {doomed : List Route}
    (hdoomed : ∀ q ∈ doomed, q ∈ listed ∧
      Reconcile.conflictsWithAny (stored.filter fun n => !n.isExcluded) q = true)
    (left : List Route) :
    Obeys I DeletesConflicts (fun _ _ => True) (Reconcile.deleteConflicting doomed left) t := by
  induction doomed generalizing t left with
  | nil => exact trivial
  | cons q rest ih =>
    rw [List.forall_mem_cons] at hdoomed
    obtain ⟨⟨hq, hconflict⟩, hrest⟩ := hdoomed
    rw [Reconcile.deleteConflicting]
    refine ⟨deletesConflicts_of_ne (by simp), fun x₁ v₁ w₁ _ => ?_⟩
    have ht := ht.snoc (a := ⟨.lock, some x₁, v₁, w₁⟩) (by simp)
    refine ⟨ht.deletesConflicts hq hconflict, fun x₂ v₂ w₂ _ => ?_⟩
    have ht := ht.snoc (a := ⟨.deleteRoute q.destination, some x₂, v₂, w₂⟩) (by simp)
    refine ⟨deletesConflicts_of_ne (by simp), fun x₃ v₃ w₃ _ => ?_⟩
    have ht := ht.snoc (a := ⟨.unlock, some x₃, v₃, w₃⟩) (by simp)
    cases x₂ with
    | error e => exact ih ht hrest _
    | ok u =>
      refine ⟨deletesConflicts_of_ne (by simp), fun x₄ v₄ w₄ _ => ?_⟩
      exact ih (ht.snoc (a := ⟨.evict q.destination, some x₄, v₄, w₄⟩) (by simp)) hrest _

theorem deletesConflicts_dropConflicts
    (hnodes : ∀ a ∈ t, a.shown? = none) (hroutes : ∀ a ∈ t, a.routes? = none)
    (hcreate : ∀ a ∈ t, ∀ i c, a.request ≠ .createRoute i c) :
    Obeys I DeletesConflicts (fun _ _ => True) Reconcile.dropConflicts t := by
  refine ⟨deletesConflicts_of_ne (by simp), fun x₁ v₁ w₁ _ => ?_⟩
  cases x₁ with
  | error e => exact trivial
  | ok stored =>
    refine ⟨deletesConflicts_of_ne (by simp), fun x₂ v₂ w₂ _ => ?_⟩
    cases x₂ with
    | error e => exact trivial
    | ok listed =>
      have ht : HasListed stored listed (t ++ [⟨.listNodes, some (.ok stored), v₁, w₁⟩] ++
          [⟨.listRoutes, some (.ok listed), v₂, w₂⟩]) := by
        refine ⟨?_, ?_, ?_⟩
        · rw [List.append_assoc, List.findSome?_append, List.findSome?_eq_none_iff.2 hnodes]
          rfl
        · rw [List.append_assoc, List.findSome?_append, List.findSome?_eq_none_iff.2 hroutes]
          rfl
        · intro a ha
          simp only [List.append_assoc, List.mem_append, List.mem_singleton] at ha
          rcases ha with ha | rfl | rfl
          · exact hcreate a ha
          · simp
          · simp
      have hdoomed : ∀ q ∈ listed.filter (Reconcile.conflictsWithAny
          (stored.filter fun n => !n.isExcluded)), q ∈ listed ∧
            Reconcile.conflictsWithAny (stored.filter fun n => !n.isExcluded) q = true :=
        fun q hq => List.mem_filter.1 hq
      have hdelete := deletesConflicts_deleteConflicting (I := I) ht hdoomed listed
      show Obeys I DeletesConflicts (fun _ _ => True)
        (Reconcile.deleteConflicting _ listed >>= _) _
      exact Obeys.bindThen hdelete fun _ _ _ => trivial

theorem deletesConflicts_syncNodes {routes : List Route} {nodes : List Node} :
    Obeys I DeletesConflicts (fun _ _ => True) (Reconcile.syncNodes settings b routes nodes) t := by
  have honly : Only (fun r => ∀ c, r ≠ .deleteRoute c)
      (Reconcile.syncNodes settings b routes nodes) := by
    induction nodes with
    | nil => exact Only.done _
    | cons n rest ih =>
      refine Only.bind ((Only.syncNode.mono ?_).within (by simp) (by simp) _) fun _ => ih
      rintro r hr c rfl
      exact hr
  exact (Obeys.of_only honly fun _ _ _ hr => deletesConflicts_of_ne hr).weaken
    fun _ _ _ => trivial

theorem deletesConflicts_syncRoutes (hnodes : ∀ a ∈ t, a.shown? = none)
    (hroutes : ∀ a ∈ t, a.routes? = none)
    (hcreate : ∀ a ∈ t, ∀ i c, a.request ≠ .createRoute i c) :
    Obeys I DeletesConflicts (fun _ _ => True) (Reconcile.syncRoutes settings b) t := by
  have hdrop : ∀ x v w, Obeys I DeletesConflicts (fun _ _ => True) Reconcile.dropConflicts
      (t ++ [⟨.now, some x, v, w⟩]) := by
    intro x v w
    apply deletesConflicts_dropConflicts
    · exact Answer.forall_mem_snoc hnodes rfl
    · exact Answer.forall_mem_snoc hroutes rfl
    · exact Answer.forall_mem_snoc hcreate (by simp)
  have hwithin := Obeys.within_of_any (deletesConflicts_of_ne (by simp)) hdrop
    (fun _ => deletesConflicts_of_ne (by simp)) settings.timeout
  refine Obeys.bindThen hwithin fun t o _ => ?_
  rcases o with _ | (e | ⟨nodes, routes⟩)
  · exact trivial
  · exact trivial
  · exact Obeys.bindThen deletesConflicts_syncNodes fun _ _ _ => trivial

theorem deletesConflicts_reconcileAll :
    Obeys I DeletesConflicts (fun _ _ => True) (Reconcile.reconcileAll settings b) [] := by
  rw [Reconcile.reconcileAll]
  split
  · refine Obeys.askThen (deletesConflicts_of_ne (by simp)) fun x v w _ => ?_
    refine Obeys.bindThen (deletesConflicts_syncRoutes ?_ ?_ ?_) fun t result _ => ?_
    · simp [Answer.shown?]
    · simp [Answer.routes?]
    · simp
    · exact ⟨deletesConflicts_of_ne (by simp), fun _ _ _ _ => trivial⟩
  · exact trivial

end Contract

/-! ### Routes that appear in a run -/

namespace Crew

variable {ι α : Type} [DecidableEq ι] {c d : Crew ι α} {h : List (Moment ι)}

theorem Run.created (hr : Run c h d) {destination : String} {r : Route}
    (hafter : d.world.gateway.table.get? destination = some r)
    (hbefore : c.world.gateway.table.get? destination ≠ some r) :
    ∃ i a, .act i a ∈ h ∧ a.request = .createRoute r.instanceId destination ∧
      a.after.gateway.table.get? destination = some r := by
  induction hr with
  | nil => exact absurd hafter hbefore
  | @snoc d e h m run step ih =>
    by_cases hd : d.world.gateway.table.get? destination = some r
    · obtain ⟨i, a, ha, hrest⟩ := ih hd
      exact ⟨i, a, List.mem_append_left _ ha, hrest⟩
    · rw [← step.before_eq] at hd
      rw [← step.after_eq] at hafter
      cases m with
      | act i a => exact ⟨i, a, by simp, step.honest.created hafter hd, hafter⟩
      | drift v w =>
        have hgateway : w.gateway = v.gateway := step.drifts.gateway
        have hafter : w.gateway.table.get? destination = some r := hafter
        rw [hgateway] at hafter
        exact absurd hafter hd

end Crew

/-! ### What a delete of the pass removes -/

/-- An attempt created the route after the pass had listed the routes. -/
def CreatedSinceListing (h : List (Moment Member)) (r : Route) : Prop :=
  ∃ before listing after, h = before ++ .act .pass listing :: after ∧
    (∃ routes, listing.routes? = some routes) ∧
    ∃ k a, .act (.errand k) a ∈ after ∧ a.request = .createRoute r.instanceId r.destination ∧
      a.after.gateway.table.get? r.destination = some r

open Crew in
/-- A delete of the pass removes a route that conflicts with none of the nodes listed by the pass
exactly if an attempt created that route after the pass had listed the routes, and did so for a
listed node that alone lays claim to the destination. -/
theorem pass_delete_spares_nodes_iff {settings : Settings} {b : Backoff} {errands : Nat → Errand}
    {w : World} {h : List (Moment Member)} {d : Crew Member (Option (Outcome Unit))} {a : Answer}
    {r : Route} (hw : w.Keyed)
    (hrun : Run (controllerCrew settings b errands w) (h ++ [.act .pass a]) d)
    (hdelete : a.request = .deleteRoute r.destination)
    (hremoved : a.before.gateway.table.get? r.destination = some r) :
    Reconcile.conflictsWithAny (seenNodes (own .pass h)) r = false ↔
      CreatedSinceListing h r ∧
        Owned (seenNodes (own .pass h)) r.destination r.instanceId ∧
        Undisputed (seenNodes (own .pass h)) r.destination r.instanceId := by
  have horderly := orderly_controllerCrew settings b errands hw
  have hcontract : Obeys (fun _ => True) DeletesConflicts (fun _ _ => True)
      ((controllerCrew settings b errands w).left .pass) [] :=
    Obeys.bindThen deletesConflicts_reconcileAll fun _ _ _ => trivial
  obtain ⟨hcreate, q, hq, hqd, hconflict⟩ :=
    hrun.asks horderly rfl (fun _ _ => trivial) hcontract _ hdelete
  constructor
  · intro hspared
    refine ⟨?_, owned_of_other_conflicts hconflict hspared hqd,
      conflictsWithAny_eq_false_iff.1 hspared⟩
    obtain ⟨e, hrun, hstep⟩ := hrun.snoc_inv
    obtain ⟨l, hl, routes, hroutes, hmem⟩ := exists_listing_of_mem hq
    obtain ⟨before, after, rfl⟩ := List.append_of_mem (mem_own.1 hl)
    obtain ⟨c₁, c₂, hrun₁, hlist, hrun₂⟩ := hrun.split_at
    refine ⟨before, l, after, rfl, ⟨routes, hroutes⟩, ?_⟩
    -- the listing showed another route to the destination, so this one came later
    have hkeyed : l.before.gateway.table.KeyedBy Route.destination := by
      have := (hrun₁.orderly horderly).keyed.routes
      rwa [← hlist.before_eq] at this
    rw [hlist.honest.routes_eq hroutes, hkeyed.mem_values_iff, hqd] at hmem
    have hother : c₂.world.gateway.table.get? r.destination ≠ some r := by
      rw [← hlist.after_eq]
      show l.after.gateway.table.get? r.destination ≠ some r
      rw [hlist.honest.table (Answer.isWrite_of_routes? hroutes)]
      intro hsame
      have hqr : q = r := Option.some.inj (hmem.symm.trans hsame)
      rw [hqr, hspared] at hconflict
      cases hconflict
    have hnow : e.world.gateway.table.get? r.destination = some r := by
      rw [← hstep.before_eq]
      exact hremoved
    obtain ⟨i, a', ha', hrequest, hmade⟩ := hrun₂.created hnow hother
    cases i with
    | pass => exact absurd hrequest (hcreate a' (mem_own.2 (by simp [ha'])) _ _)
    | errand k => exact ⟨k, a', ha', hrequest, hmade⟩
  · intro hcreated
    exact conflictsWithAny_eq_false_iff.2 hcreated.2.2

/-! ### A destination that changes hands during a pass -/

def takenWorld : World where
  epoch := ⟨0, 0⟩
  gateway := MemoryGateway.ofRoutes [Route.named "r-old" "10.244.1.0/24" "i-old"]
  cache := Table.empty.insert "old" (Route.named "r-old" "10.244.1.0/24" "i-old")
  store := NodeStore.add {} (Node.plain "new" "10.244.1.0/24" "i-new")

/-- A pass, an attempt on the node that is gone, and attempts on the stored one. -/
def handover : Crew Member (Option (Outcome Unit)) :=
  controllerCrew {} .standard
    (fun
      | 0 => { name := "old" }
      | _ => { name := "new" }) takenWorld

/-- The pass lists, both attempts run to their ends, and the pass is about to delete. -/
def handoverTurns : List (Turn Member) :=
  List.replicate 4 (.act .pass) ++ List.replicate 9 (.act (.errand 0)) ++
    List.replicate 11 (.act (.errand 1)) ++ List.replicate 2 (.act .pass)

def newRoute : Route := Route.named "route-1" "10.244.1.0/24" "i-new"

open Crew in
theorem new_route_created_since_listing :
    CreatedSinceListing (handover.play handoverTurns).1 newRoute := by
  have hkeyed : takenWorld.Keyed := ⟨by decide +kernel, by decide +kernel⟩
  have hask : ((handover.play handoverTurns).2.asked? .pass).bind Request.deleted? =
      some newRoute.destination := by decide +kernel
  have hremoved : (handover.play handoverTurns).2.world.gateway.table.get? newRoute.destination =
      some newRoute := by decide +kernel
  obtain ⟨d, hrun⟩ := (Run.play handover handoverTurns).snoc_delete hask
  exact ((pass_delete_spares_nodes_iff hkeyed hrun rfl hremoved).1 (by decide +kernel)).1

open Crew in
/-- The pass takes away a route that is in conflict with no node that it listed. -/
theorem pass_deletes_new_route :
    ∃ h a d r, Run handover (h ++ [.act .pass a]) d ∧
      a.request = .deleteRoute r.destination ∧
      a.before.gateway.table.get? r.destination = some r ∧
      a.after.gateway.table.get? r.destination = none ∧
      Reconcile.conflictsWithAny (seenNodes (own .pass h)) r = false := by
  have hask : ((handover.play handoverTurns).2.asked? .pass).bind Request.deleted? =
      some newRoute.destination := by decide +kernel
  obtain ⟨d, hrun⟩ := (Run.play handover handoverTurns).snoc_delete hask
  refine ⟨_, _, d, newRoute, hrun, rfl, ?_, ?_, ?_⟩
  · show (handover.play handoverTurns).2.world.gateway.table.get? newRoute.destination = _
    decide +kernel
  · show ((handover.play handoverTurns).2.world.effect
      (.deleteRoute newRoute.destination)).2.gateway.table.get? newRoute.destination = none
    decide +kernel
  · decide +kernel

end PodRoutes
