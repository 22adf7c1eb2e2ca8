import PodRoutes.Proofs.Interleaving.Play
import PodRoutes.Proofs.Interleaving.Unhindered

/-!
# A node that is removed before its turn

A program goes on with the nodes that it has seen and does not look at them again. If a node is
removed after that, and its name is reconciled, the program still creates and remembers its route
later, exactly as long as the node was pending for it.
-/

namespace PodRoutes

open Control

/-! ### Runs without failures -/

theorem Answer.Honest.faultless {a : Answer} (h : a.Honest) (hf : a.before.Faultless) :
    a.after.Faultless := by
  rcases h.after_eq with hafter | hafter
  · rw [hafter]
    exact hf
  · rw [hafter]
    exact hf.effect a.request

theorem World.Drifts.keeps_faultless {v w : World} (h : v.Drifts w) (hf : v.Faultless) :
    w.Faultless := by
  obtain ⟨hfailures, hrefused, hstore⟩ := hf
  refine ⟨?_, ?_, ?_⟩
  · rw [h.gateway]
    exact hfailures
  · rw [h.gateway]
    exact hrefused
  · rw [h.failures]
    exact hstore

namespace Crew

variable {ι α : Type} [DecidableEq ι] {c d : Crew ι α} {h : List (Moment ι)} {m : Moment ι}

theorem Step.faultless (hs : Step c m d) (hc : c.world.Faultless) : d.world.Faultless := by
  rw [← hs.before_eq] at hc
  rw [← hs.after_eq]
  cases m with
  | act i a => exact hs.honest.faultless hc
  | drift v w => exact hs.drifts.keeps_faultless hc

theorem Run.before_faultless (hr : Run c h d) (hc : c.world.Faultless) (hm : m ∈ h) :
    m.before.Faultless := by
  obtain ⟨u, v, rfl⟩ := List.append_of_mem hm
  obtain ⟨e, e', hu, hstep, -⟩ := hr.split_at
  rw [hstep.before_eq]
  exact hu.invariant (I := fun c => c.world.Faultless) (fun _ _ _ hi hs => hs.faultless hi) hc

theorem Run.before_keyed (hr : Run c h d) (hc : c.Orderly) (hm : m ∈ h) : m.before.Keyed := by
  obtain ⟨u, v, rfl⟩ := List.append_of_mem hm
  obtain ⟨e, e', hu, hstep, -⟩ := hr.split_at
  rw [hstep.before_eq]
  exact (hu.orderly hc).keyed

theorem Run.honest {i : ι} {a : Answer} (hr : Run c h d) (ha : a ∈ own i h) : a.Honest := by
  obtain ⟨u, v, rfl⟩ := List.append_of_mem (mem_own.1 ha)
  obtain ⟨e, e', -, hstep, -⟩ := hr.split_at
  exact hstep.honest

end Crew

/-! ### Bringing a node back -/

/-- A program comes to its end with all its answers in time, and where a node of the name is due a
route it meets no other instance. -/
structure ComesThrough (i : Member) (name : String) (h : List (Moment Member))
    (d : Crew Member (Option (Outcome Unit))) : Prop where
  done : ∃ result, d.left i = .done result
  inTime : ∀ a ∈ own i h, a.reply.isSome = true
  unclaimed : ∀ n ∈ seenNodes (own i h), n.name = name →
    ∀ dueTo ∈ n.dueRoute?, ∀ a ∈ own i h, a.request.looksAt dueTo.2 = true →
      ∀ r ∈ a.before.gateway.table.get? dueTo.2, r.instanceId = dueTo.1

open Crew

variable {settings : Settings} {b : Backoff} {errands : Nat → Errand} {w : World}
  {h₁ h₂ : List (Moment Member)} {c₁ c₂ : Crew Member (Option (Outcome Unit))} {i : Member}
  {name : String}

theorem seen_before_removal {n : Node} (hw : w.Keyed)
    (hrun₁ : Run (controllerCrew settings b errands w) h₁ c₁) (hrun₂ : Run c₁ h₂ c₂)
    (hgone : ∀ m ∈ h₂, m.before.store.nodes.get? n.name = none)
    (hn : n ∈ seenNodes (own i h₁ ++ own i h₂)) : n ∈ seenNodes (own i h₁) := by
  have horderly := hrun₁.orderly (orderly_controllerCrew settings b errands hw)
  rcases mem_seenNodes_append_inv hn with hn | ⟨a, ha, nodes, hshown, hmem⟩
  · exact hn
  · have hkeyed : a.before.Keyed := hrun₂.before_keyed horderly (mem_own.1 ha)
    have hstored := (hrun₂.honest ha).shown_stored hkeyed hshown hmem
    have hnone : a.before.store.nodes.get? n.name = none := hgone _ (mem_own.1 ha)
    rw [hnone] at hstored
    cases hstored

theorem servesPending_later {a : Answer} (hw : w.Keyed)
    (hrun₁ : Run (controllerCrew settings b errands w) h₁ c₁) (hrun₂ : Run c₁ h₂ c₂)
    (ha : a ∈ own i h₂) :
    ∃ u e, Run c₁ u e ∧ (∃ v, h₂ = u ++ v) ∧
      ServesPending (own i h₁ ++ own i u) a.request := by
  have horderly := orderly_controllerCrew settings b errands hw
  obtain ⟨u, v, rfl⟩ := List.append_of_mem (mem_own.1 ha)
  obtain ⟨e, e', hu, hstep, -⟩ := hrun₂.split_at
  have hkeyed : ∀ a ∈ own i (h₁ ++ u), a.before.Keyed :=
    fun a ha => (hrun₁.append hu).before_keyed horderly (mem_own.1 ha)
  have hserves := ((hrun₁.append hu).snoc hstep).asks horderly rfl hkeyed
    (servesPending_member (fun _ h => h) errands w i)
  rw [own_append] at hserves
  exact ⟨u, e, hu, ⟨_, rfl⟩, hserves⟩

theorem pending_of_later {u v : List (Moment Member)} {e : Crew Member (Option (Outcome Unit))}
    {n : Node} (hw : w.Keyed) (hrun₁ : Run (controllerCrew settings b errands w) h₁ c₁)
    (hu : Run c₁ u e) (hgone : ∀ m ∈ u ++ v, m.before.store.nodes.get? n.name = none)
    (hn : Pending (own i h₁ ++ own i u) n) : Pending (own i h₁) n :=
  hn.of_append (seen_before_removal hw hrun₁ hu (fun m hm => hgone m (List.mem_append_left v hm))
    hn.seen)

theorem pending_of_created {a : Answer} {dueTo : String × String} (hw : w.Keyed)
    (hrun₁ : Run (controllerCrew settings b errands w) h₁ c₁) (hrun₂ : Run c₁ h₂ c₂)
    (hgone : ∀ m ∈ h₂, m.before.store.nodes.get? name = none) (ha : a ∈ own i h₂)
    (hcreated : a.request.created? = some dueTo) :
    ∃ n ∈ seenNodes (own i (h₁ ++ h₂)), n.dueRoute? = some dueTo ∧
      (n.name = name → Pending (own i h₁) n) := by
  obtain ⟨u, e, hu, ⟨v, rfl⟩, hserves⟩ := servesPending_later hw hrun₁ hrun₂ ha
  obtain ⟨n, hn, hdue⟩ := hserves.created dueTo hcreated
  refine ⟨n, ?_, hdue, ?_⟩
  · rw [own_append, own_append, ← List.append_assoc]
    exact mem_seenNodes_append _ hn.seen
  · rintro rfl
    exact pending_of_later hw hrun₁ hu hgone hn

theorem pending_of_remembered {a : Answer} (hw : w.Keyed)
    (hrun₁ : Run (controllerCrew settings b errands w) h₁ c₁) (hrun₂ : Run c₁ h₂ c₂)
    (hgone : ∀ m ∈ h₂, m.before.store.nodes.get? name = none) (ha : a ∈ own i h₂)
    (hremembered : a.request.remembered? = some name) :
    ∃ n, Pending (own i h₁) n ∧ n.name = name := by
  obtain ⟨u, e, hu, ⟨v, rfl⟩, hserves⟩ := servesPending_later hw hrun₁ hrun₂ ha
  obtain ⟨n, hn, rfl⟩ := hserves.remembered name hremembered
  exact ⟨n, pending_of_later hw hrun₁ hu hgone hn, rfl⟩

theorem remembered_of_pending {n : Node} (hw : w.Keyed) (hfaultless : w.Faultless)
    (hsteps : 0 < b.steps) (hrun₁ : Run (controllerCrew settings b errands w) h₁ c₁)
    (hrun₂ : Run c₁ h₂ c₂) (hthrough : ComesThrough i n.name (h₁ ++ h₂) c₂)
    (hn : Pending (own i h₁) n) : ∃ a ∈ own i h₂, a.request.remembered? = some n.name := by
  have horderly := orderly_controllerCrew settings b errands hw
  have hrun := hrun₁.append hrun₂
  obtain ⟨result, hresult⟩ := hthrough.done
  obtain ⟨⟨instanceId, network⟩, hdue⟩ :=
    Option.isSome_iff_exists.1 (Node.isSome_dueRoute? ▸ hn.due)
  have hseen : n ∈ seenNodes (own i (h₁ ++ h₂)) := by
    rw [own_append]
    exact mem_seenNodes_append _ hn.seen
  have hunhindered : ∀ a ∈ own i (h₁ ++ h₂), Unhindered instanceId network.text a := by
    intro a ha
    refine ⟨hrun.before_faultless hfaultless (mem_own.1 ha),
      hrun.before_keyed horderly (mem_own.1 ha), hthrough.inTime a ha, ?_⟩
    exact hthrough.unclaimed n hseen rfl _ (Node.dueRoute?_of_due hdue) a ha
  have hremembered := hrun.result horderly rfl hunhindered
    (remembers_member hsteps hdue errands w i) hresult hseen
  rw [own_append, remembered_append] at hremembered
  rcases hremembered with h | h
  · exact absurd h hn.notRemembered
  · exact h

/-- While a name is not stored, a program creates routes only for other nodes or for a node of the
name that was pending, and it remembers a route for the name only if such a node was pending. If it
comes through, it does so as well. -/
theorem brings_back_removed_node (hw : w.Keyed) (hfaultless : w.Faultless)
    (hrun₁ : Run (controllerCrew settings b errands w) h₁ c₁) (hrun₂ : Run c₁ h₂ c₂)
    (hgone : ∀ m ∈ h₂, m.before.store.nodes.get? name = none) :
    (∀ dueTo, (∃ a ∈ own i h₂, a.request.created? = some dueTo) →
      ∃ n ∈ seenNodes (own i (h₁ ++ h₂)), n.dueRoute? = some dueTo ∧
        (n.name = name → Pending (own i h₁) n)) ∧
    ((∃ a ∈ own i h₂, a.request.remembered? = some name) →
      ∃ n, Pending (own i h₁) n ∧ n.name = name) ∧
    (0 < b.steps → ComesThrough i name (h₁ ++ h₂) c₂ →
      (∃ n, Pending (own i h₁) n ∧ n.name = name) →
        ∃ a ∈ own i h₂, a.request.remembered? = some name) := by
  refine ⟨?_, ?_, ?_⟩
  · rintro dueTo ⟨a, ha, hcreated⟩
    exact pending_of_created hw hrun₁ hrun₂ hgone ha hcreated
  · rintro ⟨a, ha, hremembered⟩
    exact pending_of_remembered hw hrun₁ hrun₂ hgone ha hremembered
  · rintro hsteps hthrough ⟨n, hn, rfl⟩
    exact remembered_of_pending hw hfaultless hsteps hrun₁ hrun₂ hthrough hn

/-! ### A node that leaves during a pass -/

def servedWorld : World where
  epoch := ⟨0, 0⟩
  gateway := MemoryGateway.ofRoutes [Route.named "r-1" "10.244.1.0/24" "i-1"]
  cache := Table.empty.insert "n1" (Route.named "r-1" "10.244.1.0/24" "i-1")
  store := NodeStore.add {} (Node.plain "n1" "10.244.1.0/24" "i-1")

def departure : Crew Member (Option (Outcome Unit)) :=
  controllerCrew {} .standard (fun _ => { name := "n1" }) servedWorld

/-- The crew when the pass has listed the node, the node was removed, and an attempt on its name has
deleted its route. -/
def departed : List (Moment Member) × Crew Member (Option (Outcome Unit)) :=
  departure.play (List.replicate 3 (.act .pass) ++ [.remove "n1"] ++
    List.replicate 9 (.act (.errand 0)))

def returned : List (Moment Member) × Crew Member (Option (Outcome Unit)) :=
  departed.2.play (List.replicate 14 (.act .pass))

theorem departed_node_brought_back :
    ∃ a ∈ own .pass returned.1, a.request.remembered? = some "n1" := by
  have hkeyed : servedWorld.Keyed := ⟨by decide +kernel, by decide +kernel⟩
  have hfaultless : servedWorld.Faultless := ⟨rfl, rfl, rfl⟩
  have hrun₁ : Run departure departed.1 departed.2 := Run.play _ _
  have hrun₂ : Run departed.2 returned.1 returned.2 := Run.play _ _
  have hgone : ∀ m ∈ returned.1, m.before.store.nodes.get? "n1" = none := by decide +kernel
  have hthrough : ComesThrough .pass "n1" (departed.1 ++ returned.1) returned.2 := by
    refine ⟨⟨some (.ok ()), ?_⟩, by decide +kernel, by decide +kernel⟩
    exact Control.result?_eq_some.1 (by decide +kernel)
  have hpending : Pending (own .pass departed.1) (Node.plain "n1" "10.244.1.0/24" "i-1") :=
    ⟨by decide +kernel, by decide +kernel, by decide +kernel⟩
  have hback := brings_back_removed_node (i := .pass) hkeyed hfaultless hrun₁ hrun₂ hgone
  exact hback.2.2 (by decide) hthrough ⟨_, hpending, rfl⟩

/-- An attempt has found the node missing and succeeded, and its name is neither routed nor
remembered; then the pass creates and remembers its route, without the node being stored again. -/
theorem removed_node_gets_route_back :
    ∃ h₁ c₁ h₂ c₂, Run departure h₁ c₁ ∧ Run c₁ h₂ c₂ ∧
      (c₁.left (.errand 0) = .done (some (.ok ())) ∧
        ∀ a ∈ own (.errand 0) h₁, a.before.store.nodes.get? "n1" = none) ∧
      (∀ m ∈ h₂, m.before.store.nodes.get? "n1" = none) ∧
      (c₁.world.gateway.table.get? "10.244.1.0/24" = none ∧ c₁.world.cache.get? "n1" = none) ∧
      (∃ a ∈ own .pass h₂, a.request.created? = some ("i-1", "10.244.1.0/24") ∧
        (a.after.gateway.table.get? "10.244.1.0/24").map Route.instanceId = some "i-1") ∧
      c₂.world.cache.get? "n1" ≠ none := by
  refine ⟨departed.1, departed.2, returned.1, returned.2, Run.play _ _, Run.play _ _,
    ⟨Control.result?_eq_some.1 (by decide +kernel), by decide +kernel⟩, by decide +kernel,
    by decide +kernel, by decide +kernel, by decide +kernel⟩

end PodRoutes
