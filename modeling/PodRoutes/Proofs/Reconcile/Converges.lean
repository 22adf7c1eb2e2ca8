import PodRoutes.Proofs.Reconcile.Conflict
import PodRoutes.Proofs.Reconcile.Settled

/-!
# A full pass settles its scene

The conflicts are deleted first, so that the routes at hand are the whole table and none of them
conflicts with a node. The nodes are then reconciled one by one. `Progress` says how far that has
come: the table has only grown by routes that handled nodes are due, and every handled node is
served. Since the pod networks are apart, a route made for one node is never in the way of another.
-/

namespace PodRoutes

open Reconcile

/-! ### Deleting the conflicts -/

def Scene.withoutRoute (s : Scene) (destination : String) : Scene :=
  { s with
    table := s.table.erase destination
    cache := RouteCache.without s.cache destination
    writes := s.writes ++ [.delete destination] }

structure Scene.Drops (s : Scene) (doomed : List String) (t : Scene) : Prop where
  date : t.date = s.date
  nodes : t.nodes = s.nodes
  routes : ∀ c, t.table.get? c = if c ∈ doomed then none else s.table.get? c

theorem Scene.Drops.keyed {s t : Scene} {doomed : List String} (h : s.Drops doomed t)
    (hs : s.Keyed) : t.Keyed := by
  refine ⟨?_, h.nodes ▸ hs.nodes⟩
  intro c r hr
  rw [h.routes] at hr
  split at hr
  · cases hr
  · exact hs.routes c r hr

namespace Comes

variable {s : Scene} {b : Backoff} {n : Node}

theorem deleteConflicting (doomed : List Route) (hs : s.table.KeyedBy Route.destination) :
    ∃ t, Comes (Reconcile.deleteConflicting doomed s.table.values) s t.table.values t ∧
      s.Drops (doomed.map Route.destination) t := by
  induction doomed generalizing s with
  | nil => exact ⟨s, done _ _, rfl, rfl, by simp⟩
  | cons r rest ih =>
    have hkeyed : (s.withoutRoute r.destination).table.KeyedBy Route.destination := hs.erase _
    obtain ⟨t, ht, hdate, hnodes, hroutes⟩ := ih hkeyed
    have hleft : (s.table.values.filter fun q => q.destination ≠ r.destination) =
        (s.withoutRoute r.destination).table.values := (hs.values_erase r.destination).symm
    refine ⟨t, ?_, hdate, hnodes, ?_⟩
    · rw [Reconcile.deleteConflicting, hleft]
      exact ⟨rfl, rfl, rfl, rfl, ht⟩
    · intro c
      rw [hroutes c, Scene.withoutRoute, Table.get?_erase]
      by_cases hc : r.destination = c
      · simp [hc]
      · have hc' : ¬c = r.destination := fun e => hc e.symm
        simp [hc, hc']

theorem dropConflicts (hs : s.Keyed) :
    ∃ t, Comes Reconcile.dropConflicts s (.ok (includedNodes s.nodes, t.table.values)) t ∧
      t.Keyed ∧ t.date = s.date ∧ t.nodes = s.nodes ∧
      ∀ r ∈ t.table.values, conflictsWithAny (includedNodes s.nodes) r = false := by
  obtain ⟨t, ht, hdrops⟩ := deleteConflicting
    (s.table.values.filter (conflictsWithAny (includedNodes s.nodes))) hs.routes
  refine ⟨t, ⟨rfl, rfl, ht.bind (done _ _)⟩, hdrops.keyed hs, hdrops.date, hdrops.nodes, ?_⟩
  intro r hr
  have hget := (hdrops.keyed hs).routes.get?_of_mem hr
  rw [hdrops.routes] at hget
  split at hget
  · cases hget
  · next hkeep =>
    rw [Bool.eq_false_iff]
    intro hconflict
    refine hkeep (List.mem_map_of_mem (List.mem_filter.2 ⟨?_, hconflict⟩))
    exact Table.KeyedBy.mem_of_get? hget

end Comes

/-! ### Reconciling the nodes -/

def Node.ApartFrom (m n : Node) : Prop :=
  ∀ a b, m.ipv4PodNetwork = .ok (some a) → n.ipv4PodNetwork = .ok (some b) → a.Disjoint b

instance (m n : Node) : Decidable (m.ApartFrom n) :=
  match hm : m.ipv4PodNetwork, hn : n.ipv4PodNetwork with
  | .ok (some a), .ok (some b) => decidable_of_iff (a.Disjoint b) <| by
    simp [Node.ApartFrom, hm, hn]
  | .error _, _ => isTrue <| by simp [Node.ApartFrom, hm]
  | .ok none, _ => isTrue <| by simp [Node.ApartFrom, hm]
  | _, .error _ => isTrue <| by simp [Node.ApartFrom, hn]
  | _, .ok none => isTrue <| by simp [Node.ApartFrom, hn]

def PodNetworksApart (nodes : List Node) : Prop := ∀ m ∈ nodes, ∀ n ∈ nodes, m ≠ n → m.ApartFrom n

instance (nodes : List Node) : Decidable (PodNetworksApart nodes) :=
  inferInstanceAs (Decidable (∀ m ∈ nodes, ∀ n ∈ nodes, m ≠ n → m.ApartFrom n))

namespace Scene

/-- A later scene with the same nodes and at least the same routes and cached names. -/
structure Grows (s t : Scene) : Prop where
  date : t.date = s.date
  nodes : t.nodes = s.nodes
  routes : ∀ c r, s.table.get? c = some r → t.table.get? c = some r
  cached : ∀ name, s.cache.contains name = true → t.cache.contains name = true

/-- How far the nodes of a scene have been reconciled. -/
structure Progress (t : Scene) (handled : List Node) (s : Scene) : Prop where
  date : s.date = t.date
  kept : ∀ c r, t.table.get? c = some r → s.table.get? c = some r
  made : ∀ c r, s.table.get? c = some r → t.table.get? c = some r ∨
    ∃ n ∈ handled, ∃ network, n.due? = some (r.instanceId, network) ∧ network.text = c ∧
      r.destination = c
  untouched : ∀ name, (∀ n ∈ handled, n.name ≠ name) → s.nodes.get? name = t.nodes.get? name
  served : ∀ n ∈ handled, ∃ m, s.nodes.get? n.name = some m ∧ m.metadata = n.metadata ∧
    m.spec = n.spec ∧ s.Serves m

variable {s t u : Scene} {n m : Node} {handled : List Node}

theorem Serves.mono (h : s.Serves m)
    (hroutes : ∀ c r, s.table.get? c = some r → t.table.get? c = some r)
    (hcached : ∀ name, s.cache.contains name = true → t.cache.contains name = true) :
    t.Serves m := by
  intro hskip
  have h := h hskip
  cases hdue : m.due? with
  | none => simpa [hdue] using h
  | some due =>
    obtain ⟨instanceId, network⟩ := due
    simp only [hdue] at h ⊢
    obtain ⟨⟨r, hr, ho⟩, hcache, hcurrent⟩ := h
    exact ⟨⟨r, hroutes _ _ hr, ho⟩, hcached _ hcache, hcurrent⟩

theorem Progress.start (t : Scene) : Progress t [] t where
  date := rfl
  kept := fun _ _ h => h
  made := fun _ _ h => Or.inl h
  untouched := fun _ _ => rfl
  served := by simp

/-! ### Marking -/

section Marking

variable (s n) (routeCreated : Bool)

@[simp] theorem table_marked : (s.marked n routeCreated).table = s.table := by
  rw [marked]
  split <;> rfl

@[simp] theorem made_marked : (s.marked n routeCreated).made = s.made := by
  rw [marked]
  split <;> rfl

@[simp] theorem cache_marked : (s.marked n routeCreated).cache = s.cache := by
  rw [marked]
  split <;> rfl

@[simp] theorem date_marked : (s.marked n routeCreated).date = s.date := by
  rw [marked]
  split <;> rfl

end Marking

theorem get?_nodes_marked (hn : s.nodes.get? n.name = some n) (routeCreated : Bool)
    (name : String) : (s.marked n routeCreated).nodes.get? name =
      if n.name = name then some (n.marked routeCreated s.date) else s.nodes.get? name := by
  rw [marked, Node.marked]
  cases hc : n.networkConditionIsCurrent routeCreated with
  | false => simp [Table.get?_insert]
  | true =>
    by_cases he : n.name = name
    · subst he
      simp [hn]
    · simp [he]

/-! ### One more node -/

theorem Progress.leave (h : Progress t handled s) (hn : s.nodes.get? n.name = some n)
    (hserves : s.Serves n) : Progress t (n :: handled) s where
  date := h.date
  kept := h.kept
  made := by
    intro c r hr
    rcases h.made c r hr with ht | ⟨m, hm, hdue⟩
    · exact Or.inl ht
    · exact Or.inr ⟨m, List.mem_cons_of_mem n hm, hdue⟩
  untouched := fun name hname => h.untouched name fun m hm => hname m (List.mem_cons_of_mem n hm)
  served := by
    intro m hm
    rcases List.mem_cons.1 hm with rfl | hm
    · exact ⟨m, hn, rfl, rfl, hserves⟩
    · exact h.served m hm

theorem Progress.mark (h : Progress t handled s) (hg : s.Grows u)
    (hn : t.nodes.get? n.name = some n) (hfresh : ∀ m ∈ handled, m.name ≠ n.name)
    (hmade : ∀ c r, u.table.get? c = some r → s.table.get? c = some r ∨
      ∃ network, n.due? = some (r.instanceId, network) ∧ network.text = c ∧ r.destination = c)
    {routeCreated : Bool} (hserves : u.Serves (n.marked routeCreated t.date)) :
    Progress t (n :: handled) (u.marked n routeCreated) := by
  have hdate : u.date = t.date := hg.date.trans h.date
  have hnode : u.nodes.get? n.name = some n := by
    rw [hg.nodes, h.untouched n.name hfresh, hn]
  have hnodes := get?_nodes_marked hnode routeCreated
  refine ⟨?_, ?_, ?_, ?_, ?_⟩
  · rw [date_marked, hdate]
  · intro c r hr
    rw [table_marked]
    exact hg.routes c r (h.kept c r hr)
  · intro c r hr
    rw [table_marked] at hr
    rcases hmade c r hr with hs | hdue
    · rcases h.made c r hs with ht | ⟨m, hm, hdue⟩
      · exact Or.inl ht
      · exact Or.inr ⟨m, List.mem_cons_of_mem n hm, hdue⟩
    · exact Or.inr ⟨n, List.mem_cons_self, hdue⟩
  · intro name hname
    rw [hnodes, if_neg (hname n List.mem_cons_self), hg.nodes]
    exact h.untouched name fun m hm => hname m (List.mem_cons_of_mem n hm)
  · intro m hm
    rcases List.mem_cons.1 hm with rfl | hm
    · refine ⟨m.marked routeCreated t.date, ?_, by simp, by simp, ?_⟩
      · rw [hnodes, if_pos rfl, hdate]
      · exact hserves.mono (by simp) (by simp)
    · obtain ⟨m', hget, hmeta, hspec, hserves'⟩ := h.served m hm
      refine ⟨m', ?_, hmeta, hspec, ?_⟩
      · rw [hnodes, if_neg (fun e => hfresh m hm e.symm), hg.nodes, hget]
      · exact hserves'.mono (fun c r hr => by simpa using hg.routes c r hr)
          (fun name hname => by simpa using hg.cached name hname)

theorem grows_refl (s : Scene) : s.Grows s := ⟨rfl, rfl, fun _ _ h => h, fun _ h => h⟩

theorem grows_remembering (s : Scene) (name : String) (r : Route) :
    s.Grows (s.remembering name r) := by
  refine ⟨rfl, rfl, fun _ _ h => h, ?_⟩
  intro name' h
  simp only [Table.contains, remembering, Table.get?_insertNew] at h ⊢
  split
  · rfl
  · exact h

theorem contains_remembering (s : Scene) (name : String) (r : Route) :
    (s.remembering name r).cache.contains name = true := by
  simp [Table.contains, remembering, Table.get?_insertNew]

theorem grows_withRoute {destination : String} (hfree : s.table.contains destination = false)
    (instanceId : String) : s.Grows (s.withRoute instanceId destination) := by
  refine ⟨rfl, rfl, ?_, fun _ h => h⟩
  intro c r hr
  show (s.table.insert _ _).get? c = some r
  rw [Table.get?_insert]
  split
  · next he =>
    rw [he, Table.contains, hr] at hfree
    cases hfree
  · exact hr

theorem Grows.trans (h : s.Grows t) (h' : t.Grows u) : s.Grows u where
  date := h'.date.trans h.date
  nodes := h'.nodes.trans h.nodes
  routes := fun c r hr => h'.routes c r (h.routes c r hr)
  cached := fun name hname => h'.cached name (h.cached name hname)

theorem serves_marked_of_not_due {now : Instant} (hdue : n.due? = none)
    (hahead : n.conditions.countP (Condition.isAhead now) ≤ 1) :
    s.Serves (n.marked false now) := by
  intro _
  rw [Node.due?_marked, hdue]
  exact Node.networkConditionIsCurrent_marked hahead false

theorem serves_marked_of_due {now : Instant} {instanceId : String} {network : Network} {r : Route}
    (hdue : n.due? = some (instanceId, network)) (hr : s.table.get? network.text = some r)
    (ho : r.instanceId = instanceId) (hcache : s.cache.contains n.name = true)
    (hahead : n.conditions.countP (Condition.isAhead now) ≤ 1) : s.Serves (n.marked true now) := by
  intro _
  rw [Node.due?_marked, hdue]
  refine ⟨⟨r, hr, ho⟩, ?_, Node.networkConditionIsCurrent_marked hahead true⟩
  rw [Node.name_marked]
  exact hcache

theorem Progress.get?_table (h : Progress t handled s) {network : Network}
    (hn : n.ipv4PodNetwork = .ok (some network))
    (hapart : ∀ m ∈ handled, m.ApartFrom n) :
    s.table.get? network.text = t.table.get? network.text := by
  cases ht : t.table.get? network.text with
  | some r => exact h.kept _ _ ht
  | none =>
    cases hs : s.table.get? network.text with
    | none => rfl
    | some r =>
      rcases h.made _ _ hs with ht' | ⟨m, hm, other, hdue, htext, _⟩
      · rw [ht] at ht'
        cases ht'
      · have hother := (Node.due?_eq_some.1 hdue).2.1
        exact absurd htext (hapart m hm _ _ hother hn).text_ne

end Scene

namespace Comes

variable {s t : Scene} {b : Backoff} {n : Node} {handled : List Node}

theorem syncNode_progress (hb : 0 < b.steps) (ht : t.Keyed) (h : t.Progress handled s)
    (hn : t.nodes.get? n.name = some n) (hfresh : ∀ m ∈ handled, m.name ≠ n.name)
    (hahead : n.conditions.countP (Condition.isAhead t.date) ≤ 1)
    (hfree : ∀ r ∈ t.table.values, conflictsWithNode r n = false)
    (hapart : ∀ m ∈ handled, m.ApartFrom n) :
    ∃ x u, Comes (Reconcile.syncNode b n (some t.table.values)) s x u ∧
      t.Progress (n :: handled) u := by
  have hnode : s.nodes.get? n.name = some n := by rw [h.untouched n.name hfresh, hn]
  cases hskip : n.skipReason? with
  | some reason =>
    refine ⟨.ok (), s, syncNode_of_skipped (by simp [hskip]), h.leave hnode ?_⟩
    intro hnot
    rw [hskip] at hnot
    cases hnot
  | none =>
    cases hdue : n.due? with
    | none =>
      obtain ⟨x, hx⟩ := syncNode_of_not_due b (some t.table.values) hskip hdue hnode
      refine ⟨x, _, hx, h.mark s.grows_refl hn hfresh (fun c r hr => Or.inl hr) ?_⟩
      exact Scene.serves_marked_of_not_due hdue hahead
    | some due =>
      obtain ⟨instanceId, network⟩ := due
      obtain ⟨_, hnet, hi⟩ := Node.due?_eq_some.1 hdue
      have hsame := h.get?_table hnet hapart
      have hfind := find_values ht.routes network.text_ne_empty hsame
      cases hget : t.table.get? network.text with
      | some r =>
        have hd := ht.routes _ _ hget
        have hmem := Table.KeyedBy.mem_of_get? hget
        have ho := instanceId_of_not_conflicts hdue hd (hfree r hmem)
        rw [hget] at hfind
        have hadd := addRoute_of_found (b := b) hi hfind hd ho
        refine ⟨.ok (), _, syncNode_of_addRoute hdue hadd hnode, ?_⟩
        apply h.mark (s.grows_remembering n.name r) hn hfresh (fun c r hr => Or.inl hr)
        exact Scene.serves_marked_of_due hdue (hsame.trans hget) ho
          (s.contains_remembering n.name r) hahead
      | none =>
        have hfreed : s.table.contains network.text = false := by
          rw [Table.contains, hsame, hget]
          rfl
        rw [hget] at hfind
        have hadd := addRoute_of_free hb hi hfind hfreed
        refine ⟨.ok (), _, syncNode_of_addRoute hdue hadd hnode, ?_⟩
        have hgrows := (Scene.grows_withRoute hfreed instanceId).trans
          (Scene.grows_remembering _ n.name (s.nextRoute instanceId network.text))
        refine h.mark hgrows hn hfresh ?_ ?_
        · intro c r hr
          have hr : (s.table.insert _ _).get? c = some r := hr
          rw [Table.get?_insert] at hr
          split at hr
          · next he =>
            cases hr
            exact Or.inr ⟨network, hdue, he, he⟩
          · exact Or.inl hr
        · exact Scene.serves_marked_of_due hdue (Table.get?_insert_self _ _ _) rfl
            (Scene.contains_remembering _ _ _) hahead

theorem syncNodes_progress (settings : Settings) {all : List Node} (hb : 0 < b.steps)
    (ht : t.Keyed) (hlisted : ∀ n ∈ all, t.nodes.get? n.name = some n)
    (hnames : all.Pairwise fun m n => m.name ≠ n.name)
    (hahead : ∀ n ∈ all, n.conditions.countP (Condition.isAhead t.date) ≤ 1)
    (hfree : ∀ r ∈ t.table.values, conflictsWithAny all r = false)
    (hapart : PodNetworksApart all) {todo : List Node} (hall : handled.reverse ++ todo = all)
    (h : t.Progress handled s) :
    ∃ u, Comes (syncNodes settings b t.table.values todo) s () u ∧ t.Progress all.reverse u := by
  induction todo generalizing s handled with
  | nil =>
    refine ⟨s, done _ _, ?_⟩
    rw [← hall]
    simpa using h
  | cons n rest ih =>
    have hmem : n ∈ all := by simp [← hall]
    have hhandled : ∀ m ∈ handled, m ∈ all := fun m hm => by simp [← hall, hm]
    have hfresh : ∀ m ∈ handled, m.name ≠ n.name := by
      rw [← hall, List.pairwise_append] at hnames
      intro m hm
      exact hnames.2.2 m (List.mem_reverse.2 hm) n List.mem_cons_self
    have hfreeNode : ∀ r ∈ t.table.values, conflictsWithNode r n = false := by
      intro r hr
      have := hfree r hr
      rw [conflictsWithAny, List.any_eq_false] at this
      simpa using this n hmem
    have hapartNode : ∀ m ∈ handled, m.ApartFrom n := by
      intro m hm
      exact hapart m (hhandled m hm) n hmem fun e => hfresh m hm (e ▸ rfl)
    obtain ⟨x, u, hx, hu⟩ := syncNode_progress hb ht h (hlisted n hmem) hfresh (hahead n hmem)
      hfreeNode hapartNode
    obtain ⟨v, hv, hprogress⟩ := ih (by simpa using hall) hu
    exact ⟨v, (hx.within _).bind hv, hprogress⟩

end Comes

/-! ### The settled scene -/

theorem conflictsWithNode_congr {m n : Node} (hm : m.metadata = n.metadata) (hs : m.spec = n.spec)
    (r : Route) : conflictsWithNode r m = conflictsWithNode r n := by
  rw [conflictsWithNode, conflictsWithNode, Node.ipv4PodNetwork_congr hs,
    Node.instanceId?_congr hm hs]

theorem conflictsWithNode_of_due {all : List Node} (hapart : PodNetworksApart all) {m n : Node}
    (hm : m ∈ all) (hn : n ∈ all) {network : Network} {r : Route}
    (hdue : m.due? = some (r.instanceId, network)) (hd : r.destination = network.text) :
    conflictsWithNode r n = false := by
  obtain ⟨_, hnet, hi⟩ := Node.due?_eq_some.1 hdue
  rw [conflictsWithNode]
  cases hnet' : n.ipv4PodNetwork with
  | error e => rfl
  | ok network? =>
    cases network? with
    | none => rfl
    | some network' =>
      show Network.conflicts network' r n.instanceId? = false
      by_cases he : n = m
      · subst he
        rw [hnet] at hnet'
        cases hnet'
        rw [Network.conflicts_of_text_eq hd.symm, hi]
        simp
      · exact (hapart n hn m hm he _ _ hnet' hnet).conflicts_eq_false hd _

namespace Scene.Progress

variable {t u : Scene} {handled : List Node}

theorem stored (h : t.Progress handled u) (name : String) :
    (∃ m ∈ handled, m.name = name ∧ ∃ n, u.nodes.get? name = some n ∧
      n.metadata = m.metadata ∧ n.spec = m.spec ∧ u.Serves n) ∨
    ((∀ m ∈ handled, m.name ≠ name) ∧ u.nodes.get? name = t.nodes.get? name) := by
  by_cases hname : ∃ m ∈ handled, m.name = name
  · obtain ⟨m, hm, rfl⟩ := hname
    exact Or.inl ⟨m, hm, rfl, h.served m hm⟩
  · have hfresh : ∀ m ∈ handled, m.name ≠ name := fun m hm he => hname ⟨m, hm, he⟩
    exact Or.inr ⟨hfresh, h.untouched name hfresh⟩

theorem keyed (h : t.Progress handled u) (ht : t.Keyed) : u.Keyed := by
  constructor
  · intro c r hr
    rcases h.made c r hr with hr | ⟨_, _, _, _, htext, hd⟩
    · exact ht.routes c r hr
    · exact hd
  · intro name n hn
    rcases h.stored name with ⟨m, _, rfl, m', hget, hmeta, _⟩ | ⟨_, hsame⟩
    · rw [hget] at hn
      cases hn
      rw [Node.name, Node.name, hmeta]
    · rw [hsame] at hn
      exact ht.nodes name n hn

theorem served_of_included (h : t.Progress handled u) (ht : t.Keyed)
    (hall : ∀ n ∈ includedNodes t.nodes, n ∈ handled) {n : Node}
    (hn : n ∈ includedNodes u.nodes) :
    ∃ m ∈ handled, n.metadata = m.metadata ∧ n.spec = m.spec ∧ u.Serves n := by
  obtain ⟨hmem, hincluded⟩ := mem_includedNodes.1 hn
  obtain ⟨name, hget⟩ := Table.mem_values_iff.1 hmem
  rcases h.stored name with ⟨m, hm, _, m', hget', hmeta, hspec, hserves⟩ | ⟨hfresh, hsame⟩
  · rw [hget'] at hget
    cases hget
    exact ⟨m, hm, hmeta, hspec, hserves⟩
  · rw [hsame] at hget
    have hhandled := hall n (mem_includedNodes.2 ⟨Table.KeyedBy.mem_of_get? hget, hincluded⟩)
    exact absurd (ht.nodes name n hget) (hfresh n hhandled)

theorem settled (h : t.Progress handled u) (ht : t.Keyed)
    (hall : ∀ n, n ∈ handled ↔ n ∈ includedNodes t.nodes)
    (hapart : PodNetworksApart (includedNodes t.nodes))
    (hfree : ∀ r ∈ t.table.values, conflictsWithAny (includedNodes t.nodes) r = false) :
    u.Settled := by
  constructor
  · intro r hr
    rw [conflictsWithAny, List.any_eq_false]
    intro n hn
    rw [Bool.not_eq_true]
    obtain ⟨m, hm, hmeta, hspec, _⟩ := h.served_of_included ht (fun n => (hall n).2) hn
    rw [conflictsWithNode_congr hmeta hspec]
    obtain ⟨c, hget⟩ := Table.mem_values_iff.1 hr
    rcases h.made c r hget with hget | ⟨k, hk, network, hdue, htext, hd⟩
    · have := hfree r (Table.KeyedBy.mem_of_get? hget)
      rw [conflictsWithAny, List.any_eq_false] at this
      simpa using this m ((hall m).1 hm)
    · exact conflictsWithNode_of_due hapart ((hall k).1 hk) ((hall m).1 hm) hdue
        (hd.trans htext.symm)
  · intro n hn
    obtain ⟨_, _, _, _, hserves⟩ := h.served_of_included ht (fun n => (hall n).2) hn
    exact hserves

end Scene.Progress

def Node.identity (n : Node) : Metadata × Option NodeSpec := (n.metadata, n.spec)

theorem Scene.Progress.identity {t u : Scene} {handled : List Node} (h : t.Progress handled u)
    (hlisted : ∀ n ∈ handled, t.nodes.get? n.name = some n) (name : String) :
    (u.nodes.get? name).map Node.identity = (t.nodes.get? name).map Node.identity := by
  rcases h.stored name with ⟨m, hm, rfl, m', hget, hmeta, hspec, _⟩ | ⟨_, hsame⟩
  · rw [hget, hlisted m hm, Option.map_some, Option.map_some, Node.identity, Node.identity, hmeta,
      hspec]
  · rw [hsame]

theorem Comes.reconcileAll_settles {settings : Settings} {b : Backoff} {s : Scene}
    (hc : settings.configureRoutes = true) (hb : 0 < b.steps) (hs : s.Keyed)
    (hapart : PodNetworksApart (includedNodes s.nodes))
    (hahead : ∀ n ∈ includedNodes s.nodes,
      n.conditions.countP (Condition.isAhead s.date) ≤ 1) :
    ∃ u, Comes (Reconcile.reconcileAll settings b) s (.ok ()) u ∧ u.Keyed ∧ u.Settled ∧
      ∀ name, (u.nodes.get? name).map Node.identity = (s.nodes.get? name).map Node.identity := by
  obtain ⟨t, hdrop, ht, hdate, hnodes, hfree⟩ := Comes.dropConflicts hs
  rw [← hdate] at hahead
  rw [← hnodes] at hapart hahead hfree hdrop
  have hlisted : ∀ n ∈ includedNodes t.nodes, t.nodes.get? n.name = some n := fun n hn =>
    ht.nodes.get?_of_mem (mem_includedNodes.1 hn).1
  have hnames : (includedNodes t.nodes).Pairwise fun m n => m.name ≠ n.name :=
    ht.nodes.pairwise_values.filter _
  obtain ⟨u, hsync, hprogress⟩ := Comes.syncNodes_progress settings hb ht hlisted hnames
    hahead hfree hapart (List.nil_append _) (Scene.Progress.start t)
  refine ⟨u, Comes.reconcileAll hc (Comes.syncRoutes hdrop hsync), hprogress.keyed ht,
    hprogress.settled ht (fun n => List.mem_reverse) hapart hfree, ?_⟩
  intro name
  rw [← hnodes]
  exact hprogress.identity (fun n hn => hlisted n (List.mem_reverse.1 hn)) name

/-! ### The world -/

theorem World.Calm.advance {w : World} (h : w.Calm) (millis : Nat) : (w.advance millis).Calm :=
  ⟨⟨h.failures, h.refused, h.storeFailures⟩, h.latency⟩

theorem World.Calm.store_eq {v w : World} (hv : v.Calm) (hw : w.Calm)
    (h : v.store.nodes = w.store.nodes) : v.store = w.store := by
  have hfailures : v.store.failures = w.store.failures :=
    hv.storeFailures.trans hw.storeFailures.symm
  cases hvs : v.store
  cases hws : w.store
  simp_all

theorem World.settled_advance {w : World} (hk : w.scene.Keyed) (hs : w.scene.Settled)
    (millis : Nat) : (w.advance millis).scene.Keyed ∧ (w.advance millis).scene.Settled :=
  ⟨⟨hk.routes, hk.nodes⟩, ⟨hs.free, hs.served⟩⟩

/-- What a full pass comes to, and a second one after it. -/
structure Convergence (before : World) (first second : Outcome Unit × World) : Prop where
  ok : first.1 = .ok ()
  identity : ∀ name, (first.2.store.nodes.get? name).map Node.identity =
    (before.store.nodes.get? name).map Node.identity
  /-- Every node that is not skipped and has a pod network and an instance has its route. -/
  routed : ∀ n ∈ first.2.store.nodes.values, n.skipReason? = none → ∀ network instanceId,
    n.ipv4PodNetwork = .ok (some network) → n.instanceId? = some instanceId →
      ∃ r, first.2.gateway.table.get? network.text = some r ∧ r.destination = network.text ∧
        r.instanceId = instanceId
  /-- No route conflicts with a node without exclude label. -/
  free : ∀ r ∈ first.2.gateway.table.values, ∀ n ∈ first.2.store.nodes.values,
    n.isExcluded = false → conflictsWithNode r n = false
  again : second.1 = .ok ()
  writes : second.2.writes = first.2.writes
  patches : second.2.patches = first.2.patches
  table : second.2.gateway.table = first.2.gateway.table
  cache : second.2.cache = first.2.cache
  store : second.2.store = first.2.store

/-- One full pass in calm surroundings gives every node the route that it is due, leaves no route
that conflicts with a node, and leaves nothing for a later pass to do. -/
theorem reconcileAll_converges (settings : Settings) (b : Backoff) (w : World) (later : Nat)
    (hroutes : settings.configureRoutes = true) (hsteps : 0 < b.steps) (hcalm : w.Calm)
    (htable : w.gateway.table.KeyedBy Route.destination)
    (hstore : w.store.nodes.KeyedBy Node.name)
    (hapart : PodNetworksApart (includedNodes w.store.nodes))
    (hahead : ∀ n ∈ includedNodes w.store.nodes,
      n.conditions.countP (Condition.isAhead w.date) ≤ 1) :
    Convergence w (w.run (reconcileAll settings b))
      (((w.run (reconcileAll settings b)).2.advance later).run (reconcileAll settings b)) := by
  obtain ⟨u, hpass, hkeyed, hsettled, hidentity⟩ :=
    Comes.reconcileAll_settles (s := w.scene) hroutes hsteps ⟨htable, hstore⟩ hapart hahead
  obtain ⟨hok, hscene, hcalm'⟩ := hpass.run hcalm
  generalize w.run (reconcileAll settings b) = first at hok hscene hcalm' ⊢
  rw [← hscene] at hkeyed hsettled hidentity
  obtain ⟨hkeyed', hsettled'⟩ := World.settled_advance hkeyed hsettled later
  have hagain := Comes.reconcileAll_of_settled hroutes b hkeyed' hsettled'
  obtain ⟨hok', hscene', hcalm''⟩ := hagain.run (hcalm'.advance later)
  refine ⟨hok, hidentity, ?_, ?_, hok', congrArg Scene.writes hscene',
    congrArg Scene.patches hscene', congrArg Scene.table hscene', congrArg Scene.cache hscene',
    World.Calm.store_eq hcalm'' hcalm' (congrArg Scene.nodes hscene')⟩
  · intro n hn hskip network instanceId hnet hi
    have hincluded : n ∈ includedNodes first.2.store.nodes :=
      mem_includedNodes.2 ⟨hn, Node.isExcluded_of_not_skipped hskip⟩
    have hserves := hsettled.served n hincluded hskip
    rw [Node.due?_eq_some.2 ⟨hskip, hnet, hi⟩] at hserves
    obtain ⟨⟨r, hr, ho⟩, _⟩ := hserves
    exact ⟨r, hr, hkeyed.routes _ _ hr, ho⟩
  · intro r hr n hn hincluded
    have hfree := hsettled.free r hr
    rw [conflictsWithAny, List.any_eq_false] at hfree
    simpa using hfree n (mem_includedNodes.2 ⟨hn, hincluded⟩)

def unsettledWorld : World where
  epoch := ⟨0, 0⟩
  gateway := .ofRoutes [Route.named "r-1" "10.244.1.0/24" "i-old",
    Route.named "r-2" "10.244.2.128/25" "i-2", Route.named "r-3" "elsewhere" "i-3"]
  store := (({} : NodeStore).add (Node.plain "n1" "10.244.1.0/24" "i-1")).add
    (Node.plain "n2" "10.244.2.7/24" "i-2")

theorem unsettledWorld_converges :
    Convergence unsettledWorld (unsettledWorld.run (reconcileAll {} .standard))
      (((unsettledWorld.run (reconcileAll {} .standard)).2.advance 60000).run
        (reconcileAll {} .standard)) := by
  have hcalm : unsettledWorld.Calm := ⟨⟨rfl, rfl, rfl⟩, rfl⟩
  exact reconcileAll_converges {} .standard unsettledWorld 60000 rfl (by decide) hcalm
    (by decide +kernel) (by decide +kernel) (by decide +kernel) (by decide +kernel)

end PodRoutes
