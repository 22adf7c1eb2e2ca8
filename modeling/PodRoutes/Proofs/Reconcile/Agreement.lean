import PodRoutes.Proofs.Calm.Turn
import PodRoutes.Proofs.Reconcile.Converges

/-!
# Passes and attempts agree

A full pass works from listings that it takes once at its start, an attempt looks at the store and
the table when its turn comes. In calm surroundings, and without conflicts to delete, one pass
leaves the same routes, the same cache and the same nodes as an attempt on each stored node in
turn: what the pass does not know from its listing it learns from refused creates.
-/

namespace PodRoutes

open Reconcile

/-! ### Scenes that differ in their dates -/

/-- The nodes differ at most in the time at which their network condition was set. -/
def Node.Redated (m n : Node) : Prop :=
  m = n ∨ ∃ (k : Node) (routeCreated : Bool) (now now' : Instant),
    m = setNetworkCondition routeCreated now k ∧ n = setNetworkCondition routeCreated now' k

theorem Node.redated_marked (n : Node) (routeCreated : Bool) (now now' : Instant) :
    Redated (n.marked routeCreated now) (n.marked routeCreated now') := by
  rw [marked, marked]
  split
  · exact Or.inl rfl
  · exact Or.inr ⟨n, routeCreated, now, now', rfl, rfl⟩

/-- Scenes with the same routes and cache, and the same nodes up to the times in their network
conditions. -/
structure Scene.Alike (s t : Scene) : Prop where
  table : s.table = t.table
  made : s.made = t.made
  cache : s.cache = t.cache
  nodes : ∀ name, Option.Rel Node.Redated (s.nodes.get? name) (t.nodes.get? name)

namespace Scene

variable {s t u : Scene} {n : Node}

theorem alike_of_nodes (htable : s.table = t.table) (hmade : s.made = t.made)
    (hcache : s.cache = t.cache) (hnodes : s.nodes = t.nodes) : s.Alike t := by
  refine ⟨htable, hmade, hcache, fun name => ?_⟩
  rw [hnodes]
  cases t.nodes.get? name with
  | none => exact .none
  | some n => exact .some (Or.inl rfl)

namespace Alike

theorem of_unlogged (h : s.Alike t) (hu : u.unlogged = s.unlogged) : u.Alike t where
  table := (congrArg Scene.table hu).trans h.table
  made := (congrArg Scene.made hu).trans h.made
  cache := (congrArg Scene.cache hu).trans h.cache
  nodes name := by
    have hnodes := congrArg Scene.nodes hu
    rw [show u.nodes = s.nodes from hnodes]
    exact h.nodes name

theorem remembering (h : s.Alike t) (name : String) (r : Route) :
    (s.remembering name r).Alike (t.remembering name r) :=
  ⟨h.table, h.made, congrArg (fun c : RouteCache => c.insertNew name r) h.cache, h.nodes⟩

theorem nextRoute (h : s.Alike t) (instanceId destination : String) :
    s.nextRoute instanceId destination = t.nextRoute instanceId destination := by
  rw [Scene.nextRoute, Scene.nextRoute, h.made]

theorem withRoute (h : s.Alike t) (instanceId destination : String) :
    (s.withRoute instanceId destination).Alike (t.withRoute instanceId destination) where
  table := by
    show s.table.insert destination (s.nextRoute instanceId destination) =
      t.table.insert destination (t.nextRoute instanceId destination)
    rw [h.nextRoute, h.table]
  made := congrArg (· + 1) h.made
  cache := h.cache
  nodes := h.nodes

theorem marked (h : s.Alike t) (hs : s.nodes.get? n.name = some n)
    (ht : t.nodes.get? n.name = some n) (routeCreated : Bool) :
    (s.marked n routeCreated).Alike (t.marked n routeCreated) := by
  refine ⟨?_, ?_, ?_, fun name => ?_⟩
  · rw [table_marked, table_marked, h.table]
  · rw [made_marked, made_marked, h.made]
  · rw [cache_marked, cache_marked, h.cache]
  · rw [get?_nodes_marked hs, get?_nodes_marked ht]
    split
    · exact .some (n.redated_marked routeCreated s.date t.date)
    · exact h.nodes name

theorem turn (h : s.Alike t) (hs : s.nodes.get? n.name = some n)
    (ht : t.nodes.get? n.name = some n) : (s.turn n).Alike (t.turn n) := by
  rw [Scene.turn, Scene.turn]
  split
  · exact h
  cases n.due? with
  | none => exact h.marked hs ht false
  | some due =>
    obtain ⟨instanceId, network⟩ := due
    simp only [h.table]
    cases t.table.get? network.text with
    | none =>
      rw [h.nextRoute]
      exact ((h.withRoute instanceId network.text).remembering n.name _).marked hs ht true
    | some r =>
      by_cases ho : r.instanceId = instanceId
      · simp only [if_pos ho]
        exact (h.remembering n.name r).marked hs ht true
      · simp only [if_neg ho]
        exact h.marked hs ht false

end Alike

/-! ### Turns that are still to come -/

/-- The nodes are as they were listed, and the table has only grown. -/
structure Awaits (s : Scene) (listed : Table Route) (nodes : List Node) : Prop where
  routes : s.table.KeyedBy Route.destination
  kept : ∀ c r, listed.get? c = some r → s.table.get? c = some r
  stored : ∀ n ∈ nodes, s.nodes.get? n.name = some n

theorem turn_shape (hs : s.table.KeyedBy Route.destination) (n : Node) :
    s.turn n = s ∨ ∃ u routeCreated, s.Grows u ∧ u.table.KeyedBy Route.destination ∧
      s.turn n = u.marked n routeCreated := by
  cases hskip : n.skipReason? with
  | some reason => exact Or.inl (turn_of_skipped (by simp [hskip]))
  | none =>
    right
    cases hdue : n.due? with
    | none => exact ⟨s, false, s.grows_refl, hs, turn_of_not_due hskip hdue⟩
    | some due =>
      obtain ⟨instanceId, network⟩ := due
      cases hr : s.table.get? network.text with
      | none =>
        have hfree : s.table.contains network.text = false := by
          rw [Table.contains, hr]
          rfl
        have hgrows := (grows_withRoute hfree instanceId).trans
          (grows_remembering _ n.name (s.nextRoute instanceId network.text))
        exact ⟨_, true, hgrows, hs.insert rfl, turn_of_free hdue hr⟩
      | some r =>
        by_cases ho : r.instanceId = instanceId
        · exact ⟨_, true, s.grows_remembering n.name r, hs, turn_of_owned hdue hr ho⟩
        · exact ⟨s, false, s.grows_refl, hs, turn_of_foreign hdue hr ho⟩

namespace Awaits

variable {listed : Table Route} {nodes : List Node}

theorem of_unlogged (h : s.Awaits listed nodes) (hu : u.unlogged = s.unlogged) :
    u.Awaits listed nodes := by
  have htable := congrArg Scene.table hu
  have hnodes := congrArg Scene.nodes hu
  constructor
  · rw [show u.table = s.table from htable]
    exact h.routes
  · rw [show u.table = s.table from htable]
    exact h.kept
  · rw [show u.nodes = s.nodes from hnodes]
    exact h.stored

theorem turn (h : s.Awaits listed (n :: nodes)) (hfresh : ∀ m ∈ nodes, n.name ≠ m.name) :
    (s.turn n).Awaits listed nodes := by
  have hstored : ∀ m ∈ nodes, s.nodes.get? m.name = some m := fun m hm =>
    h.stored m (List.mem_cons_of_mem n hm)
  rcases turn_shape h.routes n with hsame | ⟨u, routeCreated, hgrows, hkeyed, hturn⟩
  · rw [hsame]
    exact ⟨h.routes, h.kept, hstored⟩
  · have hnode : u.nodes.get? n.name = some n := by
      rw [hgrows.nodes]
      exact h.stored n List.mem_cons_self
    rw [hturn]
    refine ⟨?_, fun c r hr => ?_, fun m hm => ?_⟩
    · rw [table_marked]
      exact hkeyed
    · rw [table_marked]
      exact hgrows.routes c r (h.kept c r hr)
    · rw [get?_nodes_marked hnode, if_neg (hfresh m hm), hgrows.nodes]
      exact hstored m hm

end Awaits

end Scene

/-! ### Attempts one after another -/

/-- The world after attempts on some names, each after a wait of some milliseconds. -/
def World.afterAttempts (settings : Settings) (b : Backoff) (w : World) :
    List (String × Nat) → World
  | [] => w
  | (name, millis) :: rest =>
    ((w.advance millis).run (reconcile settings b name)).2.afterAttempts settings b rest

theorem World.afterAttempts_of_not_configured {settings : Settings}
    (hc : settings.configureRoutes = false) (b : Backoff) (w : World)
    (calls : List (String × Nat)) :
    ∃ millis, w.afterAttempts settings b calls = w.advance millis := by
  induction calls generalizing w with
  | nil => exact ⟨0, rfl⟩
  | cons call rest ih =>
    obtain ⟨name, millis⟩ := call
    obtain ⟨more, hmore⟩ := ih (w.advance millis)
    refine ⟨millis + more, ?_⟩
    rw [afterAttempts, reconcile, hc]
    show (w.advance millis).afterAttempts settings b rest = _
    rw [hmore, advance, advance, advance, Nat.add_assoc]

/-- The nodes of a listing in turn: the pass makes of them what attempts on their names make. -/
theorem Comes.syncNodes_alike {settings : Settings} {b : Backoff} {listed : Table Route}
    (hc : settings.configureRoutes = true) (hb : 0 < b.steps)
    (hlisted : listed.KeyedBy Route.destination) {nodes : List Node} {calls : List (String × Nat)}
    (hcalls : calls.map Prod.fst = nodes.map Node.name)
    (hnames : nodes.Pairwise fun m n => m.name ≠ n.name) {s : Scene} {w : World} (hw : w.Calm)
    (h : s.Alike w.scene) (hs : s.Awaits listed nodes) (hscene : w.scene.Awaits listed nodes) :
    ∃ t, Comes (syncNodes settings b listed.values (nodes.filter fun n => !n.isExcluded)) s () t ∧
      t.Alike (w.afterAttempts settings b calls).scene := by
  induction nodes generalizing s w calls with
  | nil =>
    obtain rfl : calls = [] := by simpa using hcalls
    exact ⟨s, done _ _, h⟩
  | cons n rest ih =>
    obtain ⟨⟨name, millis⟩, calls, rfl⟩ : ∃ call calls', calls = call :: calls' := by
      cases calls with
      | nil => simp at hcalls
      | cons call calls => exact ⟨call, calls, rfl⟩
    simp only [List.map_cons, List.cons.injEq] at hcalls
    obtain ⟨rfl, hcalls⟩ := hcalls
    obtain ⟨hfresh, hnames⟩ := List.pairwise_cons.1 hnames
    have hn : s.nodes.get? n.name = some n := hs.stored n List.mem_cons_self
    have hadvanced : (w.advance millis).scene.Awaits listed (n :: rest) :=
      ⟨hscene.routes, hscene.kept, hscene.stored⟩
    have hn' : (w.advance millis).scene.nodes.get? n.name = some n :=
      hadvanced.stored n List.mem_cons_self
    have halike : s.Alike (w.advance millis).scene := ⟨h.table, h.made, h.cache, h.nodes⟩
    obtain ⟨-, hafter, hcalm⟩ :=
      (reconcile_stored hc hb hadvanced.routes hn').run (hw.advance millis)
    have hscene' : ((w.advance millis).run (reconcile settings b n.name)).2.scene.Awaits listed
        rest := by
      rw [hafter]
      exact hadvanced.turn hfresh
    rw [World.afterAttempts]
    by_cases hexcluded : n.isExcluded = true
    · have hskip : n.skipReason?.isSome = true := by simp [Node.skipReason?, hexcluded]
      rw [List.filter_cons_of_neg (by simp [hexcluded])]
      refine ih hcalls hnames hcalm ?_ ?_ hscene'
      · have hturn := halike.turn hn hn'
        rw [Scene.turn_of_skipped hskip] at hturn
        rw [hafter]
        exact hturn
      · have hturn := hs.turn hfresh
        rw [Scene.turn_of_skipped hskip] at hturn
        exact hturn
    · obtain ⟨x, u, hx, hu⟩ := syncNode_listed hb hlisted hs.routes hs.kept hn
      have hawaits := hs.of_unlogged hu
      have hturn := (halike.of_unlogged hu).turn (hawaits.stored n List.mem_cons_self) hn'
      rw [← hafter] at hturn
      obtain ⟨t, ht, halike'⟩ := ih hcalls hnames hcalm hturn (hawaits.turn hfresh) hscene'
      rw [List.filter_cons_of_pos (by simpa using hexcluded)]
      exact ⟨t, (hx.within _).bind ht, halike'⟩

/-- In calm surroundings, with no route in conflict with a node, a full pass at any time comes to
the same as attempts on all stored names in the order of their listing, whatever passes between
them. -/
theorem reconcileAll_agrees_with_attempts (settings : Settings) (b : Backoff) (w : World)
    (later : Nat) (calls : List (String × Nat)) (hsteps : 0 < b.steps) (hcalm : w.Calm)
    (htable : w.gateway.table.KeyedBy Route.destination)
    (hstore : w.store.nodes.KeyedBy Node.name)
    (hfree : ∀ r ∈ w.gateway.table.values,
      conflictsWithAny (includedNodes w.store.nodes) r = false)
    (hcalls : calls.map Prod.fst = w.store.nodes.keys) :
    ((w.advance later).run (reconcileAll settings b)).1 = .ok () ∧
      ((w.advance later).run (reconcileAll settings b)).2.scene.Alike
        (w.afterAttempts settings b calls).scene := by
  cases hc : settings.configureRoutes with
  | false =>
    obtain ⟨millis, hafter⟩ := World.afterAttempts_of_not_configured hc b w calls
    rw [reconcileAll, hc, hafter]
    exact ⟨rfl, Scene.alike_of_nodes rfl rfl rfl rfl⟩
  | true =>
    have hnames : calls.map Prod.fst = w.store.nodes.values.map Node.name := by
      rw [hcalls, hstore.keys_eq]
    have hawaits : w.scene.Awaits w.gateway.table w.store.nodes.values :=
      ⟨htable, fun _ _ hr => hr, fun n hn => hstore.get?_of_mem hn⟩
    have hstart : (w.advance later).scene.Awaits w.gateway.table w.store.nodes.values :=
      ⟨hawaits.routes, hawaits.kept, hawaits.stored⟩
    have halike : (w.advance later).scene.Alike w.scene := Scene.alike_of_nodes rfl rfl rfl rfl
    obtain ⟨t, hsync, hagree⟩ := Comes.syncNodes_alike hc hsteps htable hnames
      hstore.pairwise_values hcalm halike hstart hawaits
    have hdrop := Comes.dropConflicts_of_free (s := (w.advance later).scene) hfree
    obtain ⟨hok, hscene, -⟩ := (Comes.reconcileAll hc (Comes.syncRoutes hdrop hsync)).run
      (hcalm.advance later)
    rw [hscene]
    exact ⟨hok, hagree⟩

/-- Three nodes with one pod network, two of them on one instance; the listing shows none of the
routes that the pass makes. -/
def crowdedWorld : World where
  epoch := ⟨0, 0⟩
  gateway := { MemoryGateway.ofRoutes [Route.named "r-9" "10.244.9.0/24" "i-9"] with
    createReturnsNone := true }
  store := ((({} : NodeStore).add (Node.plain "n1" "10.244.1.0/24" "i-1")).add
    (Node.plain "n2" "10.244.1.7/24" "i-1")).add (Node.plain "n3" "10.244.1.0/24" "i-3")

theorem crowdedWorld_agrees :
    ((crowdedWorld.advance 60000).run (reconcileAll {} .standard)).1 = .ok () ∧
      ((crowdedWorld.advance 60000).run (reconcileAll {} .standard)).2.scene.Alike
        (crowdedWorld.afterAttempts {} .standard [("n1", 5), ("n2", 0), ("n3", 700)]).scene := by
  have hcalm : crowdedWorld.Calm := ⟨⟨rfl, rfl, rfl⟩, rfl⟩
  exact reconcileAll_agrees_with_attempts {} .standard crowdedWorld 60000
    [("n1", 5), ("n2", 0), ("n3", 700)] (by decide) hcalm (by decide +kernel) (by decide +kernel)
    (by decide +kernel) (by decide +kernel)

end PodRoutes
