import PodRoutes.Proofs.Calm.Turn
import PodRoutes.Proofs.Reconcile.Converges
import PodRoutes.Proofs.World.Prompt

/-!
# A second attempt on the same name

Whatever an attempt finds, it leaves nothing to do for its name. The route that it made is the
instance's own, the name that it remembered stays remembered, and the condition that it patched is
current, also where another instance has the destination. A name whose node is gone has lost its
route and its entry. So the next attempt asks for no write (`reconcile_idempotent`).
-/

namespace PodRoutes

open Reconcile

namespace Scene

variable {s t : Scene} {n : Node} {name : String}

/-! ### A node at rest -/

/-- Nothing is left to do for a stored node. -/
inductive Rests (s : Scene) (n : Node) : Prop
  | skipped (hskip : n.skipReason?.isSome = true)
  | idle (hskip : n.skipReason? = none) (hdue : n.due? = none)
    (hcurrent : n.networkConditionIsCurrent false = true)
  | served {instanceId : String} {network : Network} {r : Route}
    (hdue : n.due? = some (instanceId, network)) (hr : s.table.get? network.text = some r)
    (ho : r.instanceId = instanceId) (hcache : s.cache.contains n.name = true)
    (hcurrent : n.networkConditionIsCurrent true = true)
  /-- Another instance has the destination. -/
  | refused {instanceId : String} {network : Network} {r : Route}
    (hdue : n.due? = some (instanceId, network)) (hr : s.table.get? network.text = some r)
    (ho : r.instanceId ≠ instanceId) (hcurrent : n.networkConditionIsCurrent false = true)

theorem Rests.congr (h : s.Rests n) (htable : t.table = s.table) (hcache : t.cache = s.cache) :
    t.Rests n := by
  cases h with
  | skipped hskip => exact .skipped hskip
  | idle hskip hdue hcurrent => exact .idle hskip hdue hcurrent
  | served hdue hr ho hkept hcurrent =>
    exact .served hdue (htable ▸ hr) ho (hcache ▸ hkept) hcurrent
  | refused hdue hr ho hcurrent => exact .refused hdue (htable ▸ hr) ho hcurrent

theorem Rests.turn_eq (h : s.Rests n) : s.turn n = s := by
  cases h with
  | skipped hskip => exact turn_of_skipped hskip
  | idle hskip hdue hcurrent =>
    rw [turn_of_not_due hskip hdue, Comes.marked_of_isCurrent hcurrent]
  | served hdue hr ho hcache hcurrent =>
    rw [turn_of_owned hdue hr ho, Comes.remembering_of_contains hcache,
      Comes.marked_of_isCurrent hcurrent]
  | refused hdue hr ho hcurrent =>
    rw [turn_of_foreign hdue hr ho, Comes.marked_of_isCurrent hcurrent]

theorem rests_marked_of_owned {instanceId : String} {network : Network} {r : Route}
    (hdue : n.due? = some (instanceId, network)) (hr : s.table.get? network.text = some r)
    (ho : r.instanceId = instanceId) (hcache : s.cache.contains n.name = true)
    (hahead : n.conditions.countP (Condition.isAhead s.date) ≤ 1) :
    (s.marked n true).Rests (n.marked true s.date) := by
  refine .served (by simpa using hdue) (by simpa using hr) ho ?_
    (Node.networkConditionIsCurrent_marked hahead true)
  rw [cache_marked, Node.name_marked]
  exact hcache

/-- After its turn a node is at rest. -/
theorem rests_turn (hn : s.nodes.get? n.name = some n)
    (hahead : n.conditions.countP (Condition.isAhead s.date) ≤ 1) :
    ∃ m, (s.turn n).nodes.get? n.name = some m ∧ m.name = n.name ∧ (s.turn n).Rests m := by
  have hmarked : ∀ (u : Scene) (routeCreated : Bool), u.nodes = s.nodes →
      (u.marked n routeCreated).nodes.get? n.name = some (n.marked routeCreated u.date) := by
    intro u routeCreated hnodes
    rw [get?_nodes_marked (hnodes ▸ hn), if_pos rfl]
  have hcurrent := fun routeCreated => Node.networkConditionIsCurrent_marked hahead routeCreated
  cases hskip : n.skipReason? with
  | some reason =>
    have hskip : n.skipReason?.isSome = true := by simp [hskip]
    rw [turn_of_skipped hskip]
    exact ⟨n, hn, rfl, .skipped hskip⟩
  | none =>
    cases hdue : n.due? with
    | none =>
      rw [turn_of_not_due hskip hdue]
      refine ⟨_, hmarked s false rfl, n.name_marked _ _, .idle ?_ (by simpa using hdue)
        (hcurrent false)⟩
      rw [Node.skipReason?_marked, hskip]
    | some due =>
      obtain ⟨instanceId, network⟩ := due
      cases hr : s.table.get? network.text with
      | none =>
        rw [turn_of_free hdue hr]
        refine ⟨_, hmarked _ true rfl, n.name_marked _ _, ?_⟩
        exact rests_marked_of_owned hdue (Table.get?_insert_self _ _ _) rfl
          (contains_remembering _ _ _) hahead
      | some r =>
        by_cases ho : r.instanceId = instanceId
        · rw [turn_of_owned hdue hr ho]
          refine ⟨_, hmarked _ true rfl, n.name_marked _ _, ?_⟩
          exact rests_marked_of_owned hdue hr ho (contains_remembering _ _ _) hahead
        · rw [turn_of_foreign hdue hr ho]
          exact ⟨_, hmarked s false rfl, n.name_marked _ _, .refused (by simpa using hdue)
            (by simpa using hr) ho (hcurrent false)⟩

/-! ### A name at rest -/

/-- The scene without the route that is cached for a name. -/
def withoutCached (s : Scene) (name : String) : Scene :=
  match s.cache.get? name with
  | none => s
  | some r => { s with
      table := s.table.erase r.destination
      cache := s.cache.erase name
      writes := s.writes ++ [.delete r.destination] }

/-- The scene after an attempt on a name. -/
def attempted (s : Scene) (name : String) : Scene :=
  match s.nodes.get? name with
  | some n => s.turn n
  | none => s.withoutCached name

/-- Nothing is left to do for a name. -/
def RestsAt (s : Scene) (name : String) : Prop :=
  match s.nodes.get? name with
  | some n => n.name = name ∧ s.Rests n
  | none => s.cache.get? name = none

theorem nodes_withoutCached (s : Scene) (name : String) :
    (s.withoutCached name).nodes = s.nodes := by
  rw [withoutCached]
  split <;> rfl

theorem get?_cache_withoutCached (s : Scene) (name : String) :
    (s.withoutCached name).cache.get? name = none := by
  rw [withoutCached]
  split
  · next hcache => exact hcache
  · rw [Table.get?_erase, if_pos rfl]

theorem RestsAt.congr (h : s.RestsAt name) (htable : t.table = s.table)
    (hcache : t.cache = s.cache) (hnodes : t.nodes = s.nodes) : t.RestsAt name := by
  rw [RestsAt, hnodes, hcache]
  rw [RestsAt] at h
  cases hn : s.nodes.get? name with
  | none => simpa only [hn] using h
  | some n =>
    simp only [hn] at h
    exact ⟨h.1, h.2.congr htable hcache⟩

theorem RestsAt.attempted_eq (h : s.RestsAt name) : s.attempted name = s := by
  rw [RestsAt] at h
  rw [attempted]
  cases hn : s.nodes.get? name with
  | none =>
    simp only [hn] at h
    simp only [withoutCached, h]
  | some n =>
    simp only [hn] at h
    exact h.2.turn_eq

/-- After an attempt on it a name is at rest. -/
theorem restsAt_attempted (hnames : s.nodes.KeyedBy Node.name)
    (hahead : ∀ n, s.nodes.get? name = some n →
      n.conditions.countP (Condition.isAhead s.date) ≤ 1) : (s.attempted name).RestsAt name := by
  rw [attempted]
  cases hn : s.nodes.get? name with
  | none =>
    rw [RestsAt, nodes_withoutCached, hn]
    exact s.get?_cache_withoutCached name
  | some n =>
    obtain rfl : n.name = name := hnames name n hn
    obtain ⟨m, hm, hname, hrests⟩ := rests_turn hn (hahead n hn)
    simp only [RestsAt, hm]
    exact ⟨hname, hrests⟩

end Scene

/-! ### The attempt -/

namespace Comes

variable {s : Scene} {settings : Settings} {b : Backoff} {name : String}

theorem removeRoute (name : String) (s : Scene) :
    Comes (Reconcile.removeRoute name) s (.ok ()) (s.withoutCached name) := by
  have hreply : s.reply (.cachedRoute name) = (s.cache.get? name, s) := rfl
  rw [Scene.withoutCached]
  refine ⟨rfl, ?_⟩
  rw [hreply]
  cases s.cache.get? name with
  | none => exact done _ _
  | some r => exact ⟨rfl, rfl, rfl, rfl, rfl, rfl, done _ _⟩

theorem reconcile_attempted (hc : settings.configureRoutes = true) (hb : 0 < b.steps)
    (hs : s.table.KeyedBy Route.destination)
    (hnames : ∀ n, s.nodes.get? name = some n → n.name = name) :
    Comes (reconcile settings b name) s (.ok ()) (s.attempted name) := by
  rw [Scene.attempted]
  cases hn : s.nodes.get? name with
  | none =>
    have hreply : s.reply (.getNode name) = (.ok (s.nodes.get? name), s) := rfl
    rw [reconcile, if_pos hc]
    refine ⟨rfl, ?_⟩
    rw [hreply, hn]
    exact removeRoute name s
  | some n =>
    obtain rfl := hnames n hn
    exact reconcile_stored hc hb hs hn

end Comes

/-! ### The world -/

/-- What two attempts come to of which the second has nothing to do. -/
structure Repetition (first second : Outcome Unit × World) : Prop where
  ok : first.1 = .ok ()
  again : second.1 = .ok ()
  writes : second.2.writes = first.2.writes
  patches : second.2.patches = first.2.patches
  table : second.2.gateway.table = first.2.gateway.table
  cache : second.2.cache = first.2.cache
  store : second.2.store = first.2.store

/-- In calm surroundings an attempt on a name, whatever it finds, leaves nothing to do for a later
one on the same name. -/
theorem reconcile_idempotent (settings : Settings) (b : Backoff) (w : World) (name : String)
    (later : Nat) (hsteps : 0 < b.steps) (hcalm : w.Calm)
    (htable : w.gateway.table.KeyedBy Route.destination)
    (hstore : w.store.nodes.KeyedBy Node.name)
    (hahead : ∀ n, w.store.nodes.get? name = some n →
      n.conditions.countP (Condition.isAhead w.date) ≤ 1) :
    Repetition (w.run (reconcile settings b name))
        (((w.run (reconcile settings b name)).2.advance later).run (reconcile settings b name)) ∧
      (settings.configureRoutes = true →
        (w.run (reconcile settings b name)).2.scene = w.scene.attempted name) := by
  cases hc : settings.configureRoutes with
  | false =>
    have hidle : ∀ v : World, v.run (reconcile settings b name) = (.ok (), v) := by
      intro v
      rw [reconcile, hc]
      rfl
    rw [hidle, hidle]
    exact ⟨⟨rfl, rfl, rfl, rfl, rfl, rfl, rfl⟩, fun h => absurd h Bool.false_ne_true⟩
  | true =>
    have hfirst := Comes.reconcile_attempted (s := w.scene) hc hsteps htable (hstore name)
    obtain ⟨hok, hscene, hcalm'⟩ := hfirst.run hcalm
    have htable' := World.routes_run htable (reconcile settings b name)
    have hrests : (w.scene.attempted name).RestsAt name := Scene.restsAt_attempted hstore hahead
    generalize w.run (reconcile settings b name) = first at hok hscene hcalm' htable' ⊢
    rw [← hscene] at hrests
    have hrests' : (first.2.advance later).scene.RestsAt name := hrests.congr rfl rfl rfl
    have hnames : ∀ n, (first.2.advance later).scene.nodes.get? name = some n → n.name = name := by
      intro n hn
      rw [Scene.RestsAt, hn] at hrests'
      exact hrests'.1
    have hsecond := Comes.reconcile_attempted (s := (first.2.advance later).scene) hc hsteps
      htable' hnames
    rw [hrests'.attempted_eq] at hsecond
    obtain ⟨hok', hscene', hcalm''⟩ := hsecond.run (hcalm'.advance later)
    refine ⟨⟨hok, hok', congrArg Scene.writes hscene', congrArg Scene.patches hscene',
      congrArg Scene.table hscene', congrArg Scene.cache hscene',
      World.Calm.store_eq hcalm'' hcalm' (congrArg Scene.nodes hscene')⟩, fun _ => hscene⟩

/-- Another instance has the node's destination, a route of its own is spelled oddly, and the cache
remembers an older one. -/
def contestedWorld : World where
  epoch := ⟨0, 0⟩
  gateway := .ofRoutes [Route.named "r-1" "10.244.1.0/24" "i-2",
    Route.named "r-2" "10.244.1.7/24" "i-1"]
  store := ({} : NodeStore).add (Node.plain "n1" "10.244.1.7/24" "i-1")
  cache := Table.empty.insert "n1" (Route.named "r-9" "10.244.9.0/24" "i-1")

theorem contested_node_is_patched_once :
    Repetition (contestedWorld.run (reconcile {} .standard "n1"))
        (((contestedWorld.run (reconcile {} .standard "n1")).2.advance 0).run
          (reconcile {} .standard "n1")) ∧
      (contestedWorld.run (reconcile {} .standard "n1")).2.patches = ["n1"] := by
  have hcalm : contestedWorld.Calm := ⟨⟨rfl, rfl, rfl⟩, rfl⟩
  have hahead : ∀ n, contestedWorld.store.nodes.get? "n1" = some n →
      n.conditions.countP (Condition.isAhead contestedWorld.date) ≤ 1 := by
    intro n hn
    obtain rfl : Node.plain "n1" "10.244.1.7/24" "i-1" = n := Option.some.inj hn
    decide
  obtain ⟨hrepetition, -⟩ := reconcile_idempotent {} .standard contestedWorld "n1" 0 (by decide)
    hcalm (by decide +kernel) (by decide +kernel) hahead
  exact ⟨hrepetition, by decide +kernel⟩

end PodRoutes
