import PodRoutes.Proofs.Interleaving.NodeRequests
import PodRoutes.Proofs.Network.Disjoint
import PodRoutes.Proofs.Surroundings.Reliable
import PodRoutes.Proofs.World.Prompt

/-!
# What a node says of its route

An attempt on a stored node ends by saying on the node whether it has its route. It says so on the
strength of the call that was to ensure the route, so a node that is said to be served has its route
in the table, and one that is not has no pod network, no instance, or had that call fail. A call
that fails need not mean that there is no route; it does unless a lookup failed.
-/

namespace PodRoutes

open Control Reconcile

/-! ### What the calls for a route leave as it was -/

/-- The request is about neither the stored nodes nor the cache. -/
def Control.Request.sparesNodes : Request → Bool
  | .getNode _ | .listNodes | .patchNode _ _ _ => false
  | .cachedRoute _ | .remember _ _ | .forget _ | .evict _ => false
  | _ => true

theorem NodeStore.patch_of_stored {s : NodeStore} {name : String} {n : Node} (hs : s.failures = {})
    (hn : s.nodes.get? name = some n) (edit : Node → Node) :
    s.patch name edit = (.ok (), { s with nodes := s.nodes.insert name (edit n) }) := by
  simp [patch, hs, hn]

namespace World

/-- The stored nodes and the cache stay, and time passes. -/
structure Leaves (v w : World) : Prop where
  store : w.store = v.store
  cache : w.cache = v.cache
  epoch : w.epoch = v.epoch
  clock : v.clock ≤ w.clock

variable {v w : World} {r : Request} {b : Backoff} {n : Node} {instanceId : String}
  {network : Network}

theorem Leaves.refl (w : World) : w.Leaves w := ⟨rfl, rfl, rfl, Nat.le_refl _⟩

theorem Leaves.date_le (h : v.Leaves w) : v.date ≤ w.date := by
  rw [date, date, h.epoch]
  exact Instant.addMillis_le_addMillis _ h.clock

theorem spares_effect (w : World) (hr : r.sparesNodes = true) :
    (w.effect r).2.store = w.store ∧ (w.effect r).2.cache = w.cache := by
  cases r with
  | getNode name => cases hr
  | listNodes => cases hr
  | patchNode name edit scope => cases hr
  | cachedRoute name => cases hr
  | remember name route => cases hr
  | forget name => cases hr
  | evict c => cases hr
  | _ => exact ⟨rfl, rfl⟩

theorem Leaves.begin (h : v.Leaves w) (r : Request) (millis : Nat) :
    v.Leaves ((w.begin r).advance millis) where
  store := (w.store_begin r).trans h.store
  cache := (w.cache_begin r millis).trans h.cache
  epoch := (w.epoch_begin r).trans h.epoch
  clock := by
    have hclock := w.clock_begin r
    have hlater := h.clock
    show v.clock ≤ (w.begin r).clock + millis
    omega

theorem Leaves.reply (h : v.Leaves w) (hr : r.sparesNodes = true) : v.Leaves (w.reply r).2 := by
  have hu := h.begin r (w.wait r)
  rw [World.reply]
  generalize (w.begin r).advance (w.wait r) = u at hu ⊢
  obtain ⟨hstore, hcache⟩ := spares_effect u hr
  refine ⟨hstore.trans hu.store, hcache.trans hu.cache, (u.epoch_effect r).trans hu.epoch, ?_⟩
  rw [clock_effect]
  exact hu.clock

theorem Leaves.late (h : v.Leaves w) (r : Request) (time : Nat) :
    v.Leaves ((w.begin r).advanceTo time) where
  store := (w.store_begin r).trans h.store
  cache := (w.cache_advanceTo r time).trans h.cache
  epoch := (w.epoch_begin r).trans h.epoch
  clock := by
    have hclock := w.clock_begin r
    have hlater := h.clock
    show v.clock ≤ max (w.begin r).clock time
    omega

theorem leaves_run {α : Type} {p : Control α} (h : Only (fun r => r.sparesNodes = true) p) :
    w.Leaves (w.run p).2 :=
  run_preserves h (fun _ _ hr hw => hw.reply hr) (fun _ r deadline _ hw => hw.late r deadline)
    (Leaves.refl w)

/-! ### The call that ensures the route -/

theorem leaves_ensure (c : String) : w.Leaves (w.run (Protocol.ensure b instanceId c none)).2 := by
  refine leaves_run (Protocol.only_ensure.mono fun r hr => ?_)
  cases r with
  | createRoute i c => rfl
  | findRoute c => rfl
  | lock => rfl
  | unlock => rfl
  | pause millis => rfl
  | draw => rfl
  | _ => exact hr.elim

/-- A call that succeeds leaves a route of the instance to the destination. -/
theorem route_of_ensure {c : String} (hw : w.gateway.table.KeyedBy Route.destination)
    {x : EnsuredRoute} (hx : (w.run (Protocol.ensure b instanceId c none)).1 = .ok x) :
    ∃ r, (w.run (Protocol.ensure b instanceId c none)).2.gateway.table.get? c = some r ∧
      r.destination = c ∧ r.instanceId = instanceId := by
  obtain ⟨t, hrun⟩ := ends_run (D := SameTable) (fun _ _ h => h.sameTable)
    (Protocol.ensure b instanceId c none) w
  have hplaces := truthful_changing.meets_ensure.ends hrun
  rw [hx] at hplaces
  obtain ⟨hr, hi⟩ := hplaces.entry x.route rfl
  exact ⟨x.route, hr, routes_run hw _ c x.route hr, hi⟩

/-- Without a failing lookup a call that fails leaves none. -/
theorem lacks_of_ensure (hw : w.gateway.table.KeyedBy Route.destination)
    (hfind : w.gateway.failures.find = []) {e : RouteError}
    (he : (w.run (Protocol.ensure b instanceId network.text none)).1 = .error e) :
    Lacks instanceId network.text
      (w.run (Protocol.ensure b instanceId network.text none)).2.gateway.table := by
  obtain ⟨t, hrun⟩ := ends_run_reliable hfind (Protocol.ensure b instanceId network.text none)
  exact (reliable_changing.meets_ensure network.text_ne_empty fun r hr => hw _ r hr).ends hrun
    ⟨e, he⟩

/-! ### Saying it on the node -/

/-- The node was marked, at some later time. -/
structure Marks (v : World) (n : Node) (routeCreated : Bool) (w : World) : Prop where
  gateway : w.gateway = v.gateway
  cache : w.cache = v.cache
  node : ∃ date, v.date ≤ date ∧
    w.store.nodes.get? n.name = some (n.marked routeCreated date)

theorem run_patchNode (hs : w.store.failures = {}) {name : String}
    (hn : w.store.nodes.get? name = some n) (edit : NodeEdit) (scope : PatchScope) :
    ∃ v, w.run (patchNode name edit scope) = (.ok (), v) ∧ v.gateway = w.gateway ∧
      v.cache = w.cache ∧ ∃ date, w.date ≤ date ∧
        v.store.nodes.get? name = some (edit date n) := by
  have hu := (Leaves.refl w).begin (.patchNode name edit scope)
    (w.wait (.patchNode name edit scope))
  have hgateway : ((w.begin (.patchNode name edit scope)).advance
      (w.wait (.patchNode name edit scope))).gateway = w.gateway := rfl
  have hrun : w.run (patchNode name edit scope) =
      ((w.begin (.patchNode name edit scope)).advance (w.wait (.patchNode name edit scope))).effect
        (.patchNode name edit scope) := rfl
  rw [hrun]
  generalize (w.begin (.patchNode name edit scope)).advance _ = u at hu hgateway ⊢
  rw [← hu.store] at hs hn
  rw [effect, NodeStore.patch_of_stored hs hn]
  exact ⟨_, rfl, hgateway, hu.cache, u.date, hu.date_le, Table.get?_insert_self _ _ _⟩

theorem marks_updateCondition (hs : w.store.failures = {})
    (hn : w.store.nodes.get? n.name = some n) (routeCreated : Bool) :
    w.Marks n routeCreated (w.run (updateCondition n routeCreated)).2 := by
  rw [updateCondition]
  cases hc : n.networkConditionIsCurrent routeCreated with
  | true =>
    -- the node says so already, and no patch is sent
    have hmarked : n.marked routeCreated w.date = n := by rw [Node.marked, if_pos hc]
    refine ⟨rfl, rfl, w.date, (Leaves.refl w).date_le, ?_⟩
    rw [hmarked]
    exact hn
  | false =>
    obtain ⟨v, hv, hgateway, hcache, date, hlater, hnode⟩ :=
      run_patchNode hs hn (Node.setNetworkCondition routeCreated) .status
    have hmarked : n.marked routeCreated date = Node.setNetworkCondition routeCreated date n := by
      rw [Node.marked, hc]
      rfl
    have hrun : (w.run (patchCondition n.name routeCreated patchAttempts
        (.internal (.noPatchAttempt n.name)))).2 = v := by
      rw [patchAttempts, patchCondition, run_bind, hv]
      rfl
    show w.Marks n routeCreated (w.run (patchCondition _ _ _ _)).2
    rw [hrun]
    refine ⟨hgateway, hcache, date, hlater, ?_⟩
    rw [hmarked]
    exact hnode

theorem run_markUnavailable {α : Type} (w : World) (n : Node) (a : α) :
    (w.run (do markUnavailable n; return a)).2 = (w.run (updateCondition n false)).2 := by
  rw [run_bind, markUnavailable, run_bind]
  rfl

/-! ### The attempt -/

/-- How an attempt goes on from the call that ensures the route. -/
structure Adds (w : World) (name : String) (u : Outcome EnsuredRoute × World)
    (v : Outcome Unit × World) : Prop where
  gateway : v.2.gateway = u.2.gateway
  store : v.2.store = w.store
  later : w.date ≤ v.2.date
  ok : ∀ x, u.1 = .ok x → v.1 = .ok () ∧ v.2.cache.contains name = true
  error : ∀ e, u.1 = .error e → v.1 = .error e

theorem adds_addRoute (hi : n.instanceId? = some instanceId) (c : String) :
    w.Adds n.name (w.run (Protocol.ensure b instanceId c none)) (w.run (addRoute b n c none)) := by
  have hleaves : w.Leaves (w.run (Protocol.ensure b instanceId c none)).2 := leaves_ensure c
  have hremembered : ∀ (v : World) (r : Route),
      (v.cache.insertNew n.name r).contains n.name = true := by
    intro v r
    simp [Table.contains, Table.get?_insertNew]
  rw [addRoute, hi]
  simp only [run_bind, run_now]
  generalize w.run (Protocol.ensure b instanceId c none) = u at hleaves ⊢
  obtain ⟨x, v⟩ := u
  have hlater : w.date ≤ v.date := hleaves.date_le
  have hneither : ∀ (e : RouteError) (x : EnsuredRoute),
      (.error e : Outcome EnsuredRoute) ≠ .ok x := fun e x he => by cases he
  rcases x with e | ⟨r⟩ | ⟨r⟩
  · have hfailed : ∀ e', (Except.error e : Outcome EnsuredRoute) = .error e' →
        (.error e : Outcome Unit) = .error e' := by
      intro e' he
      cases he
      rfl
    cases e with
    | lookup c' cause =>
      simp only [run_bind, run_record, run_pure]
      exact ⟨rfl, hleaves.store, hlater, fun x hx => absurd hx (hneither _ x), hfailed⟩
    | _ =>
      simp only [run_bind, run_observe, run_record, run_pure]
      exact ⟨rfl, hleaves.store, hlater, fun x hx => absurd hx (hneither _ x), hfailed⟩
  · simp only [run_bind, run_remember, run_pure]
    exact ⟨rfl, hleaves.store, hlater, fun x _ => ⟨rfl, hremembered v r⟩,
      fun e he => absurd he.symm (hneither e _)⟩
  · simp only [run_bind, run_observe, run_record, run_remember, run_pure]
    exact ⟨rfl, hleaves.store, hlater, fun x _ => ⟨rfl, hremembered _ r⟩,
      fun e he => absurd he.symm (hneither e _)⟩

/-- The table holds the route that the node is due. -/
def HasRoute (w : World) (n : Node) : Prop :=
  ∃ instanceId network r, n.due? = some (instanceId, network) ∧
    w.gateway.table.get? network.text = some r ∧ r.destination = network.text ∧
    r.instanceId = instanceId

/-- Why a node that is not skipped gets no route. -/
inductive Misses (b : Backoff) (w : World) (n : Node) : Prop
  | noNetwork (h : n.ipv4PodNetwork = .ok none)
  | unreadable (e : RouteError) (h : n.ipv4PodNetwork = .error e)
  | noInstance (h : n.instanceId? = none)
  | failed (instanceId : String) (network : Network) (e : RouteError)
    (hdue : n.due? = some (instanceId, network))
    (h : (w.run (Protocol.ensure b instanceId network.text none)).1 = .error e)

theorem run_syncNode_of_not_due (hskip : n.skipReason? = none) (hdue : n.due? = none) :
    w.Misses b n ∧
      (w.run (syncNode b n none)).2 = (w.run (updateCondition n false)).2 := by
  rw [syncNode, hskip]
  cases hnet : n.ipv4PodNetwork with
  | error e =>
    exact ⟨.unreadable e hnet, run_markUnavailable w n _⟩
  | ok network? =>
    cases network? with
    | none =>
      exact ⟨.noNetwork hnet, run_markUnavailable w n _⟩
    | some network =>
      cases hi : n.instanceId? with
      | some i =>
        rw [Node.due?_eq_some.2 ⟨hskip, hnet, hi⟩] at hdue
        cases hdue
      | none =>
        refine ⟨.noInstance hi, ?_⟩
        show (w.run (addRoute b n network.text none >>= _)).2 = _
        rw [addRoute, hi]
        exact run_markUnavailable w n _

theorem run_syncNode_of_due (hdue : n.due? = some (instanceId, network)) {u : Outcome Unit × World}
    (hu : w.run (addRoute b n network.text none) = u) :
    (w.run (syncNode b n none)).2 = (u.2.run (updateCondition n u.1.isOk)).2 := by
  obtain ⟨hskip, hnet, hi⟩ := Node.due?_eq_some.1 hdue
  rw [syncNode, hskip, hnet]
  show (w.run (addRoute b n network.text none >>= _)).2 = _
  rw [run_bind, hu]
  obtain ⟨x, v⟩ := u
  cases x with
  | ok a => rfl
  | error e => exact run_markUnavailable v n _

/-- What the node is told, and on what grounds. -/
structure Tells (b : Backoff) (w : World) (n : Node) (routeCreated : Bool) (v : World) : Prop where
  node : ∃ date, w.date ≤ date ∧ v.store.nodes.get? n.name = some (n.marked routeCreated date)
  served : routeCreated = true → v.HasRoute n ∧ v.cache.contains n.name = true
  missed : routeCreated = false → w.Misses b n ∧ (w.gateway.failures.find = [] → ¬v.HasRoute n)

theorem tells_of_not_due (hskip : n.skipReason? = none) (hdue : n.due? = none)
    (hs : w.store.failures = {}) (hn : w.store.nodes.get? n.name = some n) :
    w.Tells b n false (w.run (syncNode b n none)).2 := by
  obtain ⟨hmisses, hrun⟩ := run_syncNode_of_not_due (w := w) (b := b) hskip hdue
  rw [hrun]
  refine ⟨(marks_updateCondition hs hn false).node, nofun, fun _ => ⟨hmisses, ?_⟩⟩
  rintro - ⟨i, network, r, hi, -⟩
  rw [hdue] at hi
  cases hi

theorem tells_of_due (hdue : n.due? = some (instanceId, network)) (hs : w.store.failures = {})
    (hn : w.store.nodes.get? n.name = some n) (hw : w.gateway.table.KeyedBy Route.destination) :
    ∃ routeCreated, w.Tells b n routeCreated (w.run (syncNode b n none)).2 := by
  have hi := (Node.due?_eq_some.1 hdue).2.2
  have hadds := adds_addRoute (w := w) (b := b) hi network.text
  rw [run_syncNode_of_due (w := w) (b := b) hdue rfl]
  generalize w.run (addRoute b n network.text none) = u at hadds ⊢
  rw [← hadds.store] at hs hn
  obtain ⟨hgateway, hcache, date, hlater, hnode⟩ := marks_updateCondition hs hn u.1.isOk
  have hdate : w.date ≤ date := Instant.le_trans hadds.later hlater
  have htable := congrArg MemoryGateway.table (hgateway.trans hadds.gateway)
  cases hx : (w.run (Protocol.ensure b instanceId network.text none)).1 with
  | ok x =>
    obtain ⟨hok, hcached⟩ := hadds.ok x hx
    obtain ⟨r, hr, hd, ho⟩ := route_of_ensure hw hx
    rw [hok] at hnode htable hcache ⊢
    refine ⟨true, ⟨date, hdate, hnode⟩,
      fun _ => ⟨⟨instanceId, network, r, hdue, ?_, hd, ho⟩, ?_⟩, nofun⟩
    · rw [← hr]
      exact congrArg (·.get? network.text) htable
    · rw [← hcached]
      exact congrArg (·.contains n.name) hcache
  | error e =>
    rw [hadds.error e hx] at hnode htable ⊢
    refine ⟨false, ⟨date, hdate, hnode⟩, nofun, fun _ => ⟨.failed instanceId network e hdue hx, ?_⟩⟩
    rintro hfind ⟨i, network', r, hi', hr, -, ho⟩
    rw [hdue] at hi'
    cases hi'
    refine lacks_of_ensure hw hfind hx r ?_ ho
    rw [← hr]
    exact (congrArg (·.get? network.text) htable).symm

theorem Tells.congr {routeCreated : Bool} {u : World} (h : v.Tells b n routeCreated u)
    (hstore : w.store = u.store) (hgateway : w.gateway = u.gateway) (hcache : w.cache = u.cache) :
    v.Tells b n routeCreated w := by
  have hroute : w.HasRoute n ↔ u.HasRoute n := by rw [HasRoute, HasRoute, hgateway]
  constructor
  · rw [hstore]
    exact h.node
  · rw [hroute, hcache]
    exact h.served
  · rw [hroute]
    exact h.missed

theorem tells_reconcileStored (hskip : n.skipReason? = none) (hs : w.store.failures = {})
    (hn : w.store.nodes.get? n.name = some n) (hw : w.gateway.table.KeyedBy Route.destination) :
    ∃ routeCreated, w.Tells b n routeCreated (w.run (reconcileStored b n)).2 := by
  have hsync : ∃ routeCreated, w.Tells b n routeCreated (w.run (syncNode b n none)).2 := by
    cases hdue : n.due? with
    | none => exact ⟨false, tells_of_not_due hskip hdue hs hn⟩
    | some due => exact tells_of_due hdue hs hn hw
  obtain ⟨routeCreated, htells⟩ := hsync
  refine ⟨routeCreated, ?_⟩
  rw [reconcileStored, run_bind]
  cases (w.run (syncNode b n none)).1 with
  | ok u => exact htells
  | error e => exact htells.congr rfl rfl rfl

/-! ### The report -/

/-- The status of the network condition that counts on a stored node. -/
def networkStatus? (w : World) (name : String) : Option String :=
  ((w.store.nodes.get? name).bind fun n => n.condition? Node.networkUnavailableType).map
    Condition.status

/-- After an attempt that began in the world `w`, the node tells the truth about its route. -/
structure ReportsTruly (b : Backoff) (n : Node) (w after : World) : Prop where
  stored : ∃ m, after.store.nodes.get? n.name = some m ∧ m.metadata = n.metadata ∧ m.spec = n.spec
  told : after.networkStatus? n.name = some "False" ∧ after.HasRoute n ∧
      after.cache.contains n.name = true ∨
    after.networkStatus? n.name = some "True" ∧ (w.run (getNode n.name)).2.Misses b n
  iff_hasRoute : w.gateway.failures.find = [] →
    (after.networkStatus? n.name = some "False" ↔ after.HasRoute n)

theorem networkStatus?_of_marked {date : Instant} {routeCreated : Bool}
    (hnode : w.store.nodes.get? n.name = some (n.marked routeCreated date))
    (hahead : n.conditions.countP (Condition.isAhead date) ≤ 1) :
    w.networkStatus? n.name = some (Node.networkStatus routeCreated) := by
  rw [networkStatus?, hnode]
  exact Node.status_of_networkConditionIsCurrent (Node.networkConditionIsCurrent_marked hahead _)

theorem run_getNode (hs : w.store.failures = {}) (name : String) :
    ∃ v, w.run (getNode name) = (.ok (w.store.nodes.get? name), v) ∧ w.Leaves v ∧
      v.gateway = w.gateway ∧ v.gatewayCalls = w.gatewayCalls := by
  have hget : w.store.get name = (.ok (w.store.nodes.get? name), w.store) := by
    simp [NodeStore.get, hs]
  refine ⟨(w.run (getNode name)).2, Prod.ext ?_ rfl, ⟨?_, rfl, rfl, Nat.le_add_right _ _⟩, rfl, rfl⟩
  · show (w.store.get name).1 = _
    rw [hget]
  · exact congrArg Prod.snd hget

/-- The attempt wrote nothing and made no call of the gateway. -/
structure Spared (w after : World) : Prop where
  store : after.store = w.store
  cache : after.cache = w.cache
  gateway : after.gateway = w.gateway
  calls : after.gatewayCalls = w.gatewayCalls

/-- Whatever goes wrong with its route, a node says after an attempt whether it has one; a node that
is skipped is left alone. -/
theorem reconcile_reports_truly (settings : Settings) (b : Backoff) (w : World) (name : String)
    (n : Node) (hkeyed : w.Keyed) (hstore : w.store.failures = {})
    (hn : w.store.nodes.get? name = some n) :
    (settings.configureRoutes = false ∨ n.skipReason?.isSome = true →
      w.Spared (w.run (reconcile settings b name)).2) ∧
    (settings.configureRoutes = true → n.skipReason? = none →
      n.conditions.countP (Condition.isAhead w.date) ≤ 1 →
      ReportsTruly b n w (w.run (reconcile settings b name)).2) := by
  obtain ⟨v, hget, hleaves, hgateway, hcalls⟩ := run_getNode hstore name
  rw [hn] at hget
  have hrun : settings.configureRoutes = true →
      w.run (reconcile settings b name) = v.run (reconcileStored b n) := by
    intro hc
    rw [reconcile, if_pos hc, run_bind, hget]
  constructor
  · rintro hidle
    cases hc : settings.configureRoutes with
    | false =>
      rw [reconcile, hc]
      exact ⟨rfl, rfl, rfl, rfl⟩
    | true =>
      have hskip : n.skipReason?.isSome = true := by simpa [hc] using hidle
      have hskipped : v.run (reconcileStored b n) = (.ok (), v) := by
        rw [reconcileStored, syncNode, if_pos hskip]
        rfl
      rw [hrun hc, hskipped]
      exact ⟨hleaves.store, hleaves.cache, hgateway, hcalls⟩
  · intro hc hskip hahead
    obtain ⟨rfl⟩ : n.name = name := hkeyed.nodes name n hn
    rw [hrun hc]
    have hsv : v.store.failures = {} := by rw [hleaves.store, hstore]
    have hnv : v.store.nodes.get? n.name = some n := by rw [hleaves.store, hn]
    have hroutes : v.gateway.table.KeyedBy Route.destination := by
      rw [hgateway]
      exact hkeyed.routes
    obtain ⟨routeCreated, ⟨date, hlater, hnode⟩, hserved, hmissed⟩ :=
      tells_reconcileStored (b := b) hskip hsv hnv hroutes
    rw [hgateway] at hmissed
    have hdate : w.date ≤ date := Instant.le_trans hleaves.date_le hlater
    -- time passes until the node is marked, so no more conditions are ahead of it then
    have hfewer : n.conditions.countP (Condition.isAhead date) ≤
        n.conditions.countP (Condition.isAhead w.date) :=
      List.countP_mono_left fun c _ hc => Condition.isAhead_of_later hdate hc
    have hstatus := networkStatus?_of_marked hnode (Nat.le_trans hfewer hahead)
    refine ⟨⟨_, hnode, by simp, by simp⟩, ?_, ?_⟩
    · cases routeCreated with
      | true =>
        obtain ⟨hroute, hcached⟩ := hserved rfl
        exact Or.inl ⟨hstatus, hroute, hcached⟩
      | false =>
        refine Or.inr ⟨hstatus, ?_⟩
        rw [hget]
        exact (hmissed rfl).1
    · intro hfind
      rw [hstatus]
      cases routeCreated with
      | true => exact ⟨fun _ => (hserved rfl).1, fun _ => rfl⟩
      | false =>
        have hnone := (hmissed rfl).2 hfind
        exact ⟨fun h => absurd h (by decide), fun h => absurd h hnone⟩

/-- The node has an old condition and one from the future, both saying that it has no network. -/
def doubtfulNode : Node :=
  let unavailable (second : Int) : Condition :=
    { type := Node.networkUnavailableType, status := "True", heartbeat := some ⟨second, 0⟩ }
  { Node.plain "n1" "10.244.1.7/24" "i-1" with
    status := some { conditions := some [unavailable (-60), unavailable 3600] } }

/-- The first create fails, and the next one gives no route back. -/
def doubtfulWorld : World where
  epoch := ⟨0, 0⟩
  latency := { create := 20 }
  gateway := {
    failures := { create := [.gateway "503"] }
    refused := ["10.244.2.0/24"]
    createReturnsNone := true }
  store := ({} : NodeStore).add doubtfulNode

theorem doubtful_node_reports_truly :
    ReportsTruly .standard doubtfulNode doubtfulWorld
        (doubtfulWorld.run (reconcile {} .standard "n1")).2 ∧
      (doubtfulWorld.run (reconcile {} .standard "n1")).2.networkStatus? "n1" = some "False" := by
  have hkeyed : doubtfulWorld.Keyed := ⟨by decide +kernel, by decide +kernel⟩
  have hreports := (reconcile_reports_truly {} .standard doubtfulWorld "n1" doubtfulNode hkeyed rfl
    (by decide +kernel)).2 rfl (by decide +kernel) (by decide +kernel)
  exact ⟨hreports, by decide +kernel⟩

end World

end PodRoutes
