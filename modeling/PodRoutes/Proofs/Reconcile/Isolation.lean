import PodRoutes.Proofs.Calm.Turn
import PodRoutes.Proofs.Interleaving.Alone
import PodRoutes.Proofs.Interleaving.Engine
import PodRoutes.Proofs.Interleaving.NodeRequests
import PodRoutes.Proofs.Reconcile.Converges
import PodRoutes.Proofs.World.History
import PodRoutes.Proofs.World.Prompt

/-!
# One node's trouble is its own

In a prompt world a full pass goes on to its end, whatever fails for single nodes: creates for
refused destinations, deletes of routes in conflict, attempts that are cut off between two creates.
Every other node that is due a route gets it and says so. What comes before and after a node's own
turn takes no route away and leaves the node alone (`World.Extends`).
-/

namespace PodRoutes

open Control Reconcile

/-! ### The conflicts -/

namespace World

/-- What the listings and deletions of a pass leave as it was. -/
structure Drops (w v : World) : Prop where
  prompt : v.Prompt
  refused : v.gateway.refused = w.gateway.refused
  routes : v.gateway.table.KeyedBy Route.destination
  store : v.store = w.store
  clock : v.clock = w.clock
  epoch : v.epoch = w.epoch

variable {u v w : World}

theorem Drops.trans (h : u.Drops v) (h' : v.Drops w) : u.Drops w where
  prompt := h'.prompt
  refused := h'.refused.trans h.refused
  routes := h'.routes
  store := h'.store.trans h.store
  clock := h'.clock.trans h.clock
  epoch := h'.epoch.trans h.epoch

theorem drops_delete (hw : w.Prompt) (hroutes : w.gateway.table.KeyedBy Route.destination)
    (destination : String) : w.Drops (w.run (Protocol.delete destination)).2 := by
  have hrun : (w.run (Protocol.delete destination)).2 = (w.reply (.deleteRoute destination)).2 :=
    rfl
  obtain ⟨hprompt, hrefused⟩ := hw.reply (.deleteRoute destination)
  rw [hrun]
  refine ⟨hprompt, hrefused, routes_effect hroutes (.deleteRoute destination), rfl, ?_, rfl⟩
  show w.clock + w.latency.delete = w.clock
  rw [hw.latency]
  rfl

/-- A failed delete leaves its route in the table and in the list. -/
theorem run_deleteConflicting (doomed : List Route) (hw : w.Prompt)
    (hroutes : w.gateway.table.KeyedBy Route.destination) :
    ∃ v, w.run (deleteConflicting doomed w.gateway.table.values) = (v.gateway.table.values, v) ∧
      w.Drops v := by
  induction doomed generalizing w with
  | nil => exact ⟨w, rfl, hw, rfl, hroutes, rfl, rfl, rfl⟩
  | cons r rest ih =>
    obtain ⟨hanswer, hgateway⟩ := run_delete w r.destination
    have hdrops := drops_delete hw hroutes r.destination
    rw [deleteConflicting, run_bind, hanswer]
    generalize (w.run (Protocol.delete r.destination)).2 = u at hgateway hdrops ⊢
    rcases w.gateway.delete_cases r.destination with ⟨⟨e, he⟩, hsame⟩ | ⟨hok, herased⟩
    · rw [he]
      rw [← hgateway] at hsame
      obtain ⟨v, hv, hrest⟩ := ih hdrops.prompt hdrops.routes
      rw [hsame] at hv
      exact ⟨v, hv, hdrops.trans hrest⟩
    · rw [hok]
      rw [← hgateway] at herased
      have hleft : (w.gateway.table.values.filter fun q => q.destination ≠ r.destination) =
          u.gateway.table.values := by
        rw [herased, hroutes.values_erase]
      have hevicted : w.Drops (u.run (evict r.destination)).2 :=
        ⟨⟨hdrops.prompt.latency, hdrops.prompt.failures, hdrops.prompt.storeFailures⟩,
          hdrops.refused, hdrops.routes, hdrops.store, hdrops.clock, hdrops.epoch⟩
      obtain ⟨v, hv, hrest⟩ := ih hevicted.prompt hevicted.routes
      refine ⟨v, ?_, hevicted.trans hrest⟩
      rw [← hv]
      show (u.run (evict r.destination)).2.run (deleteConflicting rest
        (w.gateway.table.values.filter fun q => q.destination ≠ r.destination)) = _
      rw [hleft]
      rfl

theorem run_dropConflicts (hw : w.Prompt)
    (hroutes : w.gateway.table.KeyedBy Route.destination) :
    ∃ v, w.run dropConflicts = (.ok (includedNodes w.store.nodes, v.gateway.table.values), v) ∧
      w.Drops v := by
  have hlist : w.gateway.failures.list = [] := congrArg CallFailures.list hw.failures
  have hnodes : (w.run listNodes).1 = .ok w.store.nodes.values := by
    show w.store.list.1 = _
    rw [NodeStore.list, hw.storeFailures]
  have hlisted : ((w.run listNodes).2.run Protocol.listAll).1 = .ok w.gateway.table.values := by
    show w.gateway.list.1 = _
    rw [MemoryGateway.list, hlist]
    rfl
  have hdrops : w.Drops ((w.run listNodes).2.run Protocol.listAll).2 := by
    obtain ⟨hprompt, hrefused⟩ := hw.reply .listNodes
    obtain ⟨hprompt', hrefused'⟩ := hprompt.reply .listRoutes
    have hstore : w.store.list.2 = w.store := by rw [NodeStore.list, hw.storeFailures]
    refine ⟨hprompt', hrefused'.trans hrefused, routes_effect (routes_effect hroutes .listNodes)
      .listRoutes, hstore, ?_, rfl⟩
    show w.clock + w.latency.listNodes + w.latency.list = w.clock
    rw [hw.latency]
    rfl
  have htable : ((w.run listNodes).2.run Protocol.listAll).2.gateway.table = w.gateway.table :=
    w.gateway.table_list
  rw [dropConflicts, run_bind, hnodes]
  show ∃ v, (w.run listNodes).2.run (Protocol.listAll >>= _) = _ ∧ _
  rw [run_bind, hlisted]
  generalize ((w.run listNodes).2.run Protocol.listAll).2 = u at hdrops htable ⊢
  obtain ⟨v, hv, hrest⟩ := run_deleteConflicting (w.gateway.table.values.filter
    (conflictsWithAny (includedNodes w.store.nodes))) hdrops.prompt hdrops.routes
  rw [htable] at hv
  refine ⟨v, ?_, hdrops.trans hrest⟩
  show u.run (deleteConflicting (w.gateway.table.values.filter
    (conflictsWithAny (includedNodes w.store.nodes))) w.gateway.table.values >>= _) = _
  rw [run_bind, hv]
  rfl

end World

theorem Only.prompt_deleteConflicting {doomed listed : List Route} :
    Only (fun r => r.isPrompt = true) (Reconcile.deleteConflicting doomed listed) := by
  induction doomed generalizing listed with
  | nil => exact Only.done _
  | cons r rest ih =>
    refine Only.bind (Only.locked (Only.ask rfl) rfl rfl) fun x => ?_
    cases x with
    | error e => exact ih
    | ok u => exact Only.askThen rfl fun _ => ih

theorem Only.prompt_dropConflicts : Only (fun r => r.isPrompt = true) Reconcile.dropConflicts := by
  refine Only.askThen rfl fun x => ?_
  cases x with
  | error e => exact Only.done _
  | ok stored =>
    refine Only.askThen rfl fun y => ?_
    cases y with
    | error e => exact Only.done _
    | ok listed => exact Only.bind Only.prompt_deleteConflicting fun _ => Only.done _

/-! ### The turns of other nodes -/

namespace World

/-- What requests for some nodes leave as it was. -/
structure Extends (v : World) (nodes : List Node) (w : World) : Prop where
  prompt : w.Prompt
  refused : w.gateway.refused = v.gateway.refused
  routes : w.gateway.table.KeyedBy Route.destination
  kept : ∀ c r, v.gateway.table.get? c = some r → w.gateway.table.get? c = some r
  made : ∀ c r, w.gateway.table.get? c = some r → v.gateway.table.get? c = some r ∨
    ∃ m ∈ nodes, m.dueRoute? = some (r.instanceId, c)
  untouched : ∀ name, (∀ m ∈ nodes, m.name ≠ name) →
    w.store.nodes.get? name = v.store.nodes.get? name
  clock : v.clock ≤ w.clock
  epoch : w.epoch = v.epoch

variable {v w : World} {nodes : List Node} {r : Request}

theorem Prompt.extends (hv : v.Prompt) (hroutes : v.gateway.table.KeyedBy Route.destination)
    (nodes : List Node) : v.Extends nodes v :=
  ⟨hv, rfl, hroutes, fun _ _ h => h, fun _ _ h => Or.inl h, fun _ _ => rfl, Nat.le_refl _, rfl⟩

theorem Extends.reply (h : v.Extends nodes w) (hr : ∃ m ∈ nodes, m.MayAsk r) :
    v.Extends nodes (w.reply r).2 := by
  obtain ⟨m, hm, hmay⟩ := hr
  obtain ⟨hprompt, hrefused⟩ := h.prompt.reply r
  have hgateway : ((w.begin r).advance (w.wait r)).gateway = w.gateway := w.gateway_begin r
  have hstore : ((w.begin r).advance (w.wait r)).store = w.store := w.store_begin r
  have hroutes : ((w.begin r).advance (w.wait r)).gateway.table.KeyedBy Route.destination := by
    rw [hgateway]
    exact h.routes
  refine ⟨hprompt, hrefused.trans h.refused, routes_effect hroutes r, ?_, ?_, ?_, ?_, ?_⟩
  · intro c q hq
    have hne : r ≠ .deleteRoute c := by
      rintro rfl
      exact hmay
    refine keeps_route hne ?_
    rw [hgateway]
    exact h.kept c q hq
  · intro c q hq
    by_cases hold : w.gateway.table.get? c = some q
    · exact h.made c q hold
    · rw [← hgateway] at hold
      have hcreate := created_of_effect hq hold
      rw [hcreate] at hmay
      exact Or.inr ⟨m, hm, hmay⟩
  · intro name hname
    have hne : ∀ edit scope, r ≠ .patchNode name edit scope := by
      rintro edit scope rfl
      exact hname m hm (Eq.symm hmay)
    have hsame := get?_nodes_effect (w := (w.begin r).advance (w.wait r)) hne
    rw [hstore] at hsame
    exact hsame.trans (h.untouched name hname)
  · rw [World.reply, clock_effect]
    have hclock := w.clock_begin r
    have hlater := h.clock
    show v.clock ≤ (w.begin r).clock + w.wait r
    omega
  · rw [World.reply, epoch_effect]
    exact (w.epoch_begin r).trans h.epoch

theorem Extends.late (h : v.Extends nodes w) (r : Request) (time : Nat) :
    v.Extends nodes ((w.begin r).advanceTo time) := by
  have hgateway : ((w.begin r).advanceTo time).gateway = w.gateway := w.gateway_begin r
  have hstore : ((w.begin r).advanceTo time).store = w.store := w.store_begin r
  refine ⟨h.prompt.advanceTo r time, ?_, ?_, ?_, ?_, ?_, ?_, (w.epoch_begin r).trans h.epoch⟩
  · rw [hgateway]
    exact h.refused
  · rw [hgateway]
    exact h.routes
  · rw [hgateway]
    exact h.kept
  · rw [hgateway]
    exact h.made
  · rw [hstore]
    exact h.untouched
  · have hclock := w.clock_begin r
    have hlater := h.clock
    show v.clock ≤ max (w.begin r).clock time
    omega

theorem Prompt.extends_run {α : Type} {p : Control α} (hv : v.Prompt)
    (hroutes : v.gateway.table.KeyedBy Route.destination)
    (h : Only (fun r => ∃ m ∈ nodes, m.MayAsk r) p) : v.Extends nodes (v.run p).2 :=
  run_preserves h (fun _ _ hr hw => hw.reply hr) (fun _ r deadline _ hw => hw.late r deadline)
    (hv.extends hroutes nodes)

theorem Extends.date_le (h : v.Extends nodes w) : v.date ≤ w.date := by
  rw [date, date, h.epoch]
  exact Instant.addMillis_le_addMillis _ h.clock

end World

/-! ### The node's own turn -/

namespace Scene

variable {s : Scene} {n : Node} {instanceId : String} {network : Network}

/-- Unless another instance has its destination, the node ends with its route and says so. -/
theorem serves_turn (hdue : n.due? = some (instanceId, network))
    (hn : s.nodes.get? n.name = some n)
    (hown : ∀ r, s.table.get? network.text = some r → r.instanceId = instanceId) :
    (∃ r, (s.turn n).table.get? network.text = some r ∧ r.instanceId = instanceId) ∧
      (s.turn n).nodes.get? n.name = some (n.marked true s.date) := by
  have hmarked : ∀ u : Scene, u.nodes = s.nodes → u.date = s.date →
      (u.marked n true).nodes.get? n.name = some (n.marked true s.date) := by
    intro u hnodes hdate
    rw [get?_nodes_marked (by rw [hnodes, hn]), if_pos rfl, hdate]
  cases hr : s.table.get? network.text with
  | none =>
    rw [turn_of_free hdue hr, table_marked]
    exact ⟨⟨_, Table.get?_insert_self _ _ _, rfl⟩, hmarked _ rfl rfl⟩
  | some r =>
    rw [turn_of_owned hdue hr (hown r hr), table_marked]
    exact ⟨⟨r, hr, hown r hr⟩, hmarked _ rfl rfl⟩

end Scene

theorem Node.MayAsk.unrefused {n : Node} {instanceId destination : String} {refused : List String}
    (hdue : n.dueRoute? = some (instanceId, destination)) (hfree : destination ∉ refused)
    {r : Request} (h : n.MayAsk r) : r.Unrefused refused := by
  cases r with
  | createRoute i c =>
    have hsame : n.dueRoute? = some (i, c) := h
    rw [hdue] at hsame
    cases hsame
    exact hfree
  | deleteRoute c => exact h
  | _ => trivial

namespace World

variable {v w : World} {n : Node} {instanceId : String} {network : Network} {b : Backoff}
  {listed : Table Route}

theorem serves_syncNode (hb : 0 < b.steps) (hdue : n.due? = some (instanceId, network))
    (hw : w.Prompt) (hroutes : w.gateway.table.KeyedBy Route.destination)
    (hlisted : listed.KeyedBy Route.destination)
    (hkept : ∀ c r, listed.get? c = some r → w.gateway.table.get? c = some r)
    (hn : w.store.nodes.get? n.name = some n) (hfree : network.text ∉ w.gateway.refused)
    (hown : ∀ r, w.gateway.table.get? network.text = some r → r.instanceId = instanceId)
    (limit : Nat) :
    (∃ r, (w.run (within limit (syncNode b n (some listed.values)))).2.gateway.table.get?
        network.text = some r ∧ r.instanceId = instanceId) ∧
      (w.run (within limit (syncNode b n (some listed.values)))).2.store.nodes.get? n.name =
        some (n.marked true w.date) := by
  have hdueRoute := Node.dueRoute?_of_due hdue
  have honly : Only (Request.Unrefused w.gateway.refused)
      (within limit (syncNode b n (some listed.values))) :=
    (Only.syncNode.mono fun r hr => hr.unrefused hdueRoute hfree).within trivial trivial limit
  obtain ⟨x, u, hx, hu⟩ := Comes.syncNode_listed hb hlisted (s := w.scene) hroutes hkept hn
  have hnodes := congrArg Scene.nodes hu
  have htable := congrArg Scene.table hu
  have hdate : u.date = w.date := by
    have hclock := congrArg Scene.clock hu
    have hepoch := congrArg Scene.epoch hu
    rw [Scene.date, show u.clock = w.clock from hclock, show u.epoch = w.epoch from hepoch]
    rfl
  obtain ⟨-, hscene⟩ := (hx.within limit).run_prompt honly hw
  rw [← hdate]
  have hserves := Scene.serves_turn (s := u) hdue
    (by rw [show u.nodes = w.store.nodes from hnodes, hn])
    (by rw [show u.table = w.gateway.table from htable]; exact hown)
  rw [← hscene] at hserves
  exact hserves

end World

/-! ### All nodes in turn -/

theorem syncNodes_append (settings : Settings) (b : Backoff) (atHand : List Route)
    (before after : List Node) :
    syncNodes settings b atHand (before ++ after) =
      syncNodes settings b atHand before >>= fun _ => syncNodes settings b atHand after := by
  induction before with
  | nil => rfl
  | cons n rest ih =>
    show (within settings.timeout (syncNode b n (some atHand)) >>= fun _ =>
      syncNodes settings b atHand (rest ++ after)) = _
    rw [ih, syncNodes, Program.bind_assoc]

namespace World

variable {settings : Settings} {b : Backoff} {v w : World} {n : Node} {instanceId : String}
  {network : Network} {before after : List Node}

theorem Extends.owned (h : v.Extends before w) (hdue : n.due? = some (instanceId, network))
    (hapart : ∀ m ∈ before, m.ApartFrom n)
    (hown : ∀ r, v.gateway.table.get? network.text = some r → r.instanceId = instanceId)
    {r : Route} (hr : w.gateway.table.get? network.text = some r) : r.instanceId = instanceId := by
  rcases h.made _ _ hr with hold | ⟨m, hm, hmade⟩
  · exact hown r hold
  · obtain ⟨⟨i, other⟩, hother, he⟩ := Option.map_eq_some_iff.1 hmade
    have htext : other.text = network.text := congrArg Prod.snd he
    have hnetwork := (Node.due?_eq_some.1 hdue).2.1
    have hdisjoint := hapart m hm _ _ (Node.due?_eq_some.1 hother).2.1 hnetwork
    exact absurd htext hdisjoint.text_ne

/-- Neither the nodes before it nor those after it keep a node from its route. -/
theorem serves_syncNodes (hb : 0 < b.steps) (hdue : n.due? = some (instanceId, network))
    (hv : v.Prompt) (hroutes : v.gateway.table.KeyedBy Route.destination)
    (hn : v.store.nodes.get? n.name = some n)
    (hnames : (before ++ n :: after).Pairwise fun m n => m.name ≠ n.name)
    (hapart : ∀ m ∈ before, m.ApartFrom n) (hfree : network.text ∉ v.gateway.refused)
    (hown : ∀ r, v.gateway.table.get? network.text = some r → r.instanceId = instanceId)
    (hw : (v.run (syncNodes settings b v.gateway.table.values (before ++ n :: after))).2 = w) :
    (∃ r, w.gateway.table.get? network.text = some r ∧ r.destination = network.text ∧
        r.instanceId = instanceId) ∧
      ∃ date, v.date ≤ date ∧ w.store.nodes.get? n.name = some (n.marked true date) := by
  obtain ⟨-, hlater, hearlier⟩ := List.pairwise_append.1 hnames
  have hbefore : ∀ m ∈ before, m.name ≠ n.name := fun m hm => hearlier m hm n List.mem_cons_self
  have hafter : ∀ m ∈ after, m.name ≠ n.name := fun m hm =>
    ((List.pairwise_cons.1 hlater).1 m hm).symm
  rw [syncNodes_append, run_bind, syncNodes, run_bind] at hw
  have hothers : ∀ nodes, Only (fun r => ∃ m ∈ nodes, m.MayAsk r)
      (syncNodes settings b v.gateway.table.values nodes) := fun nodes => Only.syncNodes
  have hself : Only (fun r => ∃ m ∈ [n], m.MayAsk r)
      (within settings.timeout (syncNode b n (some v.gateway.table.values))) := by
    refine (Only.syncNode.mono fun r hr => ?_).within ?_ ?_ _
    · exact ⟨n, List.mem_singleton_self n, hr⟩
    · exact ⟨n, List.mem_singleton_self n, trivial⟩
    · exact ⟨n, List.mem_singleton_self n, trivial⟩
  have h₁ := hv.extends_run hroutes (hothers before)
  generalize (v.run (syncNodes settings b v.gateway.table.values before)).2 = v₁ at h₁ hw
  have hn₁ : v₁.store.nodes.get? n.name = some n := (h₁.untouched n.name hbefore).trans hn
  have hfree₁ : network.text ∉ v₁.gateway.refused := by
    rw [h₁.refused]
    exact hfree
  have hserves := serves_syncNode hb hdue h₁.prompt h₁.routes hroutes h₁.kept hn₁ hfree₁
    (fun r hr => h₁.owned hdue hapart hown hr) settings.timeout
  have h₂ := h₁.prompt.extends_run h₁.routes hself
  generalize (v₁.run (within settings.timeout
    (syncNode b n (some v.gateway.table.values)))).2 = v₂ at hserves h₂ hw
  obtain ⟨⟨r, hr, ho⟩, hmarked⟩ := hserves
  have h₃ := h₂.prompt.extends_run h₂.routes (hothers after)
  rw [hw] at h₃
  have hr₃ := h₃.kept _ _ hr
  exact ⟨⟨r, hr₃, h₃.routes _ _ hr₃, ho⟩, v₁.date, h₁.date_le,
    (h₃.untouched n.name hafter).trans hmarked⟩

end World

/-! ### The pass -/

theorem World.run_reconcileAll {settings : Settings} {b : Backoff} {w : World}
    (hc : settings.configureRoutes = true) (hw : w.Prompt)
    (hroutes : w.gateway.table.KeyedBy Route.destination) :
    w.Drops (w.run dropConflicts).2 ∧ (w.run (reconcileAll settings b)).1 = .ok () ∧
      ∃ v, v = ((w.run dropConflicts).2.run (syncNodes settings b
          (w.run dropConflicts).2.gateway.table.values (includedNodes w.store.nodes))).2 ∧
        (w.run (reconcileAll settings b)).2.gateway = v.gateway ∧
        (w.run (reconcileAll settings b)).2.store = v.store := by
  obtain ⟨u, hu, hdrops⟩ := run_dropConflicts hw hroutes
  have hwithin := run_within Only.prompt_dropConflicts hw.latency settings.timeout
  rw [hu] at hwithin ⊢
  have hsync : w.run (syncRoutes settings b) = (.ok (), (u.run (syncNodes settings b
      u.gateway.table.values (includedNodes w.store.nodes))).2) := by
    rw [syncRoutes, run_bind, hwithin]
    show u.run (syncNodes settings b u.gateway.table.values (includedNodes w.store.nodes) >>=
      fun _ => (pure (Except.ok ()) : Control (Outcome Unit))) = _
    rw [run_bind]
    rfl
  have hpass : w.run (reconcileAll settings b) =
      (.ok (), ((w.run (syncRoutes settings b)).2.run (observe .reconcile w.clock)).2) := by
    rw [reconcileAll, if_pos hc]
    show w.run (syncRoutes settings b >>= _) = _
    rw [run_bind, hsync]
    rfl
  rw [hpass, hsync]
  exact ⟨hdrops, rfl, _, rfl, rfl, rfl⟩

/-- A full pass ends well, and every node that is due a route has it afterwards and says so, unless
its own creates are refused or another instance has kept its destination. -/
theorem reconcileAll_serves_others (settings : Settings) (b : Backoff) (w : World)
    (hroutes : settings.configureRoutes = true) (hsteps : 0 < b.steps) (hprompt : w.Prompt)
    (htable : w.gateway.table.KeyedBy Route.destination)
    (hstore : w.store.nodes.KeyedBy Node.name)
    (hapart : PodNetworksApart (includedNodes w.store.nodes))
    (hahead : ∀ n ∈ includedNodes w.store.nodes,
      n.conditions.countP (Condition.isAhead w.date) ≤ 1) :
    (∃ bound, ∀ steps, bound ≤ steps → w.runAll steps [reconcileAll settings b] =
      ([some (.ok ())], (w.run (reconcileAll settings b)).2)) ∧
    ∀ n ∈ w.store.nodes.values, n.skipReason? = none → ∀ network instanceId,
      n.ipv4PodNetwork = .ok (some network) → n.instanceId? = some instanceId →
      network.text ∉ w.gateway.refused →
      (∀ r, (w.run dropConflicts).2.gateway.table.get? network.text = some r →
        r.instanceId = instanceId) →
      ∃ r m, (w.run (reconcileAll settings b)).2.gateway.table.get? network.text = some r ∧
        r.destination = network.text ∧ r.instanceId = instanceId ∧
        (w.run (reconcileAll settings b)).2.store.nodes.get? n.name = some m ∧
        m.metadata = n.metadata ∧ m.spec = n.spec ∧
        (m.condition? Node.networkUnavailableType).map Condition.status = some "False" := by
  obtain ⟨hdrops, hok, v, hv, hgateway, hnodes⟩ := World.run_reconcileAll hroutes hprompt htable
  constructor
  · obtain ⟨bound, hbound⟩ := World.runAll_alone (Guarded.reconcileAll (b := b)) w
    refine ⟨bound, fun steps hm => ?_⟩
    rw [hbound steps hm, hok]
  · intro n hn hskip network instanceId hnetwork hi hfree hown
    have hdue : n.due? = some (instanceId, network) := Node.due?_eq_some.2 ⟨hskip, hnetwork, hi⟩
    have hincluded : n ∈ includedNodes w.store.nodes :=
      mem_includedNodes.2 ⟨hn, Node.isExcluded_of_not_skipped hskip⟩
    have hnames : (includedNodes w.store.nodes).Pairwise fun m n => m.name ≠ n.name :=
      hstore.pairwise_values.filter _
    have hahead := hahead n hincluded
    generalize hu : (w.run dropConflicts).2 = u at hdrops hv hown
    have hn : u.store.nodes.get? n.name = some n := by
      rw [hdrops.store]
      exact hstore.get?_of_mem hn
    have hfree : network.text ∉ u.gateway.refused := by
      rw [hdrops.refused]
      exact hfree
    obtain ⟨before, after, hsplit⟩ := List.append_of_mem hincluded
    rw [hsplit] at hv hnames hapart
    have hother : ∀ m ∈ before, m.ApartFrom n := by
      intro m hm
      have hne : m.name ≠ n.name :=
        (List.pairwise_append.1 hnames).2.2 m hm n List.mem_cons_self
      exact hapart m (by simp [hm]) n (by simp) fun e => hne (e ▸ rfl)
    obtain ⟨⟨r, hr, hd, ho⟩, date, hlater, hm⟩ := World.serves_syncNodes hsteps hdue hdrops.prompt
      hdrops.routes hn hnames hother hfree hown hv.symm
    have hdate : w.date ≤ date := by
      have hsame : u.date = w.date := by rw [World.date, World.date, hdrops.clock, hdrops.epoch]
      rw [← hsame]
      exact hlater
    have hfewer : n.conditions.countP (Condition.isAhead date) ≤
        n.conditions.countP (Condition.isAhead w.date) :=
      List.countP_mono_left fun c _ hc => Condition.isAhead_of_later hdate hc
    have hcount : n.conditions.countP (Condition.isAhead date) ≤ 1 := by omega
    refine ⟨r, n.marked true date, ?_, hd, ho, ?_, by simp, by simp, ?_⟩
    · rw [hgateway]
      exact hr
    · rw [hnodes]
      exact hm
    · have hcurrent := Node.networkConditionIsCurrent_marked hcount true
      exact Node.status_of_networkConditionIsCurrent hcurrent

/-- The creates for the first node are refused, and its second pause would end after its deadline.
The route in the second node's way stays, since its delete fails; the one in the third's goes. -/
def troubledWorld : World where
  epoch := ⟨0, 0⟩
  gateway := { MemoryGateway.ofRoutes [Route.named "r-2" "10.244.2.0/24" "i-old",
      Route.named "r-3" "10.244.3.0/24" "i-old"] with
    failures.delete := [.gateway "503"]
    refused := ["10.244.1.0/24"] }
  store := ((({} : NodeStore).add (Node.plain "n1" "10.244.1.0/24" "i-1")).add
    (Node.plain "n2" "10.244.2.0/24" "i-2")).add (Node.plain "n3" "10.244.3.0/24" "i-3")

def hastySettings : Settings := { timeout := 8000 }

def thirdNetwork : Network := ⟨.ofOctets 10 244 3 0, 24, by decide⟩

theorem third_node_is_served :
    (∃ bound, ∀ steps, bound ≤ steps →
      troubledWorld.runAll steps [reconcileAll hastySettings .standard] =
        ([some (.ok ())], (troubledWorld.run (reconcileAll hastySettings .standard)).2)) ∧
    ∃ r m, (troubledWorld.run (reconcileAll hastySettings .standard)).2.gateway.table.get?
        thirdNetwork.text = some r ∧ r.destination = thirdNetwork.text ∧ r.instanceId = "i-3" ∧
      (troubledWorld.run (reconcileAll hastySettings .standard)).2.store.nodes.get? "n3" = some m ∧
      m.metadata = (Node.plain "n3" "10.244.3.0/24" "i-3").metadata ∧
      m.spec = (Node.plain "n3" "10.244.3.0/24" "i-3").spec ∧
      (m.condition? Node.networkUnavailableType).map Condition.status = some "False" := by
  have hprompt : troubledWorld.Prompt := ⟨rfl, rfl, rfl⟩
  obtain ⟨hends, hserves⟩ := reconcileAll_serves_others hastySettings .standard troubledWorld rfl
    (by decide) hprompt (by decide +kernel) (by decide +kernel) (by decide +kernel)
    (by decide +kernel)
  have hgone : (troubledWorld.run dropConflicts).2.gateway.table.get? thirdNetwork.text = none := by
    decide +kernel
  refine ⟨hends, ?_⟩
  refine hserves (Node.plain "n3" "10.244.3.0/24" "i-3") (by decide +kernel) (by decide +kernel)
    thirdNetwork "i-3" (by decide +kernel) (by decide +kernel) (by decide +kernel) ?_
  intro r hr
  rw [hgone] at hr
  cases hr

end PodRoutes
