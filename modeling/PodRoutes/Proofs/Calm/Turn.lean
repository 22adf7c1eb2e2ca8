import PodRoutes.Proofs.Reconcile.Settled

/-!
# A node's turn

What one attempt on a stored node makes of a calm scene, and that it makes the same of it with an
old listing of the table at hand as with none (`Comes.syncNode_listed`): a route that the listing
shows is still there, and one that it misses turns up as a refused create.
-/

namespace PodRoutes

namespace Scene

/-- The scene after the node's turn. -/
def turn (s : Scene) (n : Node) : Scene :=
  if n.skipReason?.isSome then s
  else
    match n.due? with
    | none => s.marked n false
    | some (instanceId, network) =>
      match s.table.get? network.text with
      | none =>
        ((s.withRoute instanceId network.text).remembering n.name
          (s.nextRoute instanceId network.text)).marked n true
      | some r =>
        if r.instanceId = instanceId then (s.remembering n.name r).marked n true
        else s.marked n false

/-- The scene without its record of writes. -/
def unlogged (s : Scene) : Scene := { s with writes := [], patches := [] }

variable {s : Scene} {n : Node} {instanceId : String} {network : Network} {r : Route}

theorem turn_of_skipped (hskip : n.skipReason?.isSome = true) : s.turn n = s := by
  rw [turn, if_pos hskip]

theorem turn_of_not_due (hskip : n.skipReason? = none) (hdue : n.due? = none) :
    s.turn n = s.marked n false := by
  rw [turn, hskip, hdue]
  rfl

theorem turn_of_free (hdue : n.due? = some (instanceId, network))
    (hfree : s.table.get? network.text = none) :
    s.turn n = ((s.withRoute instanceId network.text).remembering n.name
      (s.nextRoute instanceId network.text)).marked n true := by
  simp [turn, (Node.due?_eq_some.1 hdue).1, hdue, hfree]

theorem turn_of_owned (hdue : n.due? = some (instanceId, network))
    (hr : s.table.get? network.text = some r) (ho : r.instanceId = instanceId) :
    s.turn n = (s.remembering n.name r).marked n true := by
  simp [turn, (Node.due?_eq_some.1 hdue).1, hdue, hr, ho]

theorem turn_of_foreign (hdue : n.due? = some (instanceId, network))
    (hr : s.table.get? network.text = some r) (ho : r.instanceId ≠ instanceId) :
    s.turn n = s.marked n false := by
  simp [turn, (Node.due?_eq_some.1 hdue).1, hdue, hr, ho]

theorem isDuplicate_refusal (s : Scene) (destination : String) :
    (s.refusal destination).isDuplicate = true :=
  ({ duplicateAsMessage := s.duplicateAsMessage } : MemoryGateway).isDuplicate_duplicateError
    destination

end Scene

namespace Comes

variable {s t : Scene} {b : Backoff} {n : Node} {instanceId destination : String}
  {atHand : Option (List Route)} {r : Route} {network : Network}

/-! ### A destination that is taken -/

theorem adopt (hr : s.table.get? destination = some r) (instanceId : String) (e : RouteError) :
    Comes (Protocol.adopt instanceId destination e) s
      (if r.isOwnedBy instanceId then .ok r
        else .error (.ownedByOther destination r.instanceId instanceId)) s := by
  refine (findRoute destination s).bind ?_
  rw [hr]
  exact done _ _

theorem createHeld_of_taken (hb : 0 < b.steps) (hr : s.table.get? destination = some r)
    (instanceId : String) :
    Comes (Protocol.createHeld b instanceId destination) s
      (if r.isOwnedBy instanceId then .ok r
        else .error (.ownedByOther destination r.instanceId instanceId))
      (s.begin (.createRoute instanceId destination)) := by
  obtain ⟨left, hleft⟩ : ∃ left, b.steps = left + 1 := ⟨b.steps - 1, by omega⟩
  have htaken : (s.begin (.createRoute instanceId destination)).table.contains destination =
      true := by
    show s.table.contains destination = true
    rw [Table.contains, hr]
    rfl
  have hreply : s.reply (.createRoute instanceId destination) =
      (.error (s.refusal destination), s.begin (.createRoute instanceId destination)) := by
    rw [Scene.reply, Scene.effect, htaken]
    rfl
  have hr' : (s.begin (.createRoute instanceId destination)).table.get? destination = some r := hr
  rw [Protocol.createHeld, hleft, Protocol.attempts]
  refine ⟨rfl, ?_⟩
  rw [hreply]
  show Comes (if (s.refusal destination).isDuplicate then _ else _) _ _ _
  rw [if_pos (s.isDuplicate_refusal destination)]
  exact adopt hr' instanceId _

/-! ### The turn -/

/-- The route in the table decides, whichever way it was found. -/
theorem syncNode_of_taken {found : Route → EnsuredRoute} {e : RouteError}
    (hfound : ∀ q, (found q).route = q) (hdue : n.due? = some (instanceId, network))
    (hn : t.nodes.get? n.name = some n) (hr : t.table.get? network.text = some r)
    (hensure : Comes (Protocol.ensure b instanceId network.text atHand) s
      (if r.isOwnedBy instanceId then .ok (found r) else .error e) t) :
    ∃ x, Comes (Reconcile.syncNode b n atHand) s x (t.turn n) := by
  have hi := (Node.due?_eq_some.1 hdue).2.2
  by_cases ho : r.instanceId = instanceId
  · have howned : r.isOwnedBy instanceId = true := by simp [Route.isOwnedBy_iff, ho]
    rw [if_pos howned] at hensure
    have hadd := addRoute_of_ensured hi hensure
    rw [hfound] at hadd
    rw [Scene.turn_of_owned hdue hr ho]
    exact ⟨_, syncNode_of_addRoute hdue hadd hn⟩
  · have hother : ¬r.isOwnedBy instanceId = true := by simp [Route.isOwnedBy_iff, ho]
    rw [if_neg hother] at hensure
    rw [Scene.turn_of_foreign hdue hr ho]
    exact ⟨_, syncNode_of_failed hdue (addRoute_of_failed hi hensure) hn⟩

theorem syncNode_of_shown (hb : 0 < b.steps) (hs : s.table.KeyedBy Route.destination)
    (hdue : n.due? = some (instanceId, network)) (hn : s.nodes.get? n.name = some n)
    (hfind : Comes (Protocol.find network.text atHand) s (.ok (s.table.get? network.text)) s) :
    ∃ x, Comes (Reconcile.syncNode b n atHand) s x (s.turn n) := by
  cases hr : s.table.get? network.text with
  | none =>
    have hfree : s.table.contains network.text = false := by
      rw [Table.contains, hr]
      rfl
    rw [hr] at hfind
    have hadd := addRoute_of_free hb (Node.due?_eq_some.1 hdue).2.2 hfind hfree
    rw [Scene.turn_of_free hdue hr]
    exact ⟨_, syncNode_of_addRoute hdue hadd hn⟩
  | some r =>
    rw [hr] at hfind
    exact syncNode_of_taken (fun _ => rfl) hdue hn hr
      (ensure_of_shown hfind (hs _ _ hr) instanceId)

theorem syncNode_of_missed (hb : 0 < b.steps) (hdue : n.due? = some (instanceId, network))
    (hn : s.nodes.get? n.name = some n) (hr : s.table.get? network.text = some r)
    (hfind : Comes (Protocol.find network.text atHand) s (.ok none) s) :
    ∃ x, Comes (Reconcile.syncNode b n atHand) s x
      ((s.begin (.createRoute instanceId network.text)).turn n) := by
  have hensure := ensure_of_missed hfind (createHeld_of_taken hb hr instanceId)
  rw [apply_ite (Except.map EnsuredRoute.created)] at hensure
  exact syncNode_of_taken (fun _ => rfl) hdue hn hr hensure

theorem syncNode_of_idle (b : Backoff) (atHand : Option (List Route)) (hdue : n.due? = none)
    (hn : s.nodes.get? n.name = some n) :
    ∃ x, Comes (Reconcile.syncNode b n atHand) s x (s.turn n) := by
  cases hskip : n.skipReason? with
  | some reason =>
    have hskip : n.skipReason?.isSome = true := by simp [hskip]
    rw [Scene.turn_of_skipped hskip]
    exact ⟨_, syncNode_of_skipped hskip⟩
  | none =>
    rw [Scene.turn_of_not_due hskip hdue]
    exact syncNode_of_not_due b atHand hskip hdue hn

theorem syncNode_fresh (hb : 0 < b.steps) (hs : s.table.KeyedBy Route.destination)
    (hn : s.nodes.get? n.name = some n) :
    ∃ x, Comes (Reconcile.syncNode b n none) s x (s.turn n) := by
  cases hdue : n.due? with
  | none => exact syncNode_of_idle b none hdue hn
  | some due =>
    obtain ⟨instanceId, network⟩ := due
    exact syncNode_of_shown hb hs hdue hn (find_table network.text_ne_empty rfl s)

/-- An old listing of a table that has only grown since does no harm. -/
theorem syncNode_listed {listed : Table Route} (hb : 0 < b.steps)
    (hlisted : listed.KeyedBy Route.destination) (hs : s.table.KeyedBy Route.destination)
    (hgrown : ∀ c r, listed.get? c = some r → s.table.get? c = some r)
    (hn : s.nodes.get? n.name = some n) :
    ∃ (x : Outcome Unit) (u : Scene),
      Comes (Reconcile.syncNode b n (some listed.values)) s x (u.turn n) ∧
      u.unlogged = s.unlogged := by
  cases hdue : n.due? with
  | none =>
    obtain ⟨x, hx⟩ := syncNode_of_idle b (some listed.values) hdue hn
    exact ⟨x, s, hx, rfl⟩
  | some due =>
    obtain ⟨instanceId, network⟩ := due
    cases hvalues : listed.values with
    | nil =>
      have hfind : Comes (Protocol.find network.text (some [])) s
          (.ok (s.table.get? network.text)) s := find_table network.text_ne_empty rfl s
      obtain ⟨x, hx⟩ := syncNode_of_shown hb hs hdue hn hfind
      exact ⟨x, s, hx, rfl⟩
    | cons q rest =>
      have hfind := find_atHand network.text_ne_empty q rest s
      have hshown : Route.find? (q :: rest) network.text = listed.get? network.text := by
        rw [← hvalues]
        exact hlisted.find?_values network.text
      rw [hshown] at hfind
      cases hold : listed.get? network.text with
      | some r =>
        rw [hold, ← hgrown _ _ hold] at hfind
        obtain ⟨x, hx⟩ := syncNode_of_shown hb hs hdue hn hfind
        exact ⟨x, s, hx, rfl⟩
      | none =>
        rw [hold] at hfind
        cases hnew : s.table.get? network.text with
        | none =>
          rw [← hnew] at hfind
          obtain ⟨x, hx⟩ := syncNode_of_shown hb hs hdue hn hfind
          exact ⟨x, s, hx, rfl⟩
        | some r =>
          obtain ⟨x, hx⟩ := syncNode_of_missed hb hdue hn hnew hfind
          exact ⟨x, _, hx, rfl⟩

theorem reconcile_stored {settings : Settings} (hc : settings.configureRoutes = true)
    (hb : 0 < b.steps) (hs : s.table.KeyedBy Route.destination)
    (hn : s.nodes.get? n.name = some n) :
    Comes (Reconcile.reconcile settings b n.name) s (.ok ()) (s.turn n) := by
  obtain ⟨x, hx⟩ := syncNode_fresh hb hs hn
  rw [Reconcile.reconcile, if_pos hc]
  refine ⟨rfl, ?_⟩
  show Comes (match (Except.ok (s.nodes.get? n.name) : Outcome (Option Node)) with
    | .error e => Program.done (.error e)
    | .ok none => Reconcile.removeRoute n.name
    | .ok (some node) => Reconcile.reconcileStored b node) _ _ _
  rw [hn]
  refine hx.bind ?_
  cases x with
  | ok u => exact done _ _
  | error e => exact ⟨rfl, done _ _⟩

end Comes

end PodRoutes
