import PodRoutes.Proofs.Calm.Scene
import PodRoutes.Proofs.Network.Disjoint
import PodRoutes.Proofs.Node.Due
import PodRoutes.Reconcile.Node

/-!
# One node in a calm scene

What the programs for one node come to when nothing fails: the route is found or created in one
attempt, the condition is patched unless it is current, and a node without a route says so.
-/

namespace PodRoutes

namespace Scene

def remembering (s : Scene) (name : String) (route : Route) : Scene :=
  { s with cache := s.cache.insertNew name route }

def withRoute (s : Scene) (instanceId destination : String) : Scene :=
  (s.begin (.createRoute instanceId destination)).created instanceId destination

def marked (s : Scene) (n : Node) (routeCreated : Bool) : Scene :=
  if n.networkConditionIsCurrent routeCreated then s
  else { s with
    nodes := s.nodes.insert n.name (n.marked routeCreated s.date)
    patches := s.patches ++ [n.name] }

end Scene

namespace Comes

variable {s : Scene} {b : Backoff} {n : Node} {instanceId destination : String}

/-! ### The table -/

theorem findRoute (destination : String) (s : Scene) :
    Comes (Control.findRoute destination) s (.ok (s.table.get? destination)) s := ⟨rfl, rfl, rfl⟩

/-- A create for a free destination succeeds at the first attempt, whether or not it gives the
route back. -/
theorem createHeld (hb : 0 < b.steps) (hfree : s.table.contains destination = false)
    (instanceId : String) :
    Comes (Protocol.createHeld b instanceId destination) s
      (.ok (s.nextRoute instanceId destination)) (s.withRoute instanceId destination) := by
  obtain ⟨left, hleft⟩ : ∃ left, b.steps = left + 1 := ⟨b.steps - 1, by omega⟩
  have hreply : s.reply (.createRoute instanceId destination) =
      (.ok (if s.createReturnsNone then none else some (s.nextRoute instanceId destination)),
        s.withRoute instanceId destination) := by
    have hfree' : (s.begin (.createRoute instanceId destination)).table.contains destination =
        false := hfree
    rw [Scene.reply, Scene.effect, hfree']
    rfl
  rw [Protocol.createHeld, hleft, Protocol.attempts]
  refine ⟨rfl, ?_⟩
  rw [hreply]
  cases hnone : s.createReturnsNone with
  | false => exact done _ _
  | true =>
    have hget : (s.withRoute instanceId destination).table.get? destination =
        some (s.nextRoute instanceId destination) := Table.get?_insert_self _ _ _
    apply (findRoute destination _).bind
    rw [hget]
    exact done _ _

theorem find_atHand (hne : destination ≠ "") (r : Route) (rs : List Route) (s : Scene) :
    Comes (Protocol.find destination (some (r :: rs))) s
      (.ok (Route.find? (r :: rs) destination)) s := by
  rw [Protocol.find, if_neg hne]
  exact done _ _

theorem find_table {atHand : Option (List Route)} (hne : destination ≠ "")
    (hat : atHand.getD [] = []) (s : Scene) :
    Comes (Protocol.find destination atHand) s (.ok (s.table.get? destination)) s := by
  rcases atHand with _ | ⟨_ | ⟨r, rs⟩⟩
  · unfold Protocol.find
    rw [if_neg hne]
    exact findRoute destination s
  · unfold Protocol.find
    rw [if_neg hne]
    exact findRoute destination s
  · cases hat

/-- A route that the lookup shows is the instance's own or stands in its way. -/
theorem ensure_of_shown {atHand : Option (List Route)} {r : Route}
    (hfind : Comes (Protocol.find destination atHand) s (.ok (some r)) s)
    (hd : r.destination = destination) (instanceId : String) :
    Comes (Protocol.ensure b instanceId destination atHand) s
      (if r.isOwnedBy instanceId then .ok (.existing r)
        else .error (.ownedByOther destination r.instanceId instanceId)) s := by
  refine (hfind.bind ?_).locked
  show Comes (Protocol.ensureAfter b instanceId destination (some r)) _ _ _
  have hfilter : (some r).filter (fun r => r.destination = destination) = some r := by simp [hd]
  rw [Protocol.ensureAfter, hfilter]
  exact done _ _

theorem ensure_of_missed {atHand : Option (List Route)} {x : Outcome Route} {t : Scene}
    (hfind : Comes (Protocol.find destination atHand) s (.ok none) s)
    (hheld : Comes (Protocol.createHeld b instanceId destination) s x t) :
    Comes (Protocol.ensure b instanceId destination atHand) s (x.map .created) t := by
  refine (hfind.bind ?_).locked
  exact hheld.bind (done _ _)

/-! ### The condition -/

theorem updateCondition (hn : s.nodes.get? n.name = some n) (routeCreated : Bool) :
    Comes (Reconcile.updateCondition n routeCreated) s (.ok ()) (s.marked n routeCreated) := by
  rw [Reconcile.updateCondition, Scene.marked]
  cases hc : n.networkConditionIsCurrent routeCreated with
  | true => exact done _ _
  | false =>
    have hreply : s.reply (.patchNode n.name (Node.setNetworkCondition routeCreated) .status) =
        (.ok (), { s with
          nodes := s.nodes.insert n.name (n.marked routeCreated s.date)
          patches := s.patches ++ [n.name] }) := by
      simp only [Scene.reply, Scene.begin, Scene.effect, Scene.patched, Table.contains, hn,
        Node.marked, hc]
      rfl
    refine ⟨rfl, ?_⟩
    rw [hreply]
    exact done _ _

theorem markUnavailable (hn : s.nodes.get? n.name = some n) :
    Comes (Reconcile.markUnavailable n) s () (s.marked n false) :=
  (updateCondition hn false).bind (done _ _)

/-! ### The node -/

section Adding

variable {atHand : Option (List Route)} {t : Scene} (hi : n.instanceId? = some instanceId)

include hi

theorem addRoute_of_ensured {x : EnsuredRoute}
    (h : Comes (Protocol.ensure b instanceId destination atHand) s (.ok x) t) :
    Comes (Reconcile.addRoute b n destination atHand) s (.ok ())
      (t.remembering n.name x.route) := by
  rw [Reconcile.addRoute, hi]
  refine ⟨rfl, h.bind ?_⟩
  cases x with
  | existing r => exact ⟨rfl, done _ _⟩
  | created r => exact ⟨rfl, rfl, rfl, done _ _⟩

theorem addRoute_of_failed {e : RouteError}
    (h : Comes (Protocol.ensure b instanceId destination atHand) s (.error e) t) :
    Comes (Reconcile.addRoute b n destination atHand) s (.error e) t := by
  rw [Reconcile.addRoute, hi]
  refine ⟨rfl, h.bind ?_⟩
  cases e with
  | lookup c cause => exact ⟨rfl, done _ _⟩
  | _ => exact ⟨rfl, rfl, done _ _⟩

theorem addRoute_of_found {r : Route}
    (hfind : Comes (Protocol.find destination atHand) s (.ok (some r)) s)
    (hd : r.destination = destination) (ho : r.instanceId = instanceId) :
    Comes (Reconcile.addRoute b n destination atHand) s (.ok ()) (s.remembering n.name r) := by
  have howned : r.isOwnedBy instanceId = true := Route.isOwnedBy_iff.2 ho
  have hensure := ensure_of_shown (b := b) hfind hd instanceId
  rw [if_pos howned] at hensure
  exact addRoute_of_ensured hi hensure

end Adding

theorem addRoute_of_free {atHand : Option (List Route)} (hb : 0 < b.steps)
    (hi : n.instanceId? = some instanceId)
    (hfind : Comes (Protocol.find destination atHand) s (.ok none) s)
    (hfree : s.table.contains destination = false) :
    Comes (Reconcile.addRoute b n destination atHand) s (.ok ())
      ((s.withRoute instanceId destination).remembering n.name
        (s.nextRoute instanceId destination)) :=
  addRoute_of_ensured hi (ensure_of_missed hfind (createHeld hb hfree instanceId))

variable {atHand : Option (List Route)} {network : Network}

theorem syncNode_of_skipped (hskip : n.skipReason?.isSome = true) :
    Comes (Reconcile.syncNode b n atHand) s (.ok ()) s := by
  rw [Reconcile.syncNode, if_pos hskip]
  exact done _ _

theorem syncNode_of_addRoute {t : Scene} (hdue : n.due? = some (instanceId, network))
    (hadd : Comes (Reconcile.addRoute b n network.text atHand) s (.ok ()) t)
    (hn : t.nodes.get? n.name = some n) :
    Comes (Reconcile.syncNode b n atHand) s (.ok ()) (t.marked n true) := by
  obtain ⟨hskip, hnet, _⟩ := Node.due?_eq_some.1 hdue
  rw [Reconcile.syncNode, hskip, hnet]
  exact hadd.bind (updateCondition hn true)

theorem syncNode_of_failed {t : Scene} {e : RouteError} (hdue : n.due? = some (instanceId, network))
    (hadd : Comes (Reconcile.addRoute b n network.text atHand) s (.error e) t)
    (hn : t.nodes.get? n.name = some n) :
    Comes (Reconcile.syncNode b n atHand) s (.error e) (t.marked n false) := by
  obtain ⟨hskip, hnet, _⟩ := Node.due?_eq_some.1 hdue
  rw [Reconcile.syncNode, hskip, hnet]
  exact hadd.bind ((markUnavailable hn).bind (done _ _))

theorem syncNode_of_not_due (b : Backoff) (atHand : Option (List Route))
    (hskip : n.skipReason? = none) (hdue : n.due? = none) (hn : s.nodes.get? n.name = some n) :
    ∃ x, Comes (Reconcile.syncNode b n atHand) s x (s.marked n false) := by
  rw [Reconcile.syncNode, hskip]
  cases hnet : n.ipv4PodNetwork with
  | error e => exact ⟨.error e, (markUnavailable hn).bind (done _ _)⟩
  | ok network? =>
    cases network? with
    | none => exact ⟨.ok (), (markUnavailable hn).bind (done _ _)⟩
    | some network =>
      have hi : n.instanceId? = none := by
        cases hi : n.instanceId? with
        | none => rfl
        | some instanceId =>
          rw [Node.due?_eq_some.2 ⟨hskip, hnet, hi⟩] at hdue
          cases hdue
      refine ⟨.error (.instanceIdUnresolved n.name), ?_⟩
      show Comes (Reconcile.addRoute b n network.text atHand >>= _) _ _ _
      rw [Reconcile.addRoute, hi]
      exact (markUnavailable hn).bind (done _ _)

end Comes

end PodRoutes
