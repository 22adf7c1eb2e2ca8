import PodRoutes.Proofs.Calm.Turn
import PodRoutes.Proofs.Surroundings.Vouched

/-!
# Empty instance ids

An empty provider id is no id, but an empty annotation is one: it hides the ids after it, and the
engine goes on with it. That is the only way in which an empty id gets into a create, and the only
one in which a route without an owner passes for a node's own: apart from it such a route is given
back only by the create of the call itself, or by the lookup after a create that gave nothing back
(`empty_ids_come_from_annotations`).
-/

namespace PodRoutes

open Control

/-! ### Ids of nodes -/

namespace Node

/-- The annotation that counts for the instance of the node is empty. -/
def LeadsWithEmptyId (n : Node) : Prop :=
  (n.annotations.get? legacyIdKey <|> n.annotations.get? idKey) = some ""

instance (n : Node) : Decidable n.LeadsWithEmptyId := inferInstanceAs (Decidable (_ = _))

/-- The ids on the node, empty ones included, in the order in which they are looked at. -/
def givenIds (n : Node) : List String :=
  (n.annotations.get? legacyIdKey).toList ++ (n.annotations.get? idKey).toList ++
    (n.spec.bind NodeSpec.providerId).toList

/-- An empty annotation hides what comes after it; otherwise the first id that is not empty
counts. -/
theorem instanceId?_eq (n : Node) :
    n.instanceId? = if n.LeadsWithEmptyId then some "" else n.givenIds.find? (· ≠ "") := by
  cases hlegacy : n.annotations.get? legacyIdKey with
  | some id =>
    by_cases hid : id = "" <;>
      simp [instanceId?, instanceSource?, LeadsWithEmptyId, givenIds, hlegacy, hid]
  | none =>
    cases hkey : n.annotations.get? idKey with
    | some id =>
      by_cases hid : id = "" <;>
        simp [instanceId?, instanceSource?, LeadsWithEmptyId, givenIds, hlegacy, hkey, hid]
    | none =>
      simp only [instanceId?, instanceSource?, LeadsWithEmptyId, givenIds, hlegacy, hkey,
        providerId?]
      cases n.spec.bind NodeSpec.providerId with
      | none => rfl
      | some id => by_cases hid : id = "" <;> simp [hid, Option.filter]

theorem instanceId?_eq_empty_iff {n : Node} : n.instanceId? = some "" ↔ n.LeadsWithEmptyId := by
  rw [instanceId?_eq]
  split
  · next h => simp [h]
  · next h =>
    refine iff_of_false (fun hfind => ?_) h
    simpa using List.find?_some hfind

end Node

/-! ### Routes that a call gives back -/

/-- The call made the route: its create gave it back, or gave nothing back and the lookup after it
showed it. -/
def Made (i c : String) (t : List Exchange) (r : Route) : Prop :=
  [⟨.createRoute i c, some (.ok (some r))⟩] <:+ t.filter Exchange.onTable ∨
    [⟨.createRoute i c, some (.ok none)⟩, ⟨.findRoute c, some (.ok (some r))⟩] <:+
      t.filter Exchange.onTable

/-- Surroundings of which nothing is known. -/
def recorded : Surroundings (List Exchange) := fun r t x t' => t' = t ++ [⟨r, x⟩]

theorem Ends.recorded {σ α : Type} {E : Surroundings σ} {p : Control α} {s s' : σ}
    {t : List Exchange} {a : α} (h : Ends E p s t a s') : Ends recorded p [] t a t :=
  h.note (F := PodRoutes.recorded) (fun _ _ _ _ _ _ => rfl) []

section Protocol

variable {b : Backoff} {i c : String} {t : List Exchange} {r : Route}
  {atHand : Option (List Route)}

theorem Made.snoc (h : Made i c t r) {x : Exchange} (hx : x.onTable = false) :
    Made i c (t ++ [x]) r := by
  have hsame : (t ++ [x]).filter Exchange.onTable = t.filter Exchange.onTable := by simp [hx]
  rwa [Made, hsame]

/-- The route is the instance's own, or the call made it. -/
def OwnOrMade (i c : String) (t : List Exchange) (x : Outcome Route) : Prop :=
  ∀ r, x = .ok r → r.instanceId = i ∨ Made i c t r

theorem OwnOrMade.of_error (e : RouteError) : OwnOrMade i c t (.error e) := nofun

theorem owned_adopt (e : RouteError) :
    Meets recorded (fun _ _ => True) (OwnOrMade i c) (Protocol.adopt i c e) t := by
  refine Meets.askThen trivial ?_
  rintro x _ rfl
  rcases x with e' | _ | r
  · exact .of_error e
  · exact .of_error e
  · show OwnOrMade i c _ (if r.isOwnedBy i then .ok r else _)
    split
    · next howned =>
      rintro q ⟨⟩
      exact .inl (Route.isOwnedBy_iff.1 howned)
    · exact .of_error _

theorem made_lookUpCreated : Meets recorded (fun _ _ => True) (OwnOrMade i c)
    (Protocol.lookUpCreated c) (t ++ [⟨.createRoute i c, some (.ok none)⟩]) := by
  refine Meets.askThen trivial ?_
  rintro x _ rfl
  rcases x with e | _ | r
  · exact .of_error e
  · exact .of_error _
  · rintro q ⟨⟩
    refine .inr (.inr ?_)
    rw [onTable_snoc rfl, onTable_snoc rfl, List.append_assoc]
    exact List.suffix_append _ _

theorem ownOrMade_attempts (left : Nat) (delay : Rat) (last : RouteError) :
    Meets recorded (fun _ _ => True) (OwnOrMade i c)
      (Protocol.attempts b i c left delay last) t := by
  induction left generalizing delay last t with
  | zero => exact .of_error last
  | succ left ih =>
    rw [Protocol.attempts]
    refine Meets.askThen trivial ?_
    rintro x _ rfl
    rcases x with e | _ | r
    · show Meets recorded _ _ (if e.isDuplicate then _ else _) _
      split
      · exact owned_adopt e
      · split
        · exact .of_error e
        · exact Meets.bindThen (Meets.of_only (I := fun _ => True) (Only.any (b.rest delay))
            (fun _ _ _ _ _ _ _ => trivial) (fun _ _ _ _ => trivial) trivial) fun _ _ _ => ih _ _
    · exact made_lookUpCreated
    · rintro q ⟨⟩
      refine .inr (.inl ?_)
      rw [onTable_snoc rfl]
      exact List.suffix_append _ _

theorem ownOrMade_create :
    Meets recorded (fun _ _ => True) (OwnOrMade i c) (Protocol.create b i c) t := by
  refine Meets.locked trivial ?_
  rintro _ rfl
  refine (ownOrMade_attempts _ _ _).weaken fun t x hx => ⟨trivial, ?_⟩
  rintro _ rfl r hr
  exact (hx r hr).imp_right fun hmade => hmade.snoc rfl

/-- What was there before the call is the instance's own. -/
def Ensured (i c : String) (t : List Exchange) (x : Outcome EnsuredRoute) : Prop :=
  ∀ r, x = .ok r → r.route.instanceId = i ∨ r.wasCreated = true ∧ Made i c t r.route

theorem Ensured.of_error (e : RouteError) : Ensured i c t (.error e) := nofun

theorem ensured_ensureAfter (found : Option Route) :
    Meets recorded (fun _ _ => True) (Ensured i c) (Protocol.ensureAfter b i c found) t := by
  unfold Protocol.ensureAfter
  split
  · next r _ =>
    show Ensured i c t (if r.isOwnedBy i then _ else _)
    split
    · next howned =>
      rintro q ⟨⟩
      exact .inl (Route.isOwnedBy_iff.1 howned)
    · exact .of_error _
  · refine Meets.bindThen (ownOrMade_attempts _ _ _) fun t x hx => ?_
    cases x with
    | error e => exact Ensured.of_error e
    | ok r =>
      rintro q ⟨⟩
      exact (hx r rfl).imp_right fun hmade => ⟨rfl, hmade⟩

theorem ensured_ensure :
    Meets recorded (fun _ _ => True) (Ensured i c) (Protocol.ensure b i c atHand) t := by
  refine Meets.locked trivial ?_
  rintro _ rfl
  have hheld : Meets recorded (fun _ _ => True) (fun _ _ => True) (Protocol.find c atHand)
      (t ++ [⟨.lock, some ()⟩]) :=
    Meets.of_only (I := fun _ => True) (Only.any _) (fun _ _ _ _ _ _ _ => trivial)
      (fun _ _ _ _ => trivial) trivial
  refine (Meets.bindThen hheld fun t x _ => ?_).weaken (Q := Ensured i c)
    fun t x hx => ⟨trivial, ?_⟩
  · cases x with
    | error e => exact Ensured.of_error _
    | ok found => exact ensured_ensureAfter found
  · rintro _ rfl r hr
    exact (hx r hr).imp_right fun hmade => ⟨hmade.1, hmade.2.snoc rfl⟩

end Protocol

/-! ### The engine -/

/-- Creates are for shown nodes that are due the route, and so are the routes that are remembered,
which are the instance's own or made for it. -/
def Attributed (t : List Exchange) : Request → Prop
  | .createRoute i c => ∃ n network, Shown n t ∧ n.due? = some (i, network) ∧ network.text = c
  | .remember name r => ∃ n i network, Shown n t ∧ n.name = name ∧ n.due? = some (i, network) ∧
      (r.instanceId = i ∨ Made i network.text t r)
  | _ => True

section Engine

variable {b : Backoff} {n : Node} {t : List Exchange} {atHand : Option (List Route)}

theorem attributed_of_only {α : Type} {R : Request → Prop} {p : Control α} (h : Only R p)
    (hn : Shown n t) (hR : ∀ t r, Shown n t → R r → Attributed t r) :
    Meets recorded Attributed (fun t _ => Shown n t) p t := by
  refine Meets.of_only h ?_ hR hn
  rintro r t x _ - hn rfl
  exact hn.snoc _

theorem attributed_updateCondition (routeCreated : Bool) (t : List Exchange) :
    Meets recorded Attributed (fun _ _ => True) (Reconcile.updateCondition n routeCreated) t := by
  have honly : Only (fun r => ∃ edit scope, r = .patchNode n.name edit scope)
      (Reconcile.updateCondition n routeCreated) := Only.updateCondition ⟨_, _, rfl⟩
  refine Meets.of_only (I := fun _ => True) honly (fun _ _ _ _ _ _ _ => trivial) ?_ trivial
  rintro t r - ⟨edit, scope, rfl⟩
  trivial

theorem attributed_markUnavailable (t : List Exchange) :
    Meets recorded Attributed (fun _ _ => True) (Reconcile.markUnavailable n) t :=
  Meets.bindThen (attributed_updateCondition false t) fun _ _ _ => trivial

theorem attributed_addRoute {i : String} {network : Network} (hn : Shown n t)
    (hdue : n.due? = some (i, network)) :
    Meets recorded Attributed (fun _ _ => True) (Reconcile.addRoute b n network.text atHand) t := by
  have hi := (Node.due?_eq_some.1 hdue).2.2
  rw [Reconcile.addRoute, hi]
  have hrequests : ∀ t r, Shown n t → Protocol.MayAskToEnsure i network.text r →
      Attributed t r := by
    intro t r hn hr
    cases r with
    | createRoute j c =>
      obtain ⟨rfl, rfl⟩ := hr
      exact ⟨n, network, hn, hdue, rfl⟩
    | remember name r => exact hr.elim
    | _ => trivial
  refine Meets.askThen trivial ?_
  rintro start _ rfl
  have honly : Only (Protocol.MayAskToEnsure i network.text)
      (Protocol.ensure b i network.text atHand) := Protocol.only_ensure
  have hshown : Shown n (t ++ [⟨.now, some start⟩]) := hn.snoc _
  have hensure := (attributed_of_only honly hshown hrequests).and ensured_ensure
  refine Meets.bindThen (hensure.mono (fun _ _ h => h.1) fun _ _ h => h) ?_
  rintro t x ⟨hn, hx⟩
  rcases x with e | ⟨r⟩ | ⟨r⟩
  · cases e with
    | lookup c cause => exact ⟨trivial, fun _ _ _ => trivial⟩
    | _ => exact ⟨trivial, fun _ _ _ => ⟨trivial, fun _ _ _ => trivial⟩⟩
  · have hown : r.instanceId = i := (hx _ rfl).resolve_right (by simp [EnsuredRoute.wasCreated])
    exact ⟨⟨n, i, network, hn, rfl, hdue, .inl hown⟩, fun _ _ _ => trivial⟩
  · have hown : r.instanceId = i ∨ Made i network.text t r := (hx _ rfl).imp_right And.right
    refine ⟨trivial, ?_⟩
    rintro u _ rfl
    refine ⟨trivial, ?_⟩
    rintro u' _ rfl
    refine ⟨⟨n, i, network, (hn.snoc _).snoc _, rfl, hdue, ?_⟩, fun _ _ _ => trivial⟩
    exact hown.imp_right fun hmade => (hmade.snoc rfl).snoc rfl

theorem attributed_syncNode (hn : Shown n t) :
    Meets recorded Attributed (fun _ _ => True) (Reconcile.syncNode b n atHand) t := by
  unfold Reconcile.syncNode
  split
  · trivial
  next hskip =>
  have hskip : n.skipReason? = none := by simpa using hskip
  split
  · exact Meets.bindThen (attributed_markUnavailable t) fun _ _ _ => trivial
  · exact Meets.bindThen (attributed_markUnavailable t) fun _ _ _ => trivial
  next network hnet =>
  have hadd : Meets recorded Attributed (fun _ _ => True)
      (Reconcile.addRoute b n network.text atHand) t := by
    cases hi : n.instanceId? with
    | none =>
      rw [Reconcile.addRoute, hi]
      trivial
    | some i => exact attributed_addRoute hn (Node.due?_eq_some.2 ⟨hskip, hnet, hi⟩)
  refine Meets.bindThen hadd fun t x _ => ?_
  cases x with
  | ok u => exact attributed_updateCondition true t
  | error e => exact Meets.bindThen (attributed_markUnavailable t) fun _ _ _ => trivial

theorem attributed_turns : Turns recorded Attributed (fun t n => Shown n t) b where
  got := by
    rintro name t n _ rfl
    exact shown_snoc t (by simp [Exchange.nodes])
  listed := by
    rintro t stored _ rfl n hn
    exact shown_snoc t hn
  kept := by
    rintro r t x _ n rfl hn
    exact hn.snoc _
  turn _ hn := attributed_syncNode hn
  outside := by
    rintro t r hr
    cases r with
    | createRoute i c => exact hr.elim
    | remember name r => exact hr.elim
    | _ => trivial

theorem Job.attributed {σ : Type} {E : Surroundings σ} {settings : Settings} {job : Job} {s s' : σ}
    {o : Option (Outcome Unit)} (h : Ends E (job.program settings b) s t o s') :
    ∀ before x after, t = before ++ x :: after → Attributed before x.request := by
  have hjob : Meets recorded Attributed (fun _ _ => True) (job.program settings b) [] :=
    meets_job job (attributed_turns.meets_duty job.duty) (fun _ => trivial) (fun _ => trivial) []
  exact hjob.before_each (fun _ _ _ _ hx => hx) h.recorded

end Engine

/-! ### Empty ids -/

theorem Node.leads_of_due {n : Node} {network : Network} (h : n.due? = some ("", network)) :
    n.LeadsWithEmptyId :=
  instanceId?_eq_empty_iff.1 (due?_eq_some.1 h).2.2

theorem leads_of_equalSameOwner {n : Node} {network : Network} {r : Route} (hr : r.instanceId = "")
    (h : Network.verdict (some network) r n.instanceId? = .ok .equalSameOwner) :
    n.LeadsWithEmptyId := by
  rw [Network.verdict] at h
  split at h
  · cases h
  · split at h
    · cases h
    · split at h
      · split at h
        · next howner =>
          rw [hr] at howner
          exact Node.instanceId?_eq_empty_iff.1 howner.symm
        · cases h
      · cases h

@[simp] theorem Scene.writes_marked (s : Scene) (n : Node) (routeCreated : Bool) :
    (s.marked n routeCreated).writes = s.writes := by
  rw [marked]
  split <;> rfl

/-- The node gets a create with the empty id if nothing fails and its destination is free. -/
theorem run_reconcile_of_leads {settings : Settings} {b : Backoff} {w : World} {n : Node}
    {network : Network} (hc : settings.configureRoutes = true) (hb : 0 < b.steps) (hw : w.Calm)
    (hkeyed : w.gateway.table.KeyedBy Route.destination)
    (hn : w.store.nodes.get? n.name = some n) (hdue : n.due? = some ("", network))
    (hfree : w.gateway.table.get? network.text = none) :
    (w.run (Reconcile.reconcile settings b n.name)).2.writes =
      w.writes ++ [.create "" network.text] := by
  have hcomes := Comes.reconcile_stored (s := w.scene) hc hb hkeyed hn
  rw [Scene.turn_of_free hdue hfree] at hcomes
  have hscene := (hcomes.run hw).2.1
  have hwrites := congrArg Scene.writes hscene
  rw [Scene.writes_marked] at hwrites
  exact hwrites

/-- An instance id is empty exactly if the annotation that counts is empty, and otherwise it is the
first id of the node that is not empty. Only for such a node the engine asks for a create with an
empty id, and only for such a node it takes a route without an owner that it did not make for the
node's own; and a create is what such a node gets. -/
theorem empty_ids_come_from_annotations {σ : Type} (E : Surroundings σ) (settings : Settings)
    (b : Backoff) :
    (∀ n : Node, n.instanceId? = if n.LeadsWithEmptyId then some ""
      else n.givenIds.find? (· ≠ "")) ∧
    (∀ (job : Job) s t o s', Ends E (job.program settings b) s t o s' →
      ∀ before x after, t = before ++ x :: after →
        (∀ c, x.request = .createRoute "" c → ∃ n network, Shown n before ∧ n.LeadsWithEmptyId ∧
          n.due? = some ("", network) ∧ network.text = c) ∧
        ∀ name r, x.request = .remember name r → r.instanceId = "" →
          ∃ n i network, Shown n before ∧ n.name = name ∧ n.due? = some (i, network) ∧
            (n.LeadsWithEmptyId ∨ Made i network.text before r)) ∧
    (∀ i c s t r s', Ends E (Protocol.create b i c) s t (.ok r) s' → r.instanceId = "" →
      i = "" ∨ Made i c t r) ∧
    (∀ i c atHand s t r s', Ends E (Protocol.ensure b i c atHand) s t (.ok r) s' →
      r.route.instanceId = "" → i = "" ∨ r.wasCreated = true ∧ Made i c t r.route) ∧
    (∀ (n : Node) network r, r.instanceId = "" →
      Network.verdict (some network) r n.instanceId? = .ok .equalSameOwner →
        n.LeadsWithEmptyId) ∧
    ∀ (w : World) (n : Node) network, settings.configureRoutes = true → 0 < b.steps → w.Calm →
      w.gateway.table.KeyedBy Route.destination → w.store.nodes.get? n.name = some n →
        n.LeadsWithEmptyId → n.skipReason? = none → n.ipv4PodNetwork = .ok (some network) →
          w.gateway.table.get? network.text = none →
            (w.run (Reconcile.reconcile settings b n.name)).2.writes =
              w.writes ++ [.create "" network.text] := by
  refine ⟨Node.instanceId?_eq, ?_, ?_, ?_, fun n network r => leads_of_equalSameOwner, ?_⟩
  · intro job s t o s' hrun before x after ht
    have hattributed := Job.attributed hrun before x after ht
    constructor
    · intro c hx
      rw [hx] at hattributed
      obtain ⟨n, network, hn, hdue, hc⟩ := hattributed
      exact ⟨n, network, hn, Node.leads_of_due hdue, hdue, hc⟩
    · intro name r hx hr
      rw [hx] at hattributed
      obtain ⟨n, i, network, hn, hname, hdue, hown | hmade⟩ := hattributed
      · obtain rfl : i = "" := hown.symm.trans hr
        exact ⟨n, "", network, hn, hname, hdue, .inl (Node.leads_of_due hdue)⟩
      · exact ⟨n, i, network, hn, hname, hdue, .inr hmade⟩
  · intro i c s t r s' hrun hr
    exact (ownOrMade_create.ends hrun.recorded r rfl).imp_left fun hown => hown.symm.trans hr
  · intro i c atHand s t r s' hrun hr
    exact (ensured_ensure.ends hrun.recorded r rfl).imp_left fun hown => hown.symm.trans hr
  · intro w n network hc hb hw hkeyed hn hleads hskip hnet hfree
    have hdue : n.due? = some ("", network) :=
      Node.due?_eq_some.2 ⟨hskip, hnet, Node.instanceId?_eq_empty_iff.2 hleads⟩
    exact run_reconcile_of_leads hc hb hw hkeyed hn hdue hfree

/-! ### A node with an empty annotation -/

/-- The older annotation is empty, and a provider id stands behind it. -/
def blankNode : Node :=
  { Node.plain "n1" "10.244.1.0/24" "i-1" with
    metadata := {
      name := some "n1"
      annotations := some (Table.empty.insert Node.legacyIdKey "") } }

def blankWorld : World where
  epoch := ⟨0, 0⟩
  store := ({} : NodeStore).add blankNode

def ownerlessRoute : Route := Route.named "r-1" "10.244.1.0/24" ""

/-- The provider id is not used, the gateway is asked for a route to no instance, and a route
without an owner passes for the node's own. -/
theorem blank_id_is_used :
    blankNode.givenIds.find? (· ≠ "") = some "i-1" ∧ blankNode.instanceId? = some "" ∧
      (blankWorld.run (Reconcile.reconcile {} .standard "n1")).2.writes =
        [.create "" "10.244.1.0/24"] ∧
      (({ blankWorld with gateway := .ofRoutes [ownerlessRoute] } : World).run
        (Reconcile.reconcile {} .standard "n1")).2.cache.get? "n1" = some ownerlessRoute := by
  decide +kernel

theorem blank_node_gets_create : blankNode.instanceId? = some "" ∧
    (blankWorld.run (Reconcile.reconcile {} .standard "n1")).2.writes =
      [.create "" "10.244.1.0/24"] := by
  obtain ⟨hid, -, -, -, -, hcreates⟩ := empty_ids_come_from_annotations recorded {} .standard
  have hleads : blankNode.LeadsWithEmptyId := by decide +kernel
  have hcalm : blankWorld.Calm := ⟨⟨rfl, rfl, rfl⟩, rfl⟩
  have hnetwork : blankNode.ipv4PodNetwork =
      .ok (some ⟨.ofOctets 10 244 1 0, 24, by decide⟩) := by decide +kernel
  have hwrites := hcreates blankWorld blankNode _ rfl (by decide) hcalm
    (by decide +kernel) rfl hleads (by decide +kernel) hnetwork (by decide +kernel)
  exact ⟨(hid blankNode).trans (if_pos hleads), hwrites⟩

end PodRoutes
