import PodRoutes.Proofs.Surroundings.Changing
import PodRoutes.Proofs.Surroundings.Turns

/-!
# Whose route a call gives back

A candid gateway shows routes only under their destination, and a create gives back only the route
that it made; meanwhile others may change the table as they like. A call that succeeds then gives
back a route to its destination. The route is the instance's own, unless the create gave nothing
back and the lookup after it showed the route of another: of that one nobody asks whose it is. The
same goes for the routes that the engine remembers and reports (`successes_are_vouched`).
-/

namespace PodRoutes

open Control

/-! ### Exchanges -/

namespace Exchange

def Candid : Exchange → Prop
  | ⟨.findRoute c, some (.ok (some r))⟩ => r.destination = c
  | ⟨.createRoute i c, some (.ok (some r))⟩ => r.destination = c ∧ r.instanceId = i
  | _ => True

/-- The exchange is a call of the gateway, or asks for the lock. -/
def onTable (x : Exchange) : Bool :=
  match x.request with
  | .lock => true
  | r => r.isGatewayCall

/-- The nodes that the store shows. -/
def nodes : Exchange → List Node
  | ⟨.getNode _, some (.ok (some n))⟩ => [n]
  | ⟨.listNodes, some (.ok stored)⟩ => stored
  | _ => []

end Exchange

def Surroundings.Candid {σ : Type} (E : Surroundings σ) : Prop :=
  ∀ r s x s', E r s x s' → Exchange.Candid ⟨r, x⟩

def Shown (n : Node) (t : List Exchange) : Prop := ∃ x ∈ t, n ∈ x.nodes

/-- The last create gave nothing back, and the lookup after it showed the route of another. -/
def Misled (i c : String) (t : List Exchange) : Prop :=
  ∃ r : Route, r.instanceId ≠ i ∧
    [⟨.createRoute i c, some (.ok none)⟩, ⟨.findRoute c, some (.ok (some r))⟩] <:+
      t.filter Exchange.onTable

structure Vouched (i c : String) (t : List Exchange) (r : Route) : Prop where
  destination : r.destination = c
  foreign : r.instanceId ≠ i ↔ Misled i c t

/-- A route was remembered for the name, and since then the node was only patched. -/
def JustRemembered (name : String) (t : List Exchange) : Prop :=
  ∃ before r since, t = before ++ ⟨.remember name r, some ()⟩ :: since ∧
    ∀ x ∈ since, ∃ edit scope, x.request = .patchNode name edit scope

/-- The engine remembers routes for nodes that it was shown and that are due them, and says that the
network is there only on the strength of the route it has just remembered. -/
def Warranted (t : List Exchange) : Request → Prop
  | .remember name r => ∃ n i network, Shown n t ∧ n.name = name ∧ n.due? = some (i, network) ∧
      Vouched i network.text t r
  | .patchNode name edit _ => edit = Node.setNetworkCondition true → JustRemembered name t
  | _ => True

/-! ### Lemmas about exchanges -/

section Trace

variable {i c : String} {t : List Exchange} {r : Route} {n : Node} {x y : Exchange}

theorem Shown.snoc (h : Shown n t) (x : Exchange) : Shown n (t ++ [x]) := by
  obtain ⟨y, hy, hn⟩ := h
  exact ⟨y, List.mem_append_left [x] hy, hn⟩

theorem shown_snoc (t : List Exchange) (h : n ∈ x.nodes) : Shown n (t ++ [x]) :=
  ⟨x, by simp, h⟩

theorem onTable_snoc (hx : x.onTable = true) :
    (t ++ [x]).filter Exchange.onTable = t.filter Exchange.onTable ++ [x] := by
  simp [hx]

theorem Vouched.snoc (h : Vouched i c t r) (hx : x.onTable = false) :
    Vouched i c (t ++ [x]) r := by
  have hsame : (t ++ [x]).filter Exchange.onTable = t.filter Exchange.onTable := by simp [hx]
  refine ⟨h.destination, ?_⟩
  rw [Misled, hsame]
  exact h.foreign

theorem not_misled_snoc (hx : x.onTable = true) (hfind : x.request ≠ .findRoute c) :
    ¬Misled i c (t ++ [x]) := by
  rintro ⟨r, -, before, hsuffix⟩
  rw [onTable_snoc hx] at hsuffix
  have hlast := congrArg List.getLast? hsuffix
  simp only [List.getLast?_append, List.getLast?_cons_cons, List.getLast?_singleton,
    Option.some_or, Option.some.injEq] at hlast
  exact hfind (by rw [← hlast])

theorem misled_snoc_snoc (hx : x.onTable = true) (hy : y.onTable = true) :
    Misled i c (t ++ [x] ++ [y]) ↔ ∃ r : Route, r.instanceId ≠ i ∧
      x = ⟨.createRoute i c, some (.ok none)⟩ ∧ y = ⟨.findRoute c, some (.ok (some r))⟩ := by
  rw [Misled, onTable_snoc hy, onTable_snoc hx, List.append_assoc]
  refine exists_congr fun r => and_congr_right fun _ => ?_
  constructor
  · rintro ⟨before, hsuffix⟩
    have hpair := (List.append_inj' hsuffix rfl).2
    simpa [eq_comm] using hpair
  · rintro ⟨rfl, rfl⟩
    exact List.suffix_append _ _

end Trace

/-! ### Surroundings that note what they say -/

/-- Surroundings of which nothing is known but that they are candid. -/
def noted : Surroundings (List Exchange) := fun r t x t' =>
  Exchange.Candid ⟨r, x⟩ ∧ t' = t ++ [⟨r, x⟩]

theorem Ends.noted {σ α : Type} {E : Surroundings σ} (hE : E.Candid) {p : Control α} {s s' : σ}
    {t : List Exchange} {a : α} (h : Ends E p s t a s') (u : List Exchange) :
    Ends noted p u t a (u ++ t) :=
  h.note (fun r s x s' _ answer => ⟨hE r s x s' answer, rfl⟩) u

namespace Meets

variable {α : Type} {P : List Exchange → Request → Prop} {Q : List Exchange → α → Prop}
  {p : Control α} {t u : List Exchange} {a : α}

theorem at_split (h : Meets noted P Q p u) {u' : List Exchange} (he : Ends noted p u t a u') :
    ∀ before x after, t = before ++ x :: after → P (u ++ before) x.request :=
  h.before_each (fun _ _ _ _ hx => hx.2) he

/-- What only grows with the exchanges stays. -/
theorem keeps {I : List Exchange → Prop} (h : Meets noted P Q p t)
    (hI : ∀ t x, I t → I (t ++ [x])) (ht : I t) :
    Meets noted P (fun t a => Q t a ∧ I t) p t := by
  have hkept : Meets noted (fun _ _ => True) (fun t _ => I t) p t := by
    refine of_only (Only.any p) ?_ (fun _ _ _ _ => trivial) ht
    rintro r t x t' - ht ⟨-, rfl⟩
    exact hI t _ ht
  exact (h.and hkept).mono (fun _ _ h => h.1) fun _ _ h => h

end Meets

/-! ### The protocol -/

def Gives (i c : String) (t : List Exchange) (x : Outcome Route) : Prop :=
  ∀ r, x = .ok r → Vouched i c t r

section Protocol

variable {b : Backoff} {i c : String} {t : List Exchange} {atHand : Option (List Route)}

theorem Gives.of_error (e : RouteError) : Gives i c t (.error e) := by
  intro r hr
  cases hr

theorem gives_adopt (e : RouteError) :
    Meets noted (fun _ _ => True) (Gives i c) (Protocol.adopt i c e)
      (t ++ [⟨.createRoute i c, some (.error e)⟩]) := by
  refine Meets.askThen trivial ?_
  rintro x _ ⟨hx, rfl⟩
  rcases x with e' | _ | r
  · exact Gives.of_error e
  · exact Gives.of_error e
  · show Gives i c _ (if r.isOwnedBy i then .ok r else _)
    split
    · next howned =>
      have hi : r.instanceId = i := Route.isOwnedBy_iff.1 howned
      intro q hq
      cases hq
      refine ⟨hx, ?_⟩
      rw [misled_snoc_snoc rfl rfl]
      constructor
      · exact fun hne => absurd hi hne
      · rintro ⟨-, -, he, -⟩
        cases he
    · exact Gives.of_error _

/-- Here nobody asks whose route it is. -/
theorem gives_lookUpCreated :
    Meets noted (fun _ _ => True) (Gives i c) (Protocol.lookUpCreated c)
      (t ++ [⟨.createRoute i c, some (.ok none)⟩]) := by
  refine Meets.askThen trivial ?_
  rintro x _ ⟨hx, rfl⟩
  rcases x with e | _ | r
  · exact Gives.of_error e
  · exact Gives.of_error _
  · intro q hq
    cases hq
    refine ⟨hx, ?_⟩
    rw [misled_snoc_snoc rfl rfl]
    constructor
    · exact fun hne => ⟨r, hne, rfl, rfl⟩
    · rintro ⟨q, hne, -, he⟩
      cases he
      exact hne

theorem gives_attempts (left : Nat) (delay : Rat) (last : RouteError) :
    Meets noted (fun _ _ => True) (Gives i c) (Protocol.attempts b i c left delay last) t := by
  induction left generalizing delay last t with
  | zero => exact Gives.of_error last
  | succ left ih =>
    rw [Protocol.attempts]
    refine Meets.askThen trivial ?_
    rintro x _ ⟨hx, rfl⟩
    rcases x with e | _ | r
    · show Meets noted _ _ (if e.isDuplicate then _ else _) _
      split
      · exact gives_adopt e
      · split
        · exact Gives.of_error e
        · have hrest := Only.any (b.rest delay)
          exact Meets.bindThen (Meets.of_only hrest (fun _ _ _ _ _ _ _ => trivial)
            (fun _ _ _ _ => trivial) trivial) fun _ _ _ => ih _ _
    · exact gives_lookUpCreated
    · intro q hq
      cases hq
      obtain ⟨hd, hi⟩ := hx
      have hnot : ¬Misled i c (t ++ [⟨.createRoute i c, some (.ok (some r))⟩]) :=
        not_misled_snoc rfl (by simp)
      exact ⟨hd, by simp [hi, hnot]⟩

theorem gives_locked {α : Type} {p : Control α} {f : α → Outcome Route}
    (h : ∀ y, Meets noted (fun _ _ => True) (fun t a => Gives i c t (f a)) p (t ++ [⟨.lock, y⟩])) :
    Meets noted (fun _ _ => True) (fun t a => Gives i c t (f a)) (Control.locked p) t := by
  refine Meets.locked trivial ?_
  rintro _ ⟨-, rfl⟩
  refine (h _).weaken fun t a ha => ⟨trivial, ?_⟩
  rintro _ ⟨-, rfl⟩ r hr
  exact (ha r hr).snoc rfl

theorem gives_create :
    Meets noted (fun _ _ => True) (Gives i c) (Protocol.create b i c) t :=
  gives_locked (f := id) fun _ => gives_attempts _ _ _

theorem not_misled_find (y : Option (Reply .lock)) :
    Meets noted (fun _ _ => True) (fun t _ => ¬Misled i c t) (Protocol.find c atHand)
      (t ++ [⟨.lock, y⟩]) := by
  have hlock : ¬Misled i c (t ++ [⟨.lock, y⟩]) := not_misled_snoc rfl (by simp)
  unfold Protocol.find
  split
  · exact hlock
  · split
    · exact hlock
    · refine ⟨trivial, ?_⟩
      rintro x _ ⟨-, rfl⟩ hmisled
      obtain ⟨r, -, he, -⟩ := (misled_snoc_snoc rfl rfl).1 hmisled
      cases he

theorem gives_ensure :
    Meets noted (fun _ _ => True) (fun t x => Gives i c t (x.map EnsuredRoute.route))
      (Protocol.ensure b i c atHand) t := by
  refine gives_locked (f := Except.map EnsuredRoute.route) fun y => ?_
  refine Meets.bindThen (not_misled_find (i := i) y) fun t x hnot => ?_
  rcases x with e | found
  · exact Gives.of_error _
  show Meets noted _ _ (Protocol.ensureAfter b i c found) t
  unfold Protocol.ensureAfter
  split
  · next r hr =>
    have hd : r.destination = c := by simpa using (Option.filter_eq_some_iff.1 hr).2
    show Gives i c t (Except.map EnsuredRoute.route (if r.isOwnedBy i then _ else _))
    split
    · next howned =>
      have hi : r.instanceId = i := Route.isOwnedBy_iff.1 howned
      intro q hq
      cases hq
      exact ⟨hd, by simp [EnsuredRoute.route, hi, hnot]⟩
    · exact Gives.of_error _
  · refine Meets.bindThen (gives_attempts _ _ _) fun t x hx => ?_
    cases x with
    | error e => exact Gives.of_error e
    | ok r => exact hx

end Protocol

/-! ### The engine -/

theorem Node.setNetworkCondition_false_ne_true :
    Node.setNetworkCondition false ≠ Node.setNetworkCondition true := by
  intro he
  have hstatus := congrArg (fun edit : NodeEdit =>
    ((edit ⟨0, 0⟩ {}).condition? Node.networkUnavailableType).map Condition.status) he
  revert hstatus
  decide +kernel

theorem Protocol.MayAskToEnsure.warranted {i c : String} {t : List Exchange} {r : Request}
    (h : Protocol.MayAskToEnsure i c r) : Warranted t r := by
  cases r with
  | remember name r => exact h.elim
  | patchNode name edit scope => exact h.elim
  | _ => trivial

section Engine

variable {settings : Settings} {b : Backoff} {n : Node} {t : List Exchange}
  {atHand : Option (List Route)}

theorem warranted_of_only {α : Type} {R : Request → Prop} {p : Control α} (h : Only R p)
    (hR : ∀ t r, R r → Warranted t r) (t : List Exchange) :
    Meets noted Warranted (fun _ _ => True) p t :=
  Meets.of_only (I := fun _ => True) h (fun _ _ _ _ _ _ _ => trivial) (fun t r _ hr => hR t r hr)
    trivial

theorem JustRemembered.snoc {name : String} (h : JustRemembered name t) {x : Exchange}
    (hx : ∃ edit scope, x.request = .patchNode name edit scope) :
    JustRemembered name (t ++ [x]) := by
  obtain ⟨before, r, since, rfl, hsince⟩ := h
  refine ⟨before, r, since ++ [x], by simp, fun y hy => ?_⟩
  rcases List.mem_append.1 hy with hy | hy
  · exact hsince y hy
  · rw [List.mem_singleton.1 hy]
    exact hx

theorem warranted_markUnavailable (t : List Exchange) :
    Meets noted Warranted (fun _ _ => True) (Reconcile.markUnavailable n) t := by
  refine warranted_of_only
    (R := fun r => r = .patchNode n.name (Node.setNetworkCondition false) .status)
    (Only.markUnavailable rfl) ?_ t
  rintro t r rfl he
  exact absurd he Node.setNetworkCondition_false_ne_true

theorem warranted_updateCondition (h : JustRemembered n.name t) :
    Meets noted Warranted (fun _ _ => True) (Reconcile.updateCondition n true) t := by
  have honly : Only (fun r => ∃ edit scope, r = .patchNode n.name edit scope)
      (Reconcile.updateCondition n true) := Only.updateCondition ⟨_, _, rfl⟩
  refine (Meets.of_only honly (I := JustRemembered n.name) ?_ ?_ h).weaken fun _ _ _ => trivial
  · rintro r t x t' hr ht ⟨-, rfl⟩
    exact ht.snoc hr
  · rintro t r ht ⟨edit, scope, rfl⟩ -
    exact ht

theorem warranted_addRoute {i : String} {network : Network} (hn : Shown n t)
    (hdue : n.due? = some (i, network)) :
    Meets noted Warranted (fun t x => x = .ok () → JustRemembered n.name t)
      (Reconcile.addRoute b n network.text atHand) t := by
  have hi := (Node.due?_eq_some.1 hdue).2.2
  rw [Reconcile.addRoute, hi]
  refine Meets.askThen trivial ?_
  rintro start _ ⟨-, rfl⟩
  have honly : Only (Protocol.MayAskToEnsure i network.text)
      (Protocol.ensure b i network.text atHand) := Protocol.only_ensure
  have hquiet := warranted_of_only honly (fun t r hr => hr.warranted) (t ++ [⟨.now, some start⟩])
  have hensure := (hquiet.and gives_ensure).keeps (fun t x h => h.snoc x) (hn.snoc _)
  refine Meets.bindThen (hensure.mono (fun _ _ h => h.1) fun _ _ h => h) ?_
  rintro t x ⟨⟨-, hx⟩, hn⟩
  have hfailed : ∀ (e : RouteError) t', Except.error e = .ok () → JustRemembered n.name t' := by
    intro e t' he
    cases he
  rcases x with e | ⟨r⟩ | ⟨r⟩
  · cases e with
    | lookup c cause => exact ⟨trivial, fun _ _ _ => hfailed _ _⟩
    | _ => exact ⟨trivial, fun _ _ _ => ⟨trivial, fun _ _ _ => hfailed _ _⟩⟩
  · have hvouched : Vouched i network.text t r := hx r rfl
    refine ⟨⟨n, i, network, hn, rfl, hdue, hvouched⟩, ?_⟩
    rintro u _ ⟨-, rfl⟩ -
    exact ⟨t, r, [], rfl, by simp⟩
  · have hvouched : Vouched i network.text t r := hx r rfl
    refine ⟨trivial, ?_⟩
    rintro u _ ⟨-, rfl⟩
    refine ⟨trivial, ?_⟩
    rintro u' _ ⟨-, rfl⟩
    refine ⟨⟨n, i, network, (hn.snoc _).snoc _, rfl, hdue, (hvouched.snoc rfl).snoc rfl⟩, ?_⟩
    rintro u'' _ ⟨-, rfl⟩ -
    exact ⟨_, r, [], rfl, by simp⟩

theorem warranted_syncNode (hn : Shown n t) :
    Meets noted Warranted (fun _ _ => True) (Reconcile.syncNode b n atHand) t := by
  unfold Reconcile.syncNode
  split
  · trivial
  next hskip =>
  have hskip : n.skipReason? = none := by simpa using hskip
  split
  · exact Meets.bindThen (warranted_markUnavailable t) fun _ _ _ => trivial
  · exact Meets.bindThen (warranted_markUnavailable t) fun _ _ _ => trivial
  next network hnet =>
  have hadd : Meets noted Warranted (fun t x => x = .ok () → JustRemembered n.name t)
      (Reconcile.addRoute b n network.text atHand) t := by
    cases hi : n.instanceId? with
    | none =>
      rw [Reconcile.addRoute, hi]
      intro he
      cases he
    | some i => exact warranted_addRoute hn (Node.due?_eq_some.2 ⟨hskip, hnet, hi⟩)
  refine Meets.bindThen hadd fun t x hx => ?_
  cases x with
  | ok u => exact warranted_updateCondition (hx rfl)
  | error e => exact Meets.bindThen (warranted_markUnavailable t) fun _ _ _ => trivial

theorem Control.Request.OutsideTurns.warranted {r : Request} (h : r.OutsideTurns) :
    Warranted t r := by
  cases r with
  | remember name r => exact h.elim
  | patchNode name edit scope => exact h.elim
  | _ => trivial

theorem warranted_turns : Turns noted Warranted (fun t n => Shown n t) b where
  got := by
    rintro name t n _ ⟨-, rfl⟩
    exact shown_snoc t (by simp [Exchange.nodes])
  listed := by
    rintro t stored _ ⟨-, rfl⟩ n hn
    exact shown_snoc t hn
  kept := by
    rintro r t x _ n ⟨-, rfl⟩ hn
    exact hn.snoc _
  turn _ hn := warranted_syncNode hn
  outside := Control.Request.OutsideTurns.warranted

theorem warranted_duty (duty : Duty) (t : List Exchange) :
    Meets noted Warranted (fun _ _ => True) (duty.program settings b) t :=
  warranted_turns.meets_duty duty t

end Engine

/-! ### Successes -/

/-- A success gives back a route to the destination, and not the instance's own exactly if the
create gave nothing back and the lookup after it showed the route of another. -/
theorem successes_are_vouched {σ : Type} {E : Surroundings σ} (hE : E.Candid)
    (settings : Settings) (b : Backoff) :
    (∀ i c s t r s', Ends E (Protocol.create b i c) s t (.ok r) s' → Vouched i c t r) ∧
      (∀ i c atHand s t r s', Ends E (Protocol.ensure b i c atHand) s t (.ok r) s' →
        Vouched i c t r.route) ∧
      ∀ (job : Job) s t o s', Ends E (job.program settings b) s t o s' →
        ∀ before x after, t = before ++ x :: after → Warranted before x.request := by
  refine ⟨?_, ?_, ?_⟩
  · intro i c s t r s' hrun
    exact gives_create.ends (hrun.noted hE []) r rfl
  · intro i c atHand s t r s' hrun
    exact gives_ensure.ends (hrun.noted hE []) r.route rfl
  · intro job s t o s' hrun
    have hjob : Meets noted Warranted (fun _ _ => True) (job.program settings b) [] :=
      meets_job job (warranted_duty _) (fun _ => trivial) (fun _ => trivial) []
    exact hjob.at_split (hrun.noted hE [])

/-! ### A route that was replaced -/

/-- Others may change everything, as long as the routes are kept by destination. -/
def World.KeyedTable (_ u : World) : Prop := u.gateway.table.KeyedBy Route.destination

instance (v u : World) : Decidable (v.KeyedTable u) :=
  inferInstanceAs (Decidable (u.gateway.table.KeyedBy Route.destination))

theorem World.candid_changing : (World.changing World.KeyedTable).Candid := by
  rintro r v x w ⟨u, hu, hhonest⟩
  cases r with
  | findRoute c =>
    rcases x with _ | (e | _ | r)
    · trivial
    · trivial
    · trivial
    · have heffect : u.effect (.findRoute c) = (.ok (some r), w) := hhonest
      have hfound := MemoryGateway.find_eq_of_ok (congrArg Prod.fst heffect)
      exact hu c r hfound.symm
  | createRoute i c =>
    rcases x with _ | (e | _ | r)
    · trivial
    · trivial
    · trivial
    · obtain ⟨hreply, -⟩ := hhonest.create_eq
      rcases u.gateway.create_cases i c with ⟨⟨e, hfailed⟩, -⟩ | ⟨-, hok, -⟩
      · rw [hfailed] at hreply
        cases hreply
      · rw [hok] at hreply
        cases hnone : u.gateway.createReturnsNone with
        | true =>
          rw [hnone] at hreply
          cases hreply
        | false =>
          rw [hnone] at hreply
          cases hreply
          exact ⟨rfl, rfl⟩
  | _ => trivial

theorem World.ends_run_of_keyed {α : Type} (p : Control α) {w : World}
    (hw : w.gateway.table.KeyedBy Route.destination) :
    ∃ t, Ends (World.changing World.KeyedTable) p w t (w.run p).1 (w.run p).2 := by
  refine World.ends_run_keeping (I := fun w => w.gateway.table.KeyedBy Route.destination) ?_
    (fun _ r hw => World.routes_effect hw r) p w hw
  intro v u hv hu
  have hkeyed : u.gateway.table.KeyedBy Route.destination := by
    rw [hu]
    exact hv
  exact ⟨hkeyed, hkeyed⟩

/-- A create gives nothing back. -/
def silentWorld : World where
  epoch := ⟨0, 0⟩
  gateway := { createReturnsNone := true }
  store.nodes := Table.empty.insert "n1" (Node.plain "n1" "10.244.3.0/24" "i-a")

def silentlyCreated : World := (silentWorld.effect (.createRoute "i-a" "10.244.3.0/24")).2

/-- Somebody else deletes the route and creates one to another instance. -/
def World.replaced (w : World) : World :=
  let deleted := (w.gateway.delete "10.244.3.0/24").2
  { w with gateway := (deleted.create "i-b" "10.244.3.0/24").2 }

def replacedRoute : Route := Route.named "route-2" "10.244.3.0/24" "i-b"

def afterMisledLookup : World :=
  (silentlyCreated.replaced.effect (.findRoute "10.244.3.0/24")).2

/-- What the create makes if nobody interferes. -/
def silentRoute : Route := Route.named "route-1" "10.244.3.0/24" "i-a"

def misledRun : List Exchange :=
  [⟨.lock, some ()⟩, ⟨.createRoute "i-a" "10.244.3.0/24", some (.ok none)⟩,
    ⟨.findRoute "10.244.3.0/24", some (.ok (some replacedRoute))⟩, ⟨.unlock, some ()⟩]

theorem ends_misledRun : ∃ w, Ends (World.changing World.KeyedTable)
    (Protocol.create .standard "i-a" "10.244.3.0/24") silentWorld misledRun (.ok replacedRoute)
    w := by
  have hlock : World.changing World.KeyedTable .lock silentWorld (some ()) silentWorld :=
    ⟨silentWorld, by decide +kernel, rfl⟩
  have hcreate : World.changing World.KeyedTable (.createRoute "i-a" "10.244.3.0/24") silentWorld
      (some (.ok none)) silentlyCreated := ⟨silentWorld, by decide +kernel, rfl⟩
  have hfind : World.changing World.KeyedTable (.findRoute "10.244.3.0/24") silentlyCreated
      (some (.ok (some replacedRoute))) afterMisledLookup :=
    ⟨silentlyCreated.replaced, by decide +kernel, rfl⟩
  have hunlock : World.changing World.KeyedTable .unlock afterMisledLookup (some ())
      afterMisledLookup := ⟨afterMisledLookup, by decide +kernel, rfl⟩
  exact ⟨_, .ask hlock (.ask hcreate (.ask hfind (.ask hunlock (.done _ _))))⟩

theorem replaced_route_is_given_back :
    (World.changing World.KeyedTable).Candid ∧
      (∃ w, Ends (World.changing World.KeyedTable)
        (Protocol.create .standard "i-a" "10.244.3.0/24") silentWorld misledRun
        (.ok replacedRoute) w) ∧
      replacedRoute.instanceId ≠ "i-a" :=
  ⟨World.candid_changing, ends_misledRun, by decide⟩

/-- The create is misled if the route is replaced; undisturbed, the engine gets and caches the
node's own. -/
theorem silent_creates_are_vouched :
    Misled "i-a" "10.244.3.0/24" misledRun ∧
      (∃ t w, Ends (World.changing World.KeyedTable)
          (Protocol.ensure .standard "i-a" "10.244.3.0/24" none) silentWorld t
          (.ok (.created silentRoute)) w ∧
        ¬Misled "i-a" "10.244.3.0/24" t) ∧
      ∃ t w, Ends (World.changing World.KeyedTable)
          (Job.program {} .standard { duty := .attempt "n1" }) silentWorld t (some (.ok ())) w ∧
        w.cache.get? "n1" = some silentRoute ∧
        ∀ before x after, t = before ++ x :: after → Warranted before x.request := by
  have hkeyed : silentWorld.gateway.table.KeyedBy Route.destination := by decide +kernel
  obtain ⟨hcreate, hensure, hjob⟩ :=
    successes_are_vouched World.candid_changing {} Backoff.standard
  refine ⟨?_, ?_, ?_⟩
  · obtain ⟨w, hrun⟩ := ends_misledRun
    exact (hcreate _ _ _ _ _ _ hrun).foreign.1 (by decide)
  · obtain ⟨t, hrun⟩ := World.ends_run_of_keyed
      (Protocol.ensure .standard "i-a" "10.244.3.0/24" none) hkeyed
    have hresult : (silentWorld.run (Protocol.ensure .standard "i-a" "10.244.3.0/24" none)).1 =
        .ok (.created silentRoute) := by decide +kernel
    rw [hresult] at hrun
    have hvouched : Vouched "i-a" "10.244.3.0/24" t silentRoute := hensure _ _ _ _ _ _ _ hrun
    exact ⟨t, _, hrun, fun hmisled => hvouched.foreign.2 hmisled rfl⟩
  · obtain ⟨t, hrun⟩ := World.ends_run_of_keyed
      (Job.program {} .standard { duty := .attempt "n1" }) hkeyed
    have hresult : (silentWorld.run (Job.program {} .standard { duty := .attempt "n1" })).1 =
        some (.ok ()) := by decide +kernel
    rw [hresult] at hrun
    exact ⟨t, _, hrun, by decide +kernel, hjob _ _ _ _ _ hrun⟩

end PodRoutes
