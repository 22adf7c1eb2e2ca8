import PodRoutes.Proofs.Surroundings.Vouched

/-!
# A destination that no node is due

Surroundings shelter a destination if they show neither a route to it nor a node that is due one.
Then the controller stays aloof from it: it neither looks up, creates or deletes a route to it, nor
remembers one (`aloof_duty`).
-/

namespace PodRoutes

open Control

def Node.DueTo (n : Node) (d : String) : Prop :=
  ∃ i network, n.due? = some (i, network) ∧ network.text = d

/-- A request that is not about a destination. -/
def Control.Request.Aloof (d : String) : Request → Prop
  | .createRoute _ c | .findRoute c | .deleteRoute c => c ≠ d
  | .remember _ r => r.destination ≠ d
  | _ => True

namespace Exchange

/-- The routes that an answer shows. -/
def routes : Exchange → List Route
  | ⟨.createRoute _ _, some (.ok (some r))⟩ => [r]
  | ⟨.findRoute _, some (.ok (some r))⟩ => [r]
  | ⟨.listRoutes, some (.ok listed)⟩ => listed
  | ⟨.cachedRoute _, some (some r)⟩ => [r]
  | _ => []

structure Sheltered (d : String) (x : Exchange) : Prop where
  routes : ∀ r ∈ x.routes, r.destination ≠ d
  nodes : ∀ n ∈ x.nodes, ¬n.DueTo d

end Exchange

def sheltered (d : String) : Surroundings Unit := fun r _ x _ => Exchange.Sheltered d ⟨r, x⟩

/-- A program that stays aloof from a destination among surroundings that shelter it. -/
def StaysAloof {α : Type} (d : String) (Q : α → Prop) (p : Control α) : Prop :=
  Meets (sheltered d) (fun _ r => r.Aloof d) (fun _ a => Q a) p ()

namespace StaysAloof

variable {α β : Type} {d : String} {Q : α → Prop} {S : β → Prop} {p : Control α}
  {f : α → Control β}

theorem of_only {R : Request → Prop} (h : Only R p) (hR : ∀ r, R r → r.Aloof d) :
    StaysAloof d (fun _ => True) p :=
  Meets.of_only (I := fun _ => True) h (fun _ _ _ _ _ _ _ => trivial) (fun _ r _ hr => hR r hr)
    trivial

theorem done {a : α} (h : Q a) : StaysAloof d Q (.done a) := h

theorem askThen {r : Request} {f : Reply r → Control β} (hr : r.Aloof d)
    (h : ∀ x, Exchange.Sheltered d ⟨r, some x⟩ → StaysAloof d S (f x)) :
    StaysAloof d S (Program.request (I := interface) r >>= f) :=
  Meets.askThen hr fun x _ hx => h x hx

theorem bindThen (hp : StaysAloof d Q p) (hf : ∀ a, Q a → StaysAloof d S (f a)) :
    StaysAloof d S (p >>= f) :=
  Meets.bindThen hp fun _ a ha => hf a ha

theorem locked (h : StaysAloof d Q p) : StaysAloof d Q (Control.locked p) :=
  Meets.locked trivial fun _ _ => Meets.weaken h fun _ _ ha => ⟨trivial, fun _ _ => ha⟩

theorem within (h : StaysAloof d Q p) (limit : Nat) :
    StaysAloof d (fun o => ∀ a, o = some a → Q a) (Control.within limit p) :=
  Meets.within trivial (fun _ _ _ => h) (fun _ => trivial) limit

end StaysAloof

/-! ### The protocol -/

/-- The outcome is no route to a destination. -/
def Elsewhere (d : String) (x : Outcome Route) : Prop := ∀ r, x = .ok r → r.destination ≠ d

theorem Elsewhere.of_error (d : String) (e : RouteError) : Elsewhere d (.error e) := by
  intro r hr
  cases hr

theorem Elsewhere.of_ok {d : String} {r : Route} (h : r.destination ≠ d) : Elsewhere d (.ok r) := by
  intro r' hr
  cases hr
  exact h

section Protocol

variable {b : Backoff} {i c d : String} {atHand : Option (List Route)}

theorem aloof_adopt (hc : c ≠ d) (e : RouteError) :
    StaysAloof d (Elsewhere d) (Protocol.adopt i c e) := by
  refine StaysAloof.askThen hc fun x hx => ?_
  rcases x with e' | _ | r
  · exact Elsewhere.of_error d e
  · exact Elsewhere.of_error d e
  · have hr : r.destination ≠ d := hx.routes r (List.mem_singleton_self r)
    show Elsewhere d (if r.isOwnedBy i then .ok r else _)
    split
    · exact Elsewhere.of_ok hr
    · exact Elsewhere.of_error d _

theorem aloof_lookUpCreated (hc : c ≠ d) :
    StaysAloof d (Elsewhere d) (Protocol.lookUpCreated c) := by
  refine StaysAloof.askThen hc fun x hx => ?_
  rcases x with e | _ | r
  · exact Elsewhere.of_error d e
  · exact Elsewhere.of_error d _
  · exact Elsewhere.of_ok (hx.routes r (List.mem_singleton_self r))

theorem aloof_attempts (hc : c ≠ d) (left : Nat) (delay : Rat) (last : RouteError) :
    StaysAloof d (Elsewhere d) (Protocol.attempts b i c left delay last) := by
  induction left generalizing delay last with
  | zero => exact Elsewhere.of_error d last
  | succ left ih =>
    rw [Protocol.attempts]
    refine StaysAloof.askThen hc fun x hx => ?_
    rcases x with e | _ | r
    · show StaysAloof d _ (if e.isDuplicate then _ else _)
      split
      · exact aloof_adopt hc e
      · split
        · exact Elsewhere.of_error d e
        · have hrest : StaysAloof d (fun _ => True) (b.rest delay) :=
            .of_only (R := fun r => (∃ millis, r = .pause millis) ∨ r = .draw)
              (Protocol.only_rest (fun millis => .inl ⟨millis, rfl⟩) (.inr rfl) b delay)
              (by rintro r (⟨millis, rfl⟩ | rfl) <;> trivial)
          exact hrest.bindThen fun _ _ => ih _ _
    · exact aloof_lookUpCreated hc
    · exact Elsewhere.of_ok (hx.routes r (List.mem_singleton_self r))

theorem aloof_ensure (hc : c ≠ d) :
    StaysAloof d (fun x => Elsewhere d (x.map EnsuredRoute.route))
      (Protocol.ensure b i c atHand) := by
  have hfind : StaysAloof d (fun _ => True) (Protocol.find c atHand) :=
    .of_only Protocol.only_find (by rintro r rfl; exact hc)
  refine StaysAloof.locked (hfind.bindThen fun x _ => ?_)
  rcases x with e | found
  · exact Elsewhere.of_error d _
  show StaysAloof d _ (Protocol.ensureAfter b i c found)
  unfold Protocol.ensureAfter
  split
  · next r hr =>
    have hd : r.destination = c := by simpa using (Option.filter_eq_some_iff.1 hr).2
    show Elsewhere d (Except.map EnsuredRoute.route (if r.isOwnedBy i then _ else _))
    split
    · exact Elsewhere.of_ok (hd ▸ hc)
    · exact Elsewhere.of_error d _
  · refine (aloof_attempts hc _ _ _).bindThen fun x hx => ?_
    cases x with
    | error e => exact Elsewhere.of_error d e
    | ok r => exact hx

end Protocol

/-! ### The engine -/

section Engine

variable {settings : Settings} {b : Backoff} {n : Node} {d : String} {atHand : Option (List Route)}

theorem aloof_addRoute {c : String} (hc : c ≠ d) :
    StaysAloof d (fun _ => True) (Reconcile.addRoute b n c atHand) := by
  unfold Reconcile.addRoute
  split
  · trivial
  refine StaysAloof.askThen trivial fun start _ => ?_
  refine (aloof_ensure hc).bindThen fun x hx => ?_
  rcases x with e | ⟨r⟩ | ⟨r⟩
  · cases e with
    | lookup c cause => exact .askThen trivial fun _ _ => trivial
    | _ => exact .askThen trivial fun _ _ => .askThen trivial fun _ _ => trivial
  · have hr : r.destination ≠ d := hx r rfl
    exact .askThen hr fun _ _ => trivial
  · have hr : r.destination ≠ d := hx r rfl
    exact .askThen trivial fun _ _ => .askThen trivial fun _ _ => .askThen hr fun _ _ => trivial

theorem aloof_updateCondition (routeCreated : Bool) :
    StaysAloof d (fun _ => True) (Reconcile.updateCondition n routeCreated) :=
  .of_only (R := fun r => r = .patchNode n.name (Node.setNetworkCondition routeCreated) .status)
    (Only.updateCondition rfl) (by rintro r rfl; trivial)

theorem aloof_syncNode (hn : ¬n.DueTo d) :
    StaysAloof d (fun _ => True) (Reconcile.syncNode b n atHand) := by
  have hmark : StaysAloof d (fun _ => True) (Reconcile.markUnavailable n) :=
    (aloof_updateCondition false).bindThen fun _ _ => trivial
  unfold Reconcile.syncNode
  split
  · trivial
  next hskip =>
  split
  · exact hmark.bindThen fun _ _ => trivial
  · exact hmark.bindThen fun _ _ => trivial
  next network hnet =>
  have hadd : StaysAloof d (fun _ => True) (Reconcile.addRoute b n network.text atHand) := by
    cases hi : n.instanceId? with
    | none =>
      rw [Reconcile.addRoute, hi]
      trivial
    | some i =>
      have hdue : n.due? = some (i, network) :=
        Node.due?_eq_some.2 ⟨by simpa using hskip, hnet, hi⟩
      exact aloof_addRoute fun hc => hn ⟨i, network, hdue, hc⟩
  refine hadd.bindThen fun x _ => ?_
  cases x with
  | ok u => exact aloof_updateCondition true
  | error e => exact hmark.bindThen fun _ _ => trivial

theorem aloof_syncNodes {listed : List Route} {nodes : List Node}
    (hnodes : ∀ n ∈ nodes, ¬n.DueTo d) :
    StaysAloof d (fun _ => True) (Reconcile.syncNodes settings b listed nodes) := by
  induction nodes with
  | nil => trivial
  | cons n rest ih =>
    obtain ⟨hn, hrest⟩ := List.forall_mem_cons.1 hnodes
    exact ((aloof_syncNode hn).within settings.timeout).bindThen fun _ _ => ih hrest

theorem aloof_delete {c : String} (hc : c ≠ d) :
    StaysAloof d (fun _ => True) (Protocol.delete c) :=
  StaysAloof.locked (.askThen hc fun _ _ => trivial)

theorem aloof_deleteConflicting {doomed listed : List Route}
    (hdoomed : ∀ r ∈ doomed, r.destination ≠ d) :
    StaysAloof d (fun _ => True) (Reconcile.deleteConflicting doomed listed) := by
  induction doomed generalizing listed with
  | nil => trivial
  | cons r rest ih =>
    obtain ⟨hr, hrest⟩ := List.forall_mem_cons.1 hdoomed
    rw [Reconcile.deleteConflicting]
    refine (aloof_delete hr).bindThen fun x _ => ?_
    cases x with
    | error e => exact ih hrest
    | ok u => exact .askThen trivial fun _ _ => ih hrest

theorem aloof_dropConflicts :
    StaysAloof d (fun x => ∀ nodes left, x = .ok (nodes, left) → ∀ n ∈ nodes, ¬n.DueTo d)
      Reconcile.dropConflicts := by
  refine StaysAloof.askThen trivial fun x hstored => ?_
  rcases x with e | stored
  · exact nofun
  refine StaysAloof.askThen trivial fun x hlisted => ?_
  rcases x with e | listed
  · exact nofun
  refine (aloof_deleteConflicting fun r hr => hlisted.routes r (List.mem_filter.1 hr).1).bindThen ?_
  intro left _ nodes left' he n hn
  cases he
  exact hstored.nodes n (List.mem_filter.1 hn).1

theorem aloof_syncRoutes : StaysAloof d (fun _ => True) (Reconcile.syncRoutes settings b) := by
  refine (aloof_dropConflicts.within settings.timeout).bindThen fun o ho => ?_
  rcases o with _ | (e | ⟨nodes, left⟩)
  · trivial
  · trivial
  · exact (aloof_syncNodes (ho _ rfl nodes left rfl)).bindThen fun _ _ => trivial

theorem aloof_removeRoute {name : String} :
    StaysAloof d (fun _ => True) (Reconcile.removeRoute name) := by
  refine StaysAloof.askThen trivial fun x hcached => ?_
  cases x with
  | none => trivial
  | some r =>
    have hr : r.destination ≠ d := hcached.routes r (List.mem_singleton_self r)
    refine StaysAloof.askThen trivial fun start _ => (aloof_delete hr).bindThen fun x _ => ?_
    refine StaysAloof.askThen trivial fun _ _ => ?_
    cases x with
    | error e => trivial
    | ok u => exact .askThen trivial fun _ _ => trivial

theorem aloof_reconcile (name : String) :
    StaysAloof d (fun _ => True) (Reconcile.reconcile settings b name) := by
  unfold Reconcile.reconcile
  split
  · refine StaysAloof.askThen trivial fun x hx => ?_
    rcases x with e | _ | n
    · trivial
    · exact aloof_removeRoute
    · have hn : ¬n.DueTo d := hx.nodes n (List.mem_singleton_self n)
      refine (aloof_syncNode hn).bindThen fun x _ => ?_
      cases x with
      | ok u => trivial
      | error e => exact .askThen trivial fun _ _ => trivial
  · trivial

theorem aloof_duty (duty : Duty) : StaysAloof d (fun _ => True) (duty.program settings b) := by
  cases duty with
  | attempt name => exact aloof_reconcile name
  | pass =>
    show StaysAloof d _ (Reconcile.reconcileAll settings b)
    unfold Reconcile.reconcileAll
    split
    · refine StaysAloof.askThen trivial fun start _ => aloof_syncRoutes.bindThen fun _ _ => ?_
      exact .askThen trivial fun _ _ => trivial
    · trivial

theorem aloof_job (job : Job) : StaysAloof d (fun _ => True) (job.program settings b) :=
  meets_job job (fun _ => aloof_duty _) (fun _ => trivial) (fun _ => trivial) ()

end Engine

end PodRoutes
