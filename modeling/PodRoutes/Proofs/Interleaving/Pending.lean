import PodRoutes.Proofs.Interleaving.Engine
import PodRoutes.Proofs.Interleaving.NodeRequests
import PodRoutes.Proofs.Interleaving.Seen

/-!
# Nodes that wait for their route

A program sees nodes in a listing or by a look at one name, and from then on works on what it saw.
It creates and remembers routes only for nodes that it has seen and not remembered yet
(`ServesPending`).
-/

namespace PodRoutes

open Control

/-! ### What a program has seen and remembered -/

def Remembered (t : List Answer) (name : String) : Prop :=
  ∃ a ∈ t, a.request.remembered? = some name

instance (t : List Answer) (name : String) : Decidable (Remembered t name) :=
  inferInstanceAs (Decidable (∃ a ∈ t, a.request.remembered? = some name))

/-- A node was seen that is due a route and was not remembered since. -/
structure Pending (t : List Answer) (n : Node) : Prop where
  seen : n ∈ seenNodes t
  due : n.dueRoute?.isSome = true
  notRemembered : ¬Remembered t n.name

variable {t g : List Answer} {n : Node} {nodes : List Node}

theorem remembered_append {name : String} :
    Remembered (t ++ g) name ↔ Remembered t name ∨ Remembered g name := by
  simp only [Remembered, List.mem_append, or_and_right, exists_or]

theorem Pending.append (h : Pending t n) (hg : ¬Remembered g n.name) : Pending (t ++ g) n := by
  refine ⟨mem_seenNodes_append g h.seen, h.due, ?_⟩
  rw [remembered_append]
  rintro (ht | hg')
  · exact h.notRemembered ht
  · exact hg hg'

theorem Pending.of_append (h : Pending (t ++ g) n) (hseen : n ∈ seenNodes t) : Pending t n :=
  ⟨hseen, h.due, fun ht => h.notRemembered (remembered_append.2 (Or.inl ht))⟩

theorem Pending.snoc (h : Pending t n) {a : Answer} (ha : a.request.remembered? = none) :
    Pending (t ++ [a]) n := by
  apply h.append
  rintro ⟨b, hb, hname⟩
  rw [List.mem_singleton.1 hb, ha] at hname
  cases hname

/-! ### The contract -/

/-- A route is created or remembered for a pending node. -/
structure ServesPending (t : List Answer) (r : Request) : Prop where
  created : ∀ d, r.created? = some d → ∃ n, Pending t n ∧ n.dueRoute? = some d
  remembered : ∀ name, r.remembered? = some name → ∃ n, Pending t n ∧ n.name = name

theorem servesPending_of_none {r : Request} (hc : r.created? = none) (hr : r.remembered? = none) :
    ServesPending t r := by
  constructor
  · intro d hd
    rw [hc] at hd
    cases hd
  · intro name hname
    rw [hr] at hname
    cases hname

theorem Node.MayAsk.servesPending_of_not_due {r : Request} (h : n.MayAsk r)
    (hdue : n.dueRoute? = none) : ServesPending t r := by
  cases r with
  | createRoute i c =>
    have hd : n.dueRoute? = some (i, c) := h
    rw [hdue] at hd
    cases hd
  | remember name route =>
    have hsome := h.2
    rw [hdue] at hsome
    cases hsome
  | _ => exact servesPending_of_none rfl rfl

theorem Node.MayAskToEnsure.remembered?_eq_none {r : Request} (h : n.MayAskToEnsure r) :
    r.remembered? = none := by
  cases r with
  | remember name route => exact h.elim
  | _ => rfl

theorem Node.MayAskToEnsure.servesPending {r : Request} (h : n.MayAskToEnsure r)
    (hn : Pending t n) : ServesPending t r := by
  cases r with
  | createRoute i c =>
    constructor
    · intro d hd
      cases hd
      exact ⟨n, hn, h⟩
    · intro name hname
      cases hname
  | remember name route => exact h.elim
  | _ => exact servesPending_of_none rfl rfl

theorem Pending.servesPending_remember (hn : Pending t n) (route : Route) :
    ServesPending t (.remember n.name route) := by
  constructor
  · intro d hd
    cases hd
  · intro name hname
    cases hname
    exact ⟨n, hn, rfl⟩

theorem not_remembered_of_mayAsk {m : Node} (hg : ∀ a ∈ g, n.MayAsk a.request)
    (hne : m.name ≠ n.name) : ¬Remembered g m.name := by
  rintro ⟨a, ha, hname⟩
  have hmay := hg a ha
  cases hr : a.request with
  | remember name route =>
    rw [hr] at hmay hname
    cases hname
    exact hne hmay.1
  | _ =>
    rw [hr] at hname
    cases hname

/-! ### Programs that add nothing -/

def Control.Request.AddsNothing (r : Request) : Prop := r.created? = none ∧ r.remembered? = none

def Control.Request.Removes : Request → Prop
  | .cachedRoute _ | .deleteRoute _ | .forget _ | .observe _ _ | .now | .lock | .unlock => True
  | _ => False

theorem Control.Request.Removes.addsNothing {r : Request} (h : r.Removes) : r.AddsNothing := by
  cases r with
  | createRoute i c => exact h.elim
  | remember name route => exact h.elim
  | _ => exact ⟨rfl, rfl⟩

theorem Control.Request.Removes.shown?_eq_none {a : Answer} (h : a.request.Removes) :
    a.shown? = none := by
  obtain ⟨r, x, v, w⟩ := a
  cases r with
  | getNode name => exact h.elim
  | listNodes => exact h.elim
  | _ => rfl

theorem Control.Request.AddsNothing.servesPending {r : Request} (h : r.AddsNothing) :
    ServesPending t r := servesPending_of_none h.1 h.2

theorem not_remembered_of_addsNothing {name : String} (hg : ∀ a ∈ g, a.request.AddsNothing) :
    ¬Remembered g name := by
  rintro ⟨a, ha, hname⟩
  rw [(hg a ha).2] at hname
  cases hname

theorem not_remembered_snoc {name : String} {a : Answer} (ha : a.request.remembered? = none)
    (h : ¬Remembered t name) : ¬Remembered (t ++ [a]) name := by
  rw [remembered_append]
  rintro (ht | ⟨b, hb, hname⟩)
  · exact h ht
  · rw [List.mem_singleton.1 hb, ha] at hname
    cases hname

namespace Only

theorem removeRoute {name : String} : Only Request.Removes (Reconcile.removeRoute name) := by
  have hdelete : ∀ c, Only Request.Removes (Protocol.delete c) :=
    fun c => locked (ask trivial) trivial trivial
  unfold Reconcile.removeRoute
  refine askThen trivial fun x => ?_
  split
  · exact done _
  · refine askThen trivial fun start => bind (hdelete _) fun x => askThen trivial fun _ => ?_
    split
    · exact askThen trivial fun _ => done _
    · exact done _

theorem deleteConflicting {doomed listed : List Route} :
    Only (fun r => r.Removes ∨ ∃ c, r = .evict c) (Reconcile.deleteConflicting doomed listed) := by
  induction doomed generalizing listed with
  | nil => exact done _
  | cons r rest ih =>
    rw [Reconcile.deleteConflicting]
    have hdelete : Only (fun r => r.Removes ∨ ∃ c, r = .evict c) (Protocol.delete r.destination) :=
      locked (ask (.inl trivial)) (.inl trivial) (.inl trivial)
    refine bind hdelete fun x => ?_
    split
    · exact ih
    · exact askThen (.inr ⟨_, rfl⟩) fun _ => ih

theorem dropConflicts : Only Request.AddsNothing Reconcile.dropConflicts := by
  have hdelete : ∀ {doomed listed : List Route},
      Only Request.AddsNothing (Reconcile.deleteConflicting doomed listed) := by
    refine deleteConflicting.mono fun r hr => ?_
    rcases hr with hr | ⟨c, rfl⟩
    · exact hr.addsNothing
    · exact ⟨rfl, rfl⟩
  unfold Reconcile.dropConflicts
  refine askThen ⟨rfl, rfl⟩ fun x => ?_
  split
  · exact done _
  · refine askThen ⟨rfl, rfl⟩ fun y => ?_
    split
    · exact done _
    · exact bind hdelete fun _ => done _

end Only

section Contract

variable {I : Answer → Prop} {b : Backoff} {settings : Settings} {atHand : Option (List Route)}

theorem servesPending_of_only {α : Type} {R : Request → Prop} {p : Control α} (h : Only R p)
    (hR : ∀ t r, R r → ServesPending t r) : Obeys I ServesPending (fun _ _ => True) p t :=
  (Obeys.of_only h fun _ r _ hr => hR _ r hr).weaken fun _ _ _ => trivial

theorem servesPending_ensure {i : String} {network : Network} (hdue : n.due? = some (i, network))
    (hn : Pending t n) :
    Obeys I ServesPending (fun t _ => Pending t n)
      (Protocol.ensure b i network.text atHand) t := by
  have hnone : ∀ g : List Answer, (∀ a ∈ g, n.MayAskToEnsure a.request) →
      ¬Remembered g n.name := by
    rintro g hg ⟨a, ha, hname⟩
    rw [(hg a ha).remembered?_eq_none] at hname
    cases hname
  have honly : Only n.MayAskToEnsure (Protocol.ensure b i network.text atHand) := Only.ensure hdue
  have hobeys := Obeys.of_only (I := I) (P := ServesPending) (t := t) honly
    fun g r hg hr => hr.servesPending (hn.append (hnone g hg))
  refine hobeys.weaken fun t' x ht' => ?_
  obtain ⟨g, rfl, hg⟩ := ht'
  exact hn.append (hnone g hg)

theorem servesPending_addRoute {i : String} {network : Network}
    (hdue : n.due? = some (i, network)) (hn : Pending t n) :
    Obeys I ServesPending (fun _ _ => True) (Reconcile.addRoute b n network.text atHand) t := by
  have hi := (Node.due?_eq_some.1 hdue).2.2
  have hplain : ∀ t, ServesPending t .now := fun t => servesPending_of_none rfl rfl
  have hobserve : ∀ t verb start, ServesPending t (.observe verb start) :=
    fun t verb start => servesPending_of_none rfl rfl
  have hrecord : ∀ t event, ServesPending t (.record event) :=
    fun t event => servesPending_of_none rfl rfl
  rw [Reconcile.addRoute, hi]
  refine Obeys.askThen (hplain t) fun start v w _ => ?_
  refine Obeys.bindThen (servesPending_ensure hdue (hn.snoc rfl)) fun t' x hn' => ?_
  rcases x with e | ⟨r⟩ | ⟨r⟩
  · cases e with
    | lookup c cause => exact ⟨hrecord _ _, fun _ _ _ _ => trivial⟩
    | _ => exact ⟨hobserve _ _ _, fun _ _ _ _ => ⟨hrecord _ _, fun _ _ _ _ => trivial⟩⟩
  · exact ⟨hn'.servesPending_remember r, fun _ _ _ _ => trivial⟩
  · refine ⟨hobserve _ _ _, fun _ _ _ _ => ⟨hrecord _ _, fun _ _ _ _ => ?_⟩⟩
    refine ⟨Pending.servesPending_remember ?_ r, fun _ _ _ _ => trivial⟩
    refine Pending.snoc (Pending.snoc hn' ?_) ?_
    · rfl
    · rfl

theorem servesPending_syncNode (hseen : n ∈ seenNodes t) (hnew : ¬Remembered t n.name) :
    Obeys I ServesPending (fun _ _ => True) (Reconcile.syncNode b n atHand) t := by
  have hmark : ∀ t, Obeys I ServesPending (fun _ _ => True) (Reconcile.markUnavailable n) t :=
    fun t => servesPending_of_only (R := Request.AddsNothing) (Only.markUnavailable ⟨rfl, rfl⟩)
      fun _ _ h => h.servesPending
  cases hdue : n.due? with
  | none =>
    have hnone : n.dueRoute? = none := by rw [Node.dueRoute?, hdue]; rfl
    exact servesPending_of_only Only.syncNode fun _ _ h => h.servesPending_of_not_due hnone
  | some d =>
    obtain ⟨i, network⟩ := d
    obtain ⟨hskip, hnet, -⟩ := Node.due?_eq_some.1 hdue
    have hn : Pending t n := ⟨hseen, by rw [Node.dueRoute?_of_due hdue]; rfl, hnew⟩
    have hskip' : n.skipReason?.isSome = false := by rw [hskip]; rfl
    unfold Reconcile.syncNode
    rw [hskip', hnet]
    refine Obeys.bindThen (servesPending_addRoute hdue hn) fun t' x _ => ?_
    cases x with
    | ok u =>
      exact servesPending_of_only (R := Request.AddsNothing) (Only.updateCondition ⟨rfl, rfl⟩)
        fun _ _ h => h.servesPending
    | error e => exact Obeys.bindThen (hmark t') fun _ _ _ => trivial

theorem servesPending_syncNodes {routes : List Route} (hseen : ∀ n ∈ nodes, n ∈ seenNodes t)
    (hnew : ∀ n ∈ nodes, ¬Remembered t n.name)
    (hdistinct : nodes.Pairwise fun m n => m.name ≠ n.name) :
    Obeys I ServesPending (fun _ _ => True) (Reconcile.syncNodes settings b routes nodes) t := by
  induction nodes generalizing t with
  | nil => exact trivial
  | cons n rest ih =>
    rw [List.forall_mem_cons] at hseen hnew
    obtain ⟨hnames, hdistinct⟩ := List.pairwise_cons.1 hdistinct
    have honly : Only n.MayAsk
        (Control.within settings.timeout (Reconcile.syncNode b n (some routes))) :=
      Only.syncNode.within trivial trivial _
    have hturn : ∀ x v w, Obeys I ServesPending (fun _ _ => True)
        (Reconcile.syncNode b n (some routes)) (t ++ [⟨.now, some x, v, w⟩]) := fun x v w =>
      servesPending_syncNode (mem_seenNodes_append _ hseen.1) (not_remembered_snoc rfl hnew.1)
    have hserves := Obeys.within_of_any (servesPending_of_none rfl rfl) hturn
      (fun _ => servesPending_of_none rfl rfl) settings.timeout
    refine Obeys.bind ((hserves.and (Obeys.shape honly)).mono (fun _ _ h => h.1)
      fun t' o ht' => ?_)
    obtain ⟨-, g, rfl, hg⟩ := ht'
    refine ih ?_ ?_ hdistinct
    · exact fun m hm => mem_seenNodes_append g (hseen.2 m hm)
    · intro m hm
      rw [remembered_append]
      rintro (ht | hg')
      · exact hnew.2 m hm ht
      · exact not_remembered_of_mayAsk hg (hnames m hm).symm hg'

theorem first_dropConflicts (hI : ∀ a, I a → a.before.Keyed) (ht : ∀ a ∈ t, a.shown? = none) :
    Obeys I (fun _ _ => True) (fun t' o => ∀ nodes routes, o = .ok (nodes, routes) →
      t'.findSome? Answer.shown? = some nodes ∧ nodes.Pairwise fun m n => m.name ≠ n.name)
      Reconcile.dropConflicts t := by
  refine ⟨trivial, fun x₁ v₁ w₁ ha => ?_⟩
  cases x₁ with
  | error e =>
    intro nodes routes h
    cases h
  | ok stored =>
    have hpairwise := ha.honest.shown_pairwise (hI _ ha.holds) rfl
    have hfirst := first_snoc_of_unseen ht
      (a := ⟨.listNodes, some (.ok stored), v₁, w₁⟩) rfl
    refine ⟨trivial, fun x₂ v₂ w₂ _ => ?_⟩
    cases x₂ with
    | error e =>
      intro nodes routes h
      cases h
    | ok listed =>
      show Obeys I (fun _ _ => True) _ (Reconcile.deleteConflicting _ listed >>= _) _
      refine Obeys.bindThen (Obeys.shape Only.deleteConflicting) fun t' left ht' => ?_
      obtain ⟨g, rfl, -⟩ := ht'
      intro nodes routes h
      cases h
      exact ⟨first_append g (first_append _ hfirst), hpairwise⟩

theorem servesPending_syncRoutes (hI : ∀ a, I a → a.before.Keyed)
    (ht : ∀ a ∈ t, a.shown? = none) (hnone : ∀ name, ¬Remembered t name) :
    Obeys I ServesPending (fun _ _ => True) (Reconcile.syncRoutes settings b) t := by
  have honly : Only Request.AddsNothing
      (Control.within settings.timeout Reconcile.dropConflicts) :=
    Only.dropConflicts.within ⟨rfl, rfl⟩ ⟨rfl, rfl⟩ _
  have hfirst := Obeys.within_of_any (t := t) trivial
    (fun x v w => first_dropConflicts hI (unseen_snoc (a := ⟨.now, some x, v, w⟩) ht rfl))
    (fun _ => trivial) settings.timeout
  have hserves := servesPending_of_only (I := I) (t := t) honly fun _ _ h => h.servesPending
  refine Obeys.bind ((hserves.and (hfirst.and (Obeys.shape honly))).mono (fun _ _ h => h.1)
    fun t' o h => ?_)
  obtain ⟨-, hfirst, g, rfl, hg⟩ := h
  rcases o with _ | (e | ⟨nodes, routes⟩)
  · exact trivial
  · exact trivial
  · obtain ⟨hnodes, hdistinct⟩ := hfirst _ rfl nodes routes rfl
    show Obeys I ServesPending (fun _ _ => True)
      (Reconcile.syncNodes settings b routes nodes >>= _) _
    refine Obeys.bindThen (servesPending_syncNodes ?_ ?_ hdistinct) fun _ _ _ => trivial
    · intro n hn
      rw [seenNodes_of_first hnodes]
      exact hn
    · intro n _
      rw [remembered_append]
      rintro (h | h)
      · exact hnone n.name h
      · exact not_remembered_of_addsNothing hg h

theorem servesPending_reconcileAll (hI : ∀ a, I a → a.before.Keyed) :
    Obeys I ServesPending (fun _ _ => True) (Reconcile.reconcileAll settings b) [] := by
  unfold Reconcile.reconcileAll
  split
  · refine Obeys.askThen (servesPending_of_none rfl rfl) fun x v w _ => ?_
    refine Obeys.bindThen (servesPending_syncRoutes hI ?_ ?_) fun t result _ => ?_
    · simp [Answer.shown?]
    · intro name
      exact not_remembered_snoc (t := []) rfl (by simp [Remembered])
    · exact ⟨servesPending_of_none rfl rfl, fun _ _ _ _ => trivial⟩
  · exact trivial

theorem servesPending_reconcile {name : String} (ht : ∀ a ∈ t, a.shown? = none)
    (hnone : ∀ name, ¬Remembered t name) :
    Obeys I ServesPending (fun _ _ => True) (Reconcile.reconcile settings b name) t := by
  unfold Reconcile.reconcile
  split
  · refine Obeys.askThen (servesPending_of_none rfl rfl) fun x v w _ => ?_
    rcases x with e | _ | n
    · exact trivial
    · exact servesPending_of_only Only.removeRoute fun _ _ h => h.addsNothing.servesPending
    · have hfirst := first_snoc_of_unseen ht (a := ⟨.getNode name, some (.ok (some n)), v, w⟩) rfl
      have hseen : n ∈ seenNodes (t ++ [⟨.getNode name, some (.ok (some n)), v, w⟩]) := by
        rw [seenNodes_of_first hfirst]
        exact List.mem_singleton.2 rfl
      have hnew := not_remembered_snoc (a := ⟨.getNode name, some (.ok (some n)), v, w⟩) rfl
        (hnone n.name)
      refine Obeys.bindThen (servesPending_syncNode hseen hnew) fun t' y _ => ?_
      cases y with
      | ok u => exact trivial
      | error e => exact ⟨servesPending_of_none rfl rfl, fun _ _ _ _ => trivial⟩
  · exact trivial

/-- Every program of the controller serves only what it has seen and not remembered yet. -/
theorem servesPending_member (hI : ∀ a, I a → a.before.Keyed) (errands : Nat → Errand) (w : World)
    (i : Member) :
    Obeys I ServesPending (fun _ _ => True) ((controllerCrew settings b errands w).left i) [] := by
  cases i with
  | pass =>
    exact Obeys.bindThen (servesPending_reconcileAll hI) fun _ _ _ => trivial
  | errand k =>
    show Obeys I ServesPending (fun _ _ => True) ((errands k).program settings b) []
    unfold Errand.program
    split
    · refine Obeys.bindThen (servesPending_reconcile ?_ ?_) fun _ _ _ => trivial
      · simp
      · simp [Remembered]
    · have hserves : ∀ x v w, Obeys I ServesPending (fun _ _ => True)
          (Reconcile.reconcile settings b (errands k).name) [⟨.now, some x, v, w⟩] := by
        intro x v w
        refine servesPending_reconcile ?_ ?_
        · simp [Answer.shown?]
        · intro name
          exact not_remembered_snoc (t := []) rfl (by simp [Remembered])
      exact (Obeys.within_of_any (servesPending_of_none rfl rfl) hserves
        (fun _ => servesPending_of_none rfl rfl) _).weaken fun _ _ _ => trivial

end Contract

end PodRoutes
