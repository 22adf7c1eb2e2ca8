import PodRoutes.Proofs.Interleaving.Pending
import PodRoutes.Proofs.Reconcile.Conflict

/-!
# A program that nothing hinders

Without failures and with every answer in time, a program that reconciles a node gets the node's
route in place and remembers it, as long as no other instance holds the destination when the program
looks there. While it holds the lock the table stays as it left it, so what a refused create has
seen is still there to be adopted.
-/

namespace PodRoutes

open Control

def Control.Request.looksAt (c : String) : Request → Bool
  | .createRoute _ d => d == c
  | .findRoute d => d == c
  | _ => false

/-- An answer in time from a world without failures, which shows no other instance at a
destination. -/
structure Unhindered (i c : String) (a : Answer) : Prop where
  faultless : a.before.Faultless
  keyed : a.before.Keyed
  inTime : a.reply.isSome = true
  unclaimed : a.request.looksAt c = true →
    ∀ r ∈ a.before.gateway.table.get? c, r.instanceId = i

/-! ### Answers without failures -/

namespace Answer.Honest

variable {v w : World} {c i : String}

theorem find_eq {x : Outcome (Option Route)} (h : Honest ⟨.findRoute c, some x, v, w⟩)
    (hv : v.Faultless) : x = .ok (v.gateway.table.get? c) := by
  have heffect : v.effect (.findRoute c) = (x, w) := h
  have hx : (v.gateway.find c).1 = x := congrArg Prod.fst heffect
  rw [MemoryGateway.find_of_faultless hv.failures] at hx
  exact hx.symm

theorem create_cases {x : Outcome (Option Route)} (h : Honest ⟨.createRoute i c, some x, v, w⟩)
    (hv : v.Faultless) :
    (x = .error (v.gateway.duplicateError c) ∧
      ∃ r, v.gateway.table.get? c = some r ∧ w.gateway.table.get? c = some r) ∨
    ∃ r, w.gateway.table.get? c = some r ∧ r.instanceId = i ∧
      (x = .ok none ∨ x = .ok (some r)) := by
  obtain ⟨hx, hw⟩ := h.create_eq
  cases hc : v.gateway.table.contains c with
  | true =>
    rw [MemoryGateway.create_of_contains hv.failures hv.refused hc] at hx hw
    obtain ⟨r, hr⟩ := Option.isSome_iff_exists.1 hc
    have htable : w.gateway.table = v.gateway.table := by rw [← hw]
    exact Or.inl ⟨hx.symm, r, hr, by rw [htable]; exact hr⟩
  | false =>
    rw [MemoryGateway.create_of_free hv.failures hv.refused hc] at hx hw
    have htable : w.gateway.table = v.gateway.table.insert c (v.gateway.nextRoute i c) := by
      rw [← hw]
    refine Or.inr ⟨v.gateway.nextRoute i c, ?_, rfl, ?_⟩
    · rw [htable, Table.get?_insert_self]
    · cases hnone : v.gateway.createReturnsNone with
      | true => exact Or.inl (by rw [← hx, hnone]; rfl)
      | false => exact Or.inr (by rw [← hx, hnone]; rfl)

theorem delete_eq {x : Outcome Unit} (h : Honest ⟨.deleteRoute c, some x, v, w⟩)
    (hv : v.Faultless) : x = .ok () := by
  have heffect : v.effect (.deleteRoute c) = (x, w) := h
  have hx : (v.gateway.delete c).1 = x := congrArg Prod.fst heffect
  rw [MemoryGateway.delete_of_faultless hv.failures] at hx
  exact hx.symm

theorem list_eq {x : Outcome (List Route)} (h : Honest ⟨.listRoutes, some x, v, w⟩)
    (hv : v.Faultless) : x = .ok v.gateway.table.values := by
  have heffect : v.effect .listRoutes = (x, w) := h
  have hx : v.gateway.list.1 = x := congrArg Prod.fst heffect
  rw [MemoryGateway.list_of_faultless hv.failures] at hx
  exact hx.symm

theorem listNodes_eq {x : Outcome (List Node)} (h : Honest ⟨.listNodes, some x, v, w⟩)
    (hv : v.Faultless) : x = .ok v.store.nodes.values := by
  have heffect : v.effect .listNodes = (x, w) := h
  have hx : v.store.list.1 = x := congrArg Prod.fst heffect
  rw [← hx]
  simp [NodeStore.list, hv.storeFailures]

end Answer.Honest

/-! ### One destination -/

section Contract

variable {i c : String} {b : Backoff} {t : List Answer} {settings : Settings}

theorem heldBy_snoc_of_held {a : Answer} (ht : heldBy t = true) (hunlock : a.request ≠ .unlock) :
    heldBy (t ++ [a]) = true := by
  rw [heldBy_snoc, ht]
  obtain ⟨r, x, v, w⟩ := a
  cases x with
  | none => rfl
  | some x =>
    cases r with
    | unlock => exact absurd rfl hunlock
    | _ => rfl

theorem finds_own {atHand : Option (List Route)} (hc : c ≠ "") (ht : heldBy t = true)
    (hown : ∀ r ∈ atHand.getD [], r.destination = c → r.instanceId = i) :
    Obeys (Unhindered i c) (fun _ _ => True)
      (fun t' x => heldBy t' = true ∧ ∃ found, x = .ok found ∧
        ∀ r ∈ found, r.destination = c → r.instanceId = i)
      (Protocol.find c atHand) t := by
  have htable : Obeys (Unhindered i c) (fun _ _ => True)
      (fun t' x => heldBy t' = true ∧ ∃ found, x = .ok found ∧
        ∀ r ∈ found, r.destination = c → r.instanceId = i) (findRoute c) t := by
    refine ⟨trivial, fun x v w ha => ?_⟩
    have hx := ha.honest.find_eq ha.holds.faultless
    have hunclaimed := ha.holds.unclaimed (by simp [Request.looksAt])
    exact ⟨heldBy_snoc_of_held ht (by simp), _, hx, fun r hr _ => hunclaimed r hr⟩
  unfold Protocol.find
  rw [if_neg hc]
  split
  · next r rs =>
    refine ⟨ht, _, rfl, fun q hq hd => ?_⟩
    exact hown q (Route.mem_of_find? hq) hd
  · exact htable

theorem attempts_succeed (left : Nat) (delay : Rat) (last : RouteError) (ht : heldBy t = true) :
    Obeys (Unhindered i c) (fun _ _ => True) (fun _ x => ∃ r, x = .ok r)
      (Protocol.attempts b i c (left + 1) delay last) t := by
  rw [Protocol.attempts]
  refine ⟨trivial, fun x v w ha => ?_⟩
  have hheld : heldBy (t ++ [⟨.createRoute i c, some x, v, w⟩]) = true :=
    heldBy_snoc_of_held ht (by simp)
  -- a look at the destination right after the create still shows what the create left there
  have hstill : ∀ y v' w' r, w.gateway.table.get? c = some r →
      Admits (Unhindered i c) (t ++ [⟨.createRoute i c, some x, v, w⟩])
        ⟨.findRoute c, some y, v', w'⟩ → y = .ok (some r) := by
    intro y v' w' r hr hb
    obtain ⟨a, hlast, htable⟩ := hb.table hheld
    rw [List.getLast?_concat] at hlast
    obtain rfl := Option.some.inj hlast
    have htable : w.gateway.table = v'.gateway.table := htable
    rw [hb.honest.find_eq hb.holds.faultless, ← htable, hr]
  rcases ha.honest.create_cases ha.holds.faultless with ⟨rfl, r, hr, hr'⟩ | ⟨r, hr, hi, rfl | rfl⟩
  · have hown := ha.holds.unclaimed (by simp [Request.looksAt]) r hr
    have hduplicate := v.gateway.isDuplicate_duplicateError c
    show Obeys _ _ _ (if (v.gateway.duplicateError c).isDuplicate then _ else _) _
    rw [if_pos hduplicate]
    refine ⟨trivial, fun y v' w' hb => ?_⟩
    obtain rfl := hstill y v' w' r hr' hb
    have howned : r.isOwnedBy i = true := Route.isOwnedBy_iff.2 hown
    show ∃ r', (if r.isOwnedBy i then _ else _) = Except.ok r'
    rw [if_pos howned]
    exact ⟨r, rfl⟩
  · refine ⟨trivial, fun y v' w' hb => ?_⟩
    obtain rfl := hstill y v' w' r hr hb
    exact ⟨r, rfl⟩
  · exact ⟨r, rfl⟩

theorem ensure_succeeds {atHand : Option (List Route)} (hb : 0 < b.steps) (hc : c ≠ "")
    (hown : ∀ r ∈ atHand.getD [], r.destination = c → r.instanceId = i) :
    Obeys (Unhindered i c) (fun _ _ => True) (fun _ x => ∃ e, x = .ok e)
      (Protocol.ensure b i c atHand) t := by
  obtain ⟨left, hleft⟩ : ∃ left, b.steps = left + 1 := ⟨b.steps - 1, by omega⟩
  refine Obeys.locked trivial (fun x v w _ => ?_) fun _ _ h => ⟨trivial, fun _ => h⟩
  have hheld : heldBy (t ++ [⟨.lock, some x, v, w⟩]) = true := by
    rw [heldBy_snoc]
    rfl
  refine Obeys.bindThen (finds_own hc hheld hown) fun t' x hx => ?_
  obtain ⟨hheld', found, rfl, hfound⟩ := hx
  show Obeys _ _ _ (Protocol.ensureAfter b i c found) t'
  unfold Protocol.ensureAfter
  split
  · next r hr =>
    obtain ⟨hmem, hd⟩ := Option.filter_eq_some_iff.1 hr
    have hi := hfound r hmem (by simpa using hd)
    have howned : r.isOwnedBy i = true := Route.isOwnedBy_iff.2 hi
    rw [howned]
    exact ⟨_, rfl⟩
  · rw [Protocol.createHeld, hleft]
    refine Obeys.bindThen (attempts_succeed left _ _ hheld') fun t'' x hx => ?_
    obtain ⟨r, rfl⟩ := hx
    exact ⟨_, rfl⟩

/-! ### One node -/

theorem remembered_snoc (t : List Answer) (name : String) (r : Route) (v w : World) :
    Remembered (t ++ [⟨.remember name r, some (), v, w⟩]) name :=
  ⟨_, List.mem_append_right t List.mem_cons_self, rfl⟩

theorem stays_remembered {α : Type} {I : Answer → Prop} {name : String} (p : Control α)
    (h : Remembered t name) :
    Obeys I (fun _ _ => True) (fun t' _ => Remembered t' name) p t := by
  refine (Obeys.shape (Only.any p)).weaken fun t' _ ht' => ?_
  obtain ⟨g, rfl, -⟩ := ht'
  exact remembered_append.2 (Or.inl h)

variable {n : Node} {network : Network}

theorem remembers_addRoute {atHand : Option (List Route)} (hb : 0 < b.steps)
    (hdue : n.due? = some (i, network))
    (hown : ∀ r ∈ atHand.getD [], r.destination = network.text → r.instanceId = i) :
    Obeys (Unhindered i network.text) (fun _ _ => True)
      (fun t' x => x = .ok () ∧ Remembered t' n.name)
      (Reconcile.addRoute b n network.text atHand) t := by
  have hi := (Node.due?_eq_some.1 hdue).2.2
  rw [Reconcile.addRoute, hi]
  refine Obeys.askThen (P := fun _ _ => True) trivial fun start v w _ => ?_
  have hensure := ensure_succeeds (t := t ++ [⟨.now, some start, v, w⟩]) hb
    network.text_ne_empty hown
  refine Obeys.bindThen hensure fun t' x hx => ?_
  obtain ⟨e, rfl⟩ := hx
  cases e with
  | existing r =>
    refine ⟨trivial, fun y v w _ => ?_⟩
    exact ⟨rfl, remembered_snoc t' n.name r v w⟩
  | created r =>
    refine ⟨trivial, fun _ _ _ _ => ⟨trivial, fun _ _ _ _ => ⟨trivial, fun y v w _ => ?_⟩⟩⟩
    exact ⟨rfl, remembered_snoc _ n.name r v w⟩

theorem remembers_syncNode {atHand : Option (List Route)} (hb : 0 < b.steps)
    (hdue : n.due? = some (i, network))
    (hown : ∀ r ∈ atHand.getD [], r.destination = network.text → r.instanceId = i) :
    Obeys (Unhindered i network.text) (fun _ _ => True) (fun t' _ => Remembered t' n.name)
      (Reconcile.syncNode b n atHand) t := by
  obtain ⟨hskip, hnet, -⟩ := Node.due?_eq_some.1 hdue
  have hskip' : n.skipReason?.isSome = false := by rw [hskip]; rfl
  unfold Reconcile.syncNode
  rw [hskip', hnet]
  refine Obeys.bindThen (remembers_addRoute hb hdue hown) fun t' x hx => ?_
  obtain ⟨rfl, hremembered⟩ := hx
  exact stays_remembered _ hremembered

/-! ### A pass and an attempt -/

theorem remembers_syncNodes {nodes : List Node} {routes : List Route} (hb : 0 < b.steps)
    (hdue : n.due? = some (i, network)) (hn : n ∈ nodes)
    (hown : ∀ r ∈ routes, r.destination = network.text → r.instanceId = i) :
    Obeys (Unhindered i network.text) (fun _ _ => True) (fun t' _ => Remembered t' n.name)
      (Reconcile.syncNodes settings b routes nodes) t := by
  induction nodes generalizing t with
  | nil => cases hn
  | cons m rest ih =>
    rcases List.mem_cons.1 hn with rfl | hrest
    · have hturn : ∀ x v w, Obeys (Unhindered i network.text) (fun _ _ => True)
          (fun t' _ => Remembered t' n.name) (Reconcile.syncNode b n (some routes))
          (t ++ [⟨.now, some x, v, w⟩]) := fun x v w => remembers_syncNode hb hdue hown
      refine Obeys.bindThen (Obeys.within_inTime (fun _ h => h.inTime) trivial
        (fun x v w _ => hturn x v w) (fun _ => trivial) settings.timeout) fun t' o ho => ?_
      obtain ⟨x, -, hremembered⟩ := ho
      exact stays_remembered _ hremembered
    · exact Obeys.bindThen (Obeys.shape (Only.any _)) fun _ _ _ => ih hrest

theorem drops_deleteConflicting {doomed listed : List Route} :
    Obeys (Unhindered i c) (fun _ _ => True)
      (fun _ left => ∀ r ∈ left, r ∈ listed ∧ ∀ q ∈ doomed, q.destination ≠ r.destination)
      (Reconcile.deleteConflicting doomed listed) t := by
  induction doomed generalizing t listed with
  | nil =>
    intro r hr
    exact ⟨hr, by simp⟩
  | cons q rest ih =>
    rw [Reconcile.deleteConflicting]
    have hdelete : Obeys (Unhindered i c) (fun _ _ => True) (fun _ x => x = .ok ())
        (Protocol.delete q.destination) t := by
      refine Obeys.locked trivial (fun _ _ _ _ => ?_) fun _ _ h => ⟨trivial, fun _ => h⟩
      exact ⟨trivial, fun x v w ha => ha.honest.delete_eq ha.holds.faultless⟩
    refine Obeys.bindThen hdelete fun t' x hx => ?_
    subst hx
    refine ⟨trivial, fun _ _ _ _ => ih.weaken fun t' left hleft r hr => ?_⟩
    obtain ⟨hlisted, hrest⟩ := hleft r hr
    obtain ⟨hmem, hne⟩ := List.mem_filter.1 hlisted
    have hne : r.destination ≠ q.destination := by simpa using hne
    refine ⟨hmem, ?_⟩
    rw [List.forall_mem_cons]
    exact ⟨hne.symm, hrest⟩

/-- The routes that a pass keeps at hand are no other instance's for the nodes that it goes on to
reconcile. -/
theorem leaves_dropConflicts (hdue : n.due? = some (i, network)) :
    Obeys (Unhindered i network.text) (fun _ _ => True)
      (fun _ o => ∃ nodes routes, o = .ok (nodes, routes) ∧
        (n ∈ nodes → ∀ r ∈ routes, r.destination = network.text → r.instanceId = i))
      Reconcile.dropConflicts t := by
  refine ⟨trivial, fun x₁ v₁ w₁ ha₁ => ?_⟩
  have hx₁ := ha₁.honest.listNodes_eq ha₁.holds.faultless
  subst hx₁
  refine ⟨trivial, fun x₂ v₂ w₂ ha₂ => ?_⟩
  have hx₂ := ha₂.honest.list_eq ha₂.holds.faultless
  subst hx₂
  show Obeys _ _ _ (Reconcile.deleteConflicting _ _ >>= _) _
  refine Obeys.bindThen drops_deleteConflicting fun t' left hleft => ?_
  refine ⟨_, _, rfl, fun hn r hr hd => ?_⟩
  obtain ⟨hlisted, hspared⟩ := hleft r hr
  -- a route of another instance would have been among those to delete
  have hfree : Reconcile.conflictsWithNode r n = false := by
    rw [Bool.eq_false_iff]
    intro hconflict
    have hdoomed : r ∈ v₂.gateway.table.values.filter (Reconcile.conflictsWithAny
        (v₁.store.nodes.values.filter fun n => !n.isExcluded)) := by
      refine List.mem_filter.2 ⟨hlisted, ?_⟩
      exact List.any_eq_true.2 ⟨n, hn, hconflict⟩
    exact hspared r hdoomed rfl
  exact instanceId_of_not_conflicts hdue hd hfree

theorem remembers_syncRoutes (hb : 0 < b.steps) (hdue : n.due? = some (i, network))
    (ht : ∀ a ∈ t, a.shown? = none) :
    Obeys (Unhindered i network.text) (fun _ _ => True)
      (fun t' _ => n ∈ seenNodes t' → Remembered t' n.name)
      (Reconcile.syncRoutes settings b) t := by
  have hdrop : ∀ x v w, Obeys (Unhindered i network.text) (fun _ _ => True)
      (fun t' o => ∃ nodes routes, o = .ok (nodes, routes) ∧
        t'.findSome? Answer.shown? = some nodes ∧
          (n ∈ nodes → ∀ r ∈ routes, r.destination = network.text → r.instanceId = i))
      Reconcile.dropConflicts (t ++ [⟨.now, some x, v, w⟩]) := by
    intro x v w
    have hfirst := first_dropConflicts (I := Unhindered i network.text) (fun _ h => h.keyed)
      (unseen_snoc (a := ⟨.now, some x, v, w⟩) ht rfl)
    refine ((leaves_dropConflicts hdue).and hfirst).mono (fun _ _ _ => trivial)
      fun t' o ho => ?_
    obtain ⟨⟨nodes, routes, rfl, hown⟩, hfirst⟩ := ho
    exact ⟨nodes, routes, rfl, (hfirst nodes routes rfl).1, hown⟩
  refine Obeys.bindThen (Obeys.within_inTime (fun _ h => h.inTime) trivial
    (fun x v w _ => hdrop x v w) (fun _ => trivial) settings.timeout) fun t' o ho => ?_
  obtain ⟨_, rfl, nodes, routes, rfl, hfirst, hown⟩ := ho
  show Obeys _ _ _ (Reconcile.syncNodes settings b routes nodes >>= _) _
  by_cases hn : n ∈ nodes
  · refine Obeys.bindThen (remembers_syncNodes hb hdue hn (hown hn)) fun t'' _ hremembered => ?_
    exact fun _ => hremembered
  · refine Obeys.bindThen (Obeys.shape (Only.any _)) fun t'' _ ht'' => ?_
    obtain ⟨g, rfl, -⟩ := ht''
    intro hseen
    rw [seenNodes_append g hfirst] at hseen
    exact absurd hseen hn

theorem remembers_reconcileAll (hb : 0 < b.steps) (hdue : n.due? = some (i, network)) :
    Obeys (Unhindered i network.text) (fun _ _ => True)
      (fun t' _ => n ∈ seenNodes t' → Remembered t' n.name)
      (Reconcile.reconcileAll settings b) [] := by
  unfold Reconcile.reconcileAll
  split
  · refine Obeys.askThen (P := fun _ _ => True) trivial fun x v w _ => ?_
    have hunseen : ∀ a ∈ [(⟨.now, some x, v, w⟩ : Answer)], a.shown? = none := by
      simp [Answer.shown?]
    refine Obeys.bindThen (remembers_syncRoutes hb hdue hunseen) fun t' result hremembers => ?_
    refine ⟨trivial, fun y v w _ => ?_⟩
    intro hseen
    have hseen := mem_seenNodes_of_snoc rfl hseen
    exact remembered_append.2 (Or.inl (hremembers hseen))
  · intro hseen
    cases hseen

theorem remembers_reconcile {name : String} (hb : 0 < b.steps)
    (hdue : n.due? = some (i, network)) (ht : ∀ a ∈ t, a.shown? = none) :
    Obeys (Unhindered i network.text) (fun _ _ => True)
      (fun t' _ => n ∈ seenNodes t' → Remembered t' n.name)
      (Reconcile.reconcile settings b name) t := by
  have hunseen : ∀ {g : List Answer}, (∀ a ∈ g, a.shown? = none) → n ∉ seenNodes g := by
    intro g hg hseen
    rw [seenNodes, List.findSome?_eq_none_iff.2 hg] at hseen
    cases hseen
  unfold Reconcile.reconcile
  split
  · refine Obeys.askThen (P := fun _ _ => True) trivial fun x v w _ => ?_
    rcases x with e | _ | m
    · have hg := unseen_snoc (a := ⟨.getNode name, some (.error e), v, w⟩) ht rfl
      exact fun hseen => absurd hseen (hunseen hg)
    · have hg := unseen_snoc (a := ⟨.getNode name, some (.ok none), v, w⟩) ht rfl
      refine (Obeys.shape Only.removeRoute).weaken fun t' _ ht' => ?_
      obtain ⟨g, rfl, hshows⟩ := ht'
      intro hseen
      rcases mem_seenNodes_append_inv hseen with h | ⟨a, ha, nodes, hshown, -⟩
      · exact absurd h (hunseen hg)
      · rw [(hshows a ha).shown?_eq_none] at hshown
        cases hshown
    · have hfirst := first_snoc_of_unseen ht (a := ⟨.getNode name, some (.ok (some m)), v, w⟩) rfl
      show Obeys _ _ _ (Reconcile.syncNode b m none >>= _) _
      by_cases hm : n = m
      · subst hm
        have hown : ∀ r ∈ (none : Option (List Route)).getD [],
            r.destination = network.text → r.instanceId = i := by simp
        refine Obeys.bindThen (remembers_syncNode hb hdue hown) fun t' y hremembered => ?_
        exact (stays_remembered _ hremembered).weaken fun _ _ h _ => h
      · refine (Obeys.shape (Only.any _)).weaken fun t' _ ht' => ?_
        obtain ⟨g, rfl, -⟩ := ht'
        intro hseen
        rw [seenNodes_append g hfirst] at hseen
        exact absurd (List.mem_singleton.1 hseen) hm
  · exact fun hseen => absurd hseen (hunseen ht)

/-- A program of the controller that nothing hinders remembers what it has seen and is due. -/
theorem remembers_member (hb : 0 < b.steps) (hdue : n.due? = some (i, network))
    (errands : Nat → Errand) (w : World) (m : Member) :
    Obeys (Unhindered i network.text) (fun _ _ => True)
      (fun t' _ => n ∈ seenNodes t' → Remembered t' n.name)
      ((controllerCrew settings b errands w).left m) [] := by
  cases m with
  | pass => exact Obeys.bindThen (remembers_reconcileAll hb hdue) fun _ _ h => h
  | errand k =>
    show Obeys _ _ _ ((errands k).program settings b) []
    unfold Errand.program
    split
    · have hunseen : ∀ a ∈ ([] : List Answer), a.shown? = none := by simp
      exact Obeys.bindThen (remembers_reconcile hb hdue hunseen) fun _ _ h => h
    · have hreconcile : ∀ x v w, Obeys (Unhindered i network.text) (fun _ _ => True)
          (fun t' _ => n ∈ seenNodes t' → Remembered t' n.name)
          (Reconcile.reconcile settings b (errands k).name) ([] ++ [⟨.now, some x, v, w⟩]) := by
        intro x v w
        apply remembers_reconcile hb hdue
        simp [Answer.shown?]
      refine (Obeys.within_inTime (fun _ h => h.inTime) trivial (fun x v w _ => hreconcile x v w)
        (fun _ => trivial) _).weaken fun t' o ho => ?_
      obtain ⟨_, -, hremembers⟩ := ho
      exact hremembers

end Contract

end PodRoutes
