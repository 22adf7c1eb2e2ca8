import PodRoutes.Proofs.Protocol.Requests
import PodRoutes.Proofs.Surroundings.Meets
import PodRoutes.Proofs.World.Effect

/-!
# Gateways whose replies get lost

A truthful gateway never replaces a route, says that a create was carried out only if it was, and
shows what is in the table. Its errors mean nothing: a create that fails may have taken effect, and
a refusal may be given for a destination that is free. Creating a route over such a gateway is safe,
and what is left undone is found by the next attempt (`lost_replies_are_safe`).
-/

namespace PodRoutes

open Control

/-! ### Truthful gateways -/

/-- The table as it was, or with a route of the instance to the destination, which was free. -/
def Gains (instanceId destination : String) (t t' : Table Route) : Prop :=
  t' = t ∨ t.get? destination = none ∧ ∃ r : Route,
    r.destination = destination ∧ r.instanceId = instanceId ∧ t' = t.insert destination r

/-- Nobody else writes the table, and of what the gateway says only its errors may mislead. -/
structure Truthful {σ : Type} (E : Surroundings σ) (table : σ → Table Route) : Prop where
  taken : ∀ i c s x s' r, (table s).get? c = some r → E (.createRoute i c) s (some x) s' →
    (∃ e, x = .error e) ∧ table s' = table s
  /-- Whatever is done and said, the reply is no other route than the new one. -/
  free : ∀ i c s x s', (table s).get? c = none → E (.createRoute i c) s (some x) s' →
    (∃ e, x = .error e) ∧ table s' = table s ∨
      ∃ r : Route, r.destination = c ∧ r.instanceId = i ∧ table s' = (table s).insert c r ∧
        ∀ o, x = .ok o → o = none ∨ o = some r
  find : ∀ c s o s', E (.findRoute c) s (some (.ok o)) s' → o = (table s).get? c
  still : ∀ r s x s', r.isWrite = false → E r s x s' → table s' = table s

theorem Truthful.restrict {σ : Type} {E E' : Surroundings σ} {table : σ → Table Route}
    (h : Truthful E table) (hE : ∀ r s x s', E' r s x s' → E r s x s') : Truthful E' table where
  taken i c s x s' r hr hx := h.taken i c s x s' r hr (hE _ _ _ _ hx)
  free i c s x s' hfree hx := h.free i c s x s' hfree (hE _ _ _ _ hx)
  find c s o s' hx := h.find c s o s' (hE _ _ _ _ hx)
  still r s x s' hr hx := h.still r s x s' hr (hE _ _ _ _ hx)

namespace Gains

variable {i c : String} {t t' t'' : Table Route} {r : Route}

theorem of_taken (h : Gains i c t t') (hr : t.get? c = some r) : t' = t := by
  rcases h with he | ⟨hfree, -⟩
  · exact he
  · rw [hr] at hfree
    cases hfree

theorem trans (h : Gains i c t t') (h' : Gains i c t' t'') : Gains i c t t'' := by
  rcases h with rfl | ⟨hfree, r, hd, hi, rfl⟩
  · exact h'
  · have hsame : t'' = t.insert c r := h'.of_taken (Table.get?_insert_self t c r)
    exact Or.inr ⟨hfree, r, hd, hi, hsame⟩

theorem exists_of_ne (h : Gains i c t t') (hne : t' ≠ t) :
    ∃ r, t'.get? c = some r ∧ r.destination = c ∧ r.instanceId = i := by
  rcases h with he | ⟨-, r, hd, hi, rfl⟩
  · exact absurd he hne
  · exact ⟨r, Table.get?_insert_self t c r, hd, hi⟩

end Gains

/-- What a create leaves in the table, and that it answers with nothing else. -/
structure Places (i c : String) (t t' : Table Route) (x : Outcome Route) : Prop where
  gains : Gains i c t t'
  entry : ∀ r, x = .ok r → t'.get? c = some r ∧ r.instanceId = i

namespace Places

variable {i c : String} {t t' t'' : Table Route} {x : Outcome Route}

theorem of_error (h : Gains i c t t') (e : RouteError) : Places i c t t' (.error e) :=
  ⟨h, fun r hr => by cases hr⟩

theorem after (h : Gains i c t t') (hx : Places i c t' t'' x) : Places i c t t'' x :=
  ⟨h.trans hx.gains, hx.entry⟩

theorem refused (h : Places i c t t' x) {r : Route} (hr : t.get? c = some r)
    (hi : r.instanceId ≠ i) : (∃ e, x = .error e) ∧ t' = t := by
  have hsame : t' = t := h.gains.of_taken hr
  cases x with
  | error e => exact ⟨⟨e, rfl⟩, hsame⟩
  | ok q =>
    obtain ⟨hq, howner⟩ := h.entry q rfl
    rw [hsame, hr] at hq
    cases hq
    exact absurd howner hi

end Places

/-- What a call does about a destination that has a route: it creates nothing and tells who has it,
or its lookup fails. -/
structure Reports (i c : String) (r : Route) (t : List Exchange) (x : Outcome EnsuredRoute) :
    Prop where
  creates : ∀ y ∈ t, y.request.created? = none
  answer : x = (if r.isOwnedBy i then .ok (.existing r)
      else .error (.ownedByOther c r.instanceId i)) ∨
    (∃ e, x = .error (.lookup c e)) ∧ ∀ o, ⟨.findRoute c, some (.ok o)⟩ ∉ t

theorem Reports.locked {i c : String} {r : Route} {t : List Exchange} {x : Outcome EnsuredRoute}
    (h : Reports i c r t x) :
    Reports i c r (⟨.lock, some ()⟩ :: (t ++ [⟨.unlock, some ()⟩])) x := by
  constructor
  · intro y hy
    rcases List.mem_cons.1 hy with rfl | hy
    · rfl
    rcases List.mem_append.1 hy with hy | hy
    · exact h.creates y hy
    · obtain rfl := List.mem_singleton.1 hy
      rfl
  · rcases h.answer with hx | ⟨hx, hfailed⟩
    · exact Or.inl hx
    · exact Or.inr ⟨hx, by simpa using hfailed⟩

/-! ### Contracts of the protocol -/

theorem Protocol.find_of_ne {c : String} (hc : c ≠ "") : Protocol.find c none = findRoute c := by
  rw [Protocol.find, if_neg hc]
  exact nofun

theorem Protocol.find_empty :
    Protocol.find "" none = pure (.error (.invalidCidr .emptyQuery)) := rfl

theorem Protocol.ensureAfter_of_destination (b : Backoff) (i : String) {c : String} {r : Route}
    (hd : r.destination = c) : Protocol.ensureAfter b i c (some r) =
      pure (if r.isOwnedBy i then .ok (.existing r)
        else .error (.ownedByOther c r.instanceId i)) := by
  simp [Protocol.ensureAfter, Option.filter, hd]

namespace Truthful

variable {σ : Type} {E : Surroundings σ} {table : σ → Table Route} {b : Backoff} {i c : String}
  {s s' : σ}

theorem create_cases (hE : Truthful E table) {x : Outcome (Option Route)}
    (hx : E (.createRoute i c) s (some x) s') :
    Gains i c (table s) (table s') ∧ ∀ o, x = .ok o →
      ∃ r, (table s').get? c = some r ∧ r.instanceId = i ∧ (o = none ∨ o = some r) := by
  cases hc : (table s).get? c with
  | some r =>
    obtain ⟨⟨e, rfl⟩, hsame⟩ := hE.taken i c s x s' r hc hx
    exact ⟨Or.inl hsame, fun o ho => by cases ho⟩
  | none =>
    rcases hE.free i c s x s' hc hx with ⟨⟨e, rfl⟩, hsame⟩ | ⟨r, hd, hi, hadded, ho⟩
    · exact ⟨Or.inl hsame, fun o ho => by cases ho⟩
    · have hentry : (table s').get? c = some r := by
        rw [hadded]
        exact Table.get?_insert_self _ c r
      exact ⟨Or.inr ⟨hc, r, hd, hi, hadded⟩, fun o he => ⟨r, hentry, hi, ho o he⟩⟩

theorem meets_adopt (hE : Truthful E table) (refusal : RouteError) :
    Meets E (fun _ _ => True) (fun s' x => Places i c (table s) (table s') x)
      (Protocol.adopt i c refusal) s := by
  refine Meets.askThen trivial fun x s' hx => ?_
  have hsame : Gains i c (table s) (table s') := Or.inl (hE.still _ _ _ _ rfl hx)
  rcases x with e | _ | r
  · exact Places.of_error hsame refusal
  · exact Places.of_error hsame refusal
  · have hr := hE.find c s (some r) s' hx
    have hstill := hE.still (.findRoute c) s _ s' rfl hx
    show Places i c (table s) (table s') (if r.isOwnedBy i then .ok r else _)
    split
    · next howned =>
      refine ⟨hsame, fun q hq => ?_⟩
      cases hq
      rw [hstill]
      exact ⟨hr.symm, Route.isOwnedBy_iff.1 howned⟩
    · exact Places.of_error hsame _

theorem meets_lookUpCreated (hE : Truthful E table)
    (hentry : ∃ r, (table s).get? c = some r ∧ r.instanceId = i) :
    Meets E (fun _ _ => True) (fun s' x => Places i c (table s) (table s') x)
      (Protocol.lookUpCreated c) s := by
  refine Meets.askThen trivial fun x s' hx => ?_
  have hstill := hE.still (.findRoute c) s _ s' rfl hx
  rcases x with e | _ | r
  · exact Places.of_error (Or.inl hstill) e
  · exact Places.of_error (Or.inl hstill) _
  · have hr := hE.find c s (some r) s' hx
    obtain ⟨q, hq, hi⟩ := hentry
    rw [hq] at hr
    cases hr
    refine ⟨Or.inl hstill, fun r hr => ?_⟩
    cases hr
    rw [hstill]
    exact ⟨hq, hi⟩

theorem meets_rest (hE : Truthful E table) (delay : Rat) :
    Meets E (fun _ _ => True) (fun s' _ => table s' = table s) (b.rest delay) s := by
  have honly : Only (fun r => r.isWrite = false) (b.rest delay) :=
    Protocol.only_rest (R := fun r => r.isWrite = false) (fun _ => rfl) rfl b delay
  refine Meets.of_only (I := fun s' => table s' = table s) honly ?_ (fun _ _ _ _ => trivial) rfl
  intro r s₁ x s₂ hr hs hx
  rw [hE.still r s₁ x s₂ hr hx, hs]

theorem meets_attempts (hE : Truthful E table) (left : Nat) (delay : Rat) (last : RouteError) :
    Meets E (fun _ _ => True) (fun s' x => Places i c (table s) (table s') x)
      (Protocol.attempts b i c left delay last) s := by
  -- by the attempts left: what the ones before gained is no longer free, so `Gains` is transitive
  induction left generalizing delay last s with
  | zero => exact Places.of_error (Or.inl rfl) last
  | succ left ih =>
    rw [Protocol.attempts]
    refine Meets.askThen trivial fun x s₁ hx => ?_
    obtain ⟨hgains, hok⟩ := hE.create_cases hx
    have hafter : ∀ s₂ x, Places i c (table s₁) (table s₂) x → Places i c (table s) (table s₂) x :=
      fun _ _ h => h.after hgains
    rcases x with e | _ | r
    · show Meets E _ _ (if e.isDuplicate then _ else _) s₁
      split
      · exact (hE.meets_adopt e).weaken hafter
      · split
        · exact Places.of_error hgains e
        · refine Meets.bindThen (hE.meets_rest delay) fun s₂ _ hs₂ => ?_
          refine (ih (delay * b.factor) e).weaken fun s₃ x h => ?_
          rw [hs₂] at h
          exact h.after hgains
    · obtain ⟨r, hr, hi, -⟩ := hok none rfl
      exact (hE.meets_lookUpCreated ⟨r, hr, hi⟩).weaken hafter
    · obtain ⟨q, hq, hi, ho⟩ := hok (some r) rfl
      obtain rfl : r = q := by simpa using ho
      refine ⟨hgains, fun r' hr' => ?_⟩
      cases hr'
      exact ⟨hq, hi⟩

theorem meets_locked (hE : Truthful E table) {α : Type} {p : Control α}
    {Q : Table Route → Table Route → α → Prop}
    (h : ∀ s, Meets E (fun _ _ => True) (fun s' x => Q (table s) (table s') x) p s) :
    Meets E (fun _ _ => True) (fun s' x => Q (table s) (table s') x) (Control.locked p) s := by
  refine Meets.locked trivial fun s₁ h₁ => (h s₁).weaken fun s₂ x hx => ⟨trivial, fun s₃ h₃ => ?_⟩
  rw [hE.still .unlock s₂ _ s₃ rfl h₃, ← hE.still .lock s _ s₁ rfl h₁]
  exact hx

theorem meets_create (hE : Truthful E table) :
    Meets E (fun _ _ => True) (fun s' x => Places i c (table s) (table s') x)
      (Protocol.create b i c) s :=
  hE.meets_locked fun _ => hE.meets_attempts _ _ _

theorem meets_find (hE : Truthful E table) :
    Meets E (fun _ _ => True)
      (fun s' x => table s' = table s ∧ ∀ o, x = .ok o → o = (table s).get? c)
      (Protocol.find c none) s := by
  by_cases hc : c = ""
  · subst hc
    exact ⟨rfl, fun o ho => by cases ho⟩
  · rw [Protocol.find_of_ne hc]
    refine ⟨trivial, fun x s' hx => ⟨hE.still (.findRoute c) s _ s' rfl hx, fun o ho => ?_⟩⟩
    subst ho
    exact hE.find c s o s' hx

theorem meets_ensure (hE : Truthful E table) :
    Meets E (fun _ _ => True)
      (fun s' x => Places i c (table s) (table s') (x.map EnsuredRoute.route))
      (Protocol.ensure b i c none) s := by
  refine hE.meets_locked
    (Q := fun t t' (x : Outcome EnsuredRoute) => Places i c t t' (x.map EnsuredRoute.route))
    fun s => Meets.bindThen hE.meets_find fun s₁ x hx => ?_
  obtain ⟨hsame, hfound⟩ := hx
  rcases x with e | found
  · exact Places.of_error (Or.inl hsame) _
  obtain rfl : found = (table s).get? c := hfound found rfl
  show Meets E _ _ (Protocol.ensureAfter b i c ((table s).get? c)) s₁
  unfold Protocol.ensureAfter
  split
  · next r hr =>
    have hentry : (table s).get? c = some r := Option.eq_some_of_filter_eq_some hr
    show Places i c (table s) (table s₁)
      (Except.map EnsuredRoute.route (if r.isOwnedBy i then _ else _))
    split
    · next howned =>
      have hi : r.instanceId = i := Route.isOwnedBy_iff.1 howned
      refine ⟨Or.inl hsame, fun q hq => ?_⟩
      cases hq
      rw [hsame]
      exact ⟨hentry, hi⟩
    · exact Places.of_error (Or.inl hsame) _
  · refine Meets.bindThen (hE.meets_attempts _ _ _) fun s₂ x hx => ?_
    have hplaces := hx.after (Or.inl hsame)
    cases x with
    | error e => exact Places.of_error hplaces.gains e
    | ok r => exact hplaces

theorem ensure_of_taken (hE : Truthful E table) {r : Route} (hr : (table s).get? c = some r)
    (hd : r.destination = c) {t : List Exchange} {x : Outcome EnsuredRoute}
    (he : Ends E (Protocol.ensure b i c none) s t x s') :
    Reports i c r t x ∧ table s' = table s := by
  obtain ⟨s₁, t', s₂, hlock, hbody, hunlock, rfl⟩ := he.locked_inv
  have hlocked : table s₁ = table s := hE.still .lock s _ s₁ rfl hlock
  have hunlocked : table s' = table s₂ := hE.still .unlock s₂ _ s' rfl hunlock
  rw [hunlocked, ← hlocked]
  by_cases hc : c = ""
  · subst hc
    rw [Protocol.find_empty] at hbody
    cases hbody
    exact ⟨Reports.locked ⟨by simp, Or.inr ⟨⟨_, rfl⟩, by simp⟩⟩, rfl⟩
  · rw [Protocol.find_of_ne hc] at hbody
    obtain ⟨y, s₃, t'', hfind, hrest, rfl⟩ := Ends.ask_inv hbody
    have hsame : table s₃ = table s₁ := hE.still (.findRoute c) s₁ _ s₃ rfl hfind
    rcases y with e | found
    · cases hrest
      refine ⟨Reports.locked ⟨?_, Or.inr ⟨⟨e, rfl⟩, ?_⟩⟩, hsame⟩
      · simp [Request.created?]
      · intro o ho
        cases List.mem_singleton.1 ho
    · have hfound : found = some r := by rw [hE.find c s₁ found s₃ hfind, hlocked, hr]
      have hend : Ends E (Protocol.ensureAfter b i c found) s₃ t'' x s₂ := hrest
      rw [hfound, Protocol.ensureAfter_of_destination b i hd] at hend
      cases hend
      exact ⟨Reports.locked ⟨by simp [Request.created?], Or.inl rfl⟩, hsame⟩

end Truthful

/-! ### Retrying -/

/-- What can be relied on after a create whose replies may have got lost. -/
structure SafeToRetry {σ : Type} (E : Surroundings σ) (table : σ → Table Route) (i c : String)
    (s s' : σ) (x : Outcome Route) : Prop where
  entry : ∀ r, x = .ok r → (table s').get? c = some r ∧ r.instanceId = i
  refused : ∀ r, (table s).get? c = some r → r.instanceId ≠ i →
    (∃ e, x = .error e) ∧ table s' = table s
  gains : Gains i c (table s) (table s')
  /-- If an attempt took effect, the next call whose lookup succeeds finds the route. -/
  found : table s' ≠ table s → ∀ b s₁ t y s₂, table s₁ = table s' →
    Ends E (Protocol.ensure b i c none) s₁ t y s₂ →
      (∀ z ∈ t, z.request.created? = none) ∧ table s₂ = table s' ∧
        ((∃ o, ⟨.findRoute c, some (.ok o)⟩ ∈ t) →
          ∃ r, (table s').get? c = some r ∧ y = .ok (.existing r))

/-- Whatever becomes of the replies of a truthful gateway, creating a route is safe to retry. -/
theorem lost_replies_are_safe {σ : Type} {E : Surroundings σ} {table : σ → Table Route}
    (hE : Truthful E table) (b : Backoff) (i c : String) (s : σ) :
    (E.Responsive → ∃ t x s', Ends E (Protocol.create b i c) s t x s') ∧
      ∀ t x s', Ends E (Protocol.create b i c) s t x s' → SafeToRetry E table i c s s' x := by
  constructor
  · intro hresponsive
    exact hresponsive.exists_ends _ s
  intro t x s' hrun
  have hplaces : Places i c (table s) (table s') x := hE.meets_create.ends hrun
  refine ⟨hplaces.entry, fun r hr hi => hplaces.refused hr hi, hplaces.gains, ?_⟩
  intro heffect b' s₁ t' y s₂ hs₁ hensure
  obtain ⟨r, hr, hd, hi⟩ := hplaces.gains.exists_of_ne heffect
  obtain ⟨hreports, hsame⟩ := hE.ensure_of_taken (by rw [hs₁, hr]) hd hensure
  refine ⟨hreports.creates, by rw [hsame, hs₁], ?_⟩
  rintro ⟨o, ho⟩
  rcases hreports.answer with hy | ⟨-, hfailed⟩
  · have howned : r.isOwnedBy i = true := Route.isOwnedBy_iff.2 hi
    rw [if_pos howned] at hy
    exact ⟨r, hr, hy⟩
  · exact absurd ho (hfailed o)

/-! ### A reply that is lost -/

/-- A create over a gateway that may or may not do what it is asked, and may lose its reply. -/
inductive LossyCreate (i c : String) : Table Route → Outcome (Option Route) → Table Route → Prop
  | taken {t : Table Route} {r : Route} {e : RouteError} (hr : t.get? c = some r)
    (he : e.isDuplicate = true) : LossyCreate i c t (.error e) t
  | ignored {t : Table Route} {e : RouteError} (hfree : t.get? c = none)
    (he : e.isDuplicate = false) : LossyCreate i c t (.error e) t
  | lost {t : Table Route} {r : Route} {e : RouteError} (hfree : t.get? c = none)
    (hd : r.destination = c) (hi : r.instanceId = i) (he : e.isDuplicate = false) :
    LossyCreate i c t (.error e) (t.insert c r)
  | carriedOut {t : Table Route} {r : Route} {o : Option Route} (hfree : t.get? c = none)
    (hd : r.destination = c) (hi : r.instanceId = i) (ho : o = none ∨ o = some r) :
    LossyCreate i c t (.ok o) (t.insert c r)

def lossyGateway : Surroundings (Table Route)
  | .createRoute i c => fun t x t' => ∃ y, x = some y ∧ LossyCreate i c t y t'
  | .findRoute c => fun t x t' => t' = t ∧ ∀ o, x = some (.ok o) → o = t.get? c
  | .deleteRoute c => fun t _ t' => t' = t.erase c
  | _ => fun t _ t' => t' = t

theorem truthful_lossyGateway : Truthful lossyGateway id where
  taken i c t x t' r hr hx := by
    obtain ⟨y, hy, hcreate⟩ := hx
    cases hy
    have hr : t.get? c = some r := hr
    cases hcreate with
    | taken hq he => exact ⟨⟨_, rfl⟩, rfl⟩
    | ignored hfree he => exact ⟨⟨_, rfl⟩, rfl⟩
    | lost hfree hd hi he =>
      rw [hr] at hfree
      cases hfree
    | carriedOut hfree hd hi ho =>
      rw [hr] at hfree
      cases hfree
  free i c t x t' _ hx := by
    obtain ⟨y, hy, hcreate⟩ := hx
    cases hy
    cases hcreate with
    | taken hq he => exact Or.inl ⟨⟨_, rfl⟩, rfl⟩
    | ignored hfree he => exact Or.inl ⟨⟨_, rfl⟩, rfl⟩
    | @lost r e hfree hd hi he => exact Or.inr ⟨r, hd, hi, rfl, fun o ho => by cases ho⟩
    | @carriedOut r o hfree hd hi ho =>
      refine Or.inr ⟨r, hd, hi, rfl, fun o' ho' => ?_⟩
      cases ho'
      exact ho
  find c t o t' hx := hx.2 o rfl
  still r t x t' hr hx := by
    cases r with
    | createRoute i c => cases hr
    | deleteRoute c => cases hr
    | findRoute c => exact hx.1
    | _ => exact hx

theorem responsive_lossyGateway : lossyGateway.Responsive := by
  intro r t
  cases r with
  | createRoute i c =>
    cases hr : t.get? c with
    | some q => exact ⟨.error (.duplicateDestination c ""), t, _, rfl, .taken hr rfl⟩
    | none => exact ⟨.error (.transport .timedOut), t, _, rfl, .ignored hr rfl⟩
  | findRoute c => exact ⟨.ok (t.get? c), t, rfl, fun o ho => by cases ho; rfl⟩
  | deleteRoute c => exact ⟨.ok (), t.erase c, rfl⟩
  | _ => exact ⟨Classical.choice (Reply.nonempty _), t, rfl⟩

/-- One attempt, so that a reply that is lost is not made up for. -/
def oneAttempt : Backoff := { Backoff.standard with steps := 1 }

def lostRoute : Route := Route.named "r-1" "10.244.1.0/24" "i-1"

def lostTable : Table Route := Table.empty.insert "10.244.1.0/24" lostRoute

theorem ends_lostCreate :
    Ends lossyGateway (Protocol.create oneAttempt "i-1" "10.244.1.0/24") Table.empty
      [⟨.lock, some ()⟩,
        ⟨.createRoute "i-1" "10.244.1.0/24", some (.error (.transport .timedOut))⟩,
        ⟨.unlock, some ()⟩]
      (.error (.transport .timedOut)) lostTable := by
  have hcreate : LossyCreate "i-1" "10.244.1.0/24" Table.empty (.error (.transport .timedOut))
      lostTable := .lost (Table.get?_empty _) rfl rfl rfl
  exact .ask rfl (.ask ⟨_, rfl, hcreate⟩ (.ask rfl (.done _ _)))

theorem ends_foundRoute :
    Ends lossyGateway (Protocol.ensure oneAttempt "i-1" "10.244.1.0/24" none) lostTable
      [⟨.lock, some ()⟩, ⟨.findRoute "10.244.1.0/24", some (.ok (some lostRoute))⟩,
        ⟨.unlock, some ()⟩]
      (.ok (.existing lostRoute)) lostTable := by
  have hfind : lossyGateway (.findRoute "10.244.1.0/24") lostTable (some (.ok (some lostRoute)))
      lostTable := by
    refine ⟨rfl, fun o ho => ?_⟩
    cases ho
    exact (Table.get?_insert_self _ _ _).symm
  rw [Protocol.ensure, Protocol.find_of_ne (by decide)]
  refine .ask rfl (.ask hfind ?_)
  show Ends lossyGateway (Protocol.ensureAfter oneAttempt "i-1" "10.244.1.0/24" (some lostRoute) >>=
    fun a => do unlock; return a) lostTable _ _ _
  have hd : lostRoute.destination = "10.244.1.0/24" := rfl
  rw [Protocol.ensureAfter_of_destination oneAttempt "i-1" hd]
  exact .ask rfl (.done _ _)

theorem lost_create_is_found :
    (∃ t x s', Ends lossyGateway (Protocol.create oneAttempt "i-1" "10.244.1.0/24") Table.empty
        t x s') ∧
      SafeToRetry lossyGateway id "i-1" "10.244.1.0/24" Table.empty lostTable
        (.error (.transport .timedOut)) ∧
      lostTable.get? "10.244.1.0/24" = some lostRoute := by
  obtain ⟨hends, hsafes⟩ := lost_replies_are_safe truthful_lossyGateway oneAttempt "i-1"
    "10.244.1.0/24" Table.empty
  have hsafe := hsafes _ _ _ ends_lostCreate
  have heffect : lostTable ≠ Table.empty := by
    intro h
    have h := congrArg (fun t => Table.get? t "10.244.1.0/24") h
    simp [lostTable] at h
  obtain ⟨-, -, hfound⟩ := hsafe.found heffect _ _ _ _ _ rfl ends_foundRoute
  obtain ⟨r, hr, he⟩ := hfound ⟨some lostRoute, by simp⟩
  cases he
  exact ⟨hends responsive_lossyGateway, hsafe, hr⟩

end PodRoutes
