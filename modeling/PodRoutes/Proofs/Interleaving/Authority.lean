import PodRoutes.Proofs.Interleaving.ConflictStep
import PodRoutes.Proofs.Surroundings.Meets

/-!
# Why the controller changes the route table

Passes and attempts run side by side among surroundings that may change anything at any time. Each
create that one of them asks for is due to a node that it was shown, and each delete goes back to
a node that it found missing and to its cached route, or to a conflict in its own listings
(`writes_are_licensed`).
-/

namespace PodRoutes

open Control

/-! ### The engine -/

inductive Duty where
  | attempt (name : String)
  | pass

/-- An attempt or a pass, up to a limit of milliseconds if there is one. -/
structure Job where
  duty : Duty
  limit : Option Nat := none

def Duty.program (settings : Settings) (b : Backoff) : Duty → Control (Outcome Unit)
  | attempt name => Reconcile.reconcile settings b name
  | pass => Reconcile.reconcileAll settings b

/-- The program of a job; `none` when it is cut off. -/
def Job.program (settings : Settings) (b : Backoff) (job : Job) : Control (Option (Outcome Unit)) :=
  match job.limit with
  | none => do return some (← job.duty.program settings b)
  | some limit => Control.within limit (job.duty.program settings b)

/-- Any number of passes and attempts before any of them has begun. -/
def engineCrew {ι : Type} (settings : Settings) (b : Backoff) (jobs : ι → Job) (w : World) :
    Crew ι (Option (Outcome Unit)) where
  world := w
  left i := (jobs i).program settings b

namespace Crew

variable {ι α : Type} [DecidableEq ι] {c d : Crew ι α} {h : List (Moment ι)} {i : ι}

/-- A run among surroundings that keep to nothing: errors are queued, routes and nodes come and go
and the cache changes at any time. -/
inductive LooseRun : Crew ι α → List (Moment ι) → Crew ι α → Prop
  | nil (c : Crew ι α) : LooseRun c [] c
  | snoc {c d e : Crew ι α} {h : List (Moment ι)} {m : Moment ι} (run : LooseRun c h d)
      (step : Step d m e) : LooseRun c (h ++ [m]) e
  | change {c d : Crew ι α} {h : List (Moment ι)} (run : LooseRun c h d) (w : World) :
    LooseRun c (h ++ [.drift d.world w]) { d with world := w }

theorem Run.loose (hr : Run c h d) : LooseRun c h d := by
  induction hr with
  | nil => exact .nil _
  | snoc run step ih => exact .snoc ih step

end Crew

/-! ### Licenses -/

/-- The request was answered so, in that world. -/
def Told (t : List Answer) (r : Request) (x : Reply r) (v : World) : Prop :=
  ∃ w, (⟨r, some x, v, w⟩ : Answer) ∈ t

theorem Told.append {t : List Answer} {r : Request} {x : Reply r} {v : World} (h : Told t r x v)
    (g : List Answer) : Told (t ++ g) r x v := by
  obtain ⟨w, hw⟩ := h
  exact ⟨w, List.mem_append_left g hw⟩

theorem told_snoc (t : List Answer) (r : Request) (x : Reply r) (v w : World) :
    Told (t ++ [⟨r, some x, v, w⟩]) r x v := ⟨w, by simp⟩

namespace Duty

/-- The store has shown the node: to an attempt under its name, to a pass in its listing. -/
def Saw (t : List Answer) (n : Node) : Duty → Prop
  | attempt name =>
    ∃ v, Told t (.getNode name) (.ok (some n)) v ∧ v.store.nodes.get? name = some n
  | pass =>
    ∃ stored v, Told t .listNodes (.ok stored) v ∧ stored = v.store.nodes.values ∧ n ∈ stored

/-- A route to a destination may go: an attempt found its node missing and this route cached for it,
a pass found this route listed and in conflict with a listed node. -/
def MayDelete (t : List Answer) (c : String) : Duty → Prop
  | attempt name =>
    (∃ v, Told t (.getNode name) (.ok none) v ∧ v.store.nodes.get? name = none) ∧
      ∃ r v, Told t (.cachedRoute name) (some r) v ∧ v.cache.get? name = some r ∧ r.destination = c
  | pass =>
    ∃ listed v, Told t .listRoutes (.ok listed) v ∧ listed = v.gateway.table.values ∧
      ∃ r ∈ listed, r.destination = c ∧
        ∃ n, pass.Saw t n ∧ n.isExcluded = false ∧ Reconcile.conflictsWithNode r n = true

/-- A node that was shown is to have the route. -/
def MayCreate (t : List Answer) (instanceId c : String) (duty : Duty) : Prop :=
  ∃ n, duty.Saw t n ∧ n.skipReason? = none ∧ n.instanceId? = some instanceId ∧
    ∃ network, n.ipv4PodNetwork = .ok (some network) ∧ network.text = c

/-- The answers so far allow the request: creates and deletes need a reason. -/
def Licenses (duty : Duty) (t : List Answer) : Request → Prop
  | .createRoute instanceId c => duty.MayCreate t instanceId c
  | .deleteRoute c => duty.MayDelete t c
  | _ => True

variable {duty : Duty} {t : List Answer} {n : Node} {c : String} {r : Request}

theorem Saw.append (h : duty.Saw t n) (g : List Answer) : duty.Saw (t ++ g) n := by
  cases duty with
  | attempt name =>
    obtain ⟨v, htold, hstored⟩ := h
    exact ⟨v, htold.append g, hstored⟩
  | pass =>
    obtain ⟨stored, v, htold, hstored⟩ := h
    exact ⟨stored, v, htold.append g, hstored⟩

theorem MayDelete.append (h : duty.MayDelete t c) (g : List Answer) :
    duty.MayDelete (t ++ g) c := by
  cases duty with
  | attempt name =>
    obtain ⟨⟨v, hmissing, hgone⟩, r, u, hcached, hr⟩ := h
    exact ⟨⟨v, hmissing.append g, hgone⟩, r, u, hcached.append g, hr⟩
  | pass =>
    obtain ⟨listed, v, htold, hlisted, r, hr, hc, n, hn, hconflict⟩ := h
    exact ⟨listed, v, htold.append g, hlisted, r, hr, hc, n, hn.append g, hconflict⟩

theorem licenses_of_not_write (h : r.isWrite = false) : duty.Licenses t r := by
  cases r with
  | createRoute i c => cases h
  | deleteRoute c => cases h
  | _ => trivial

theorem Saw.licenses (hn : duty.Saw t n) (h : n.MayAsk r) : duty.Licenses t r := by
  cases r with
  | createRoute i c =>
    obtain ⟨⟨i', network⟩, hdue, he⟩ := Option.map_eq_some_iff.1 h
    cases he
    obtain ⟨hskip, hnetwork, hi⟩ := Node.due?_eq_some.1 hdue
    exact ⟨n, hn, hskip, hi, network, hnetwork, rfl⟩
  | deleteRoute c => exact h.elim
  | _ => trivial

end Duty

/-! ### Contracts -/

/-- Surroundings of which nothing is known but that answers are honest. -/
def heard : Surroundings (List Answer) := fun r t x t' =>
  ∃ v w, Answer.Honest ⟨r, x, v, w⟩ ∧ t' = t ++ [⟨r, x, v, w⟩]

theorem Meets.of_only_heard {α : Type} {R : Request → Prop} {I : List Answer → Prop}
    {P : List Answer → Request → Prop} {p : Control α} {t : List Answer} (h : Only R p)
    (hI : ∀ t a, I t → I (t ++ [a])) (hP : ∀ t r, I t → R r → P t r) (ht : I t) :
    Meets heard P (fun t _ => I t) p t := by
  refine of_only h ?_ hP ht
  rintro r t x t' - ht ⟨v, w, -, rfl⟩
  exact hI t _ ht

namespace Only

variable {settings : Settings} {b : Backoff}

/-- The only changes are deletes to destinations of a list. -/
theorem deletesAmong {doomed listed : List Route} :
    Only (fun r => r.isWrite = false ∨ ∃ q ∈ doomed, r = .deleteRoute q.destination)
      (Reconcile.deleteConflicting doomed listed) := by
  induction doomed generalizing listed with
  | nil => exact done _
  | cons q rest ih =>
    have ih : ∀ {listed}, Only (fun r => r.isWrite = false ∨
        ∃ q' ∈ q :: rest, r = .deleteRoute q'.destination)
          (Reconcile.deleteConflicting rest listed) := by
      intro listed
      refine ih.mono fun r hr => hr.imp_right ?_
      rintro ⟨q', hq', rfl⟩
      exact ⟨q', List.mem_cons_of_mem q hq', rfl⟩
    rw [Reconcile.deleteConflicting]
    refine bind (locked (ask (.inr ⟨q, List.mem_cons_self, rfl⟩)) (.inl rfl) (.inl rfl)) fun x => ?_
    split
    · exact ih
    · exact askThen (.inl rfl) fun _ => ih

theorem program_of_not_configured (h : settings.configureRoutes = false) (duty : Duty) :
    Only (fun _ => False) (duty.program settings b) := by
  cases duty with
  | attempt name =>
    rw [Duty.program, Reconcile.reconcile, h]
    exact done _
  | pass =>
    rw [Duty.program, Reconcile.reconcileAll, h]
    exact done _

end Only

section Contract

variable {settings : Settings} {b : Backoff} {t : List Answer} {name : String} {n : Node}

theorem licensed_removeRoute {v : World} (hmissing : Told t (.getNode name) (.ok none) v)
    (hgone : v.store.nodes.get? name = none) :
    Meets heard (Duty.attempt name).Licenses (fun _ _ => True)
      (Reconcile.removeRoute name) t := by
  refine Meets.askThen trivial ?_
  rintro x _ ⟨u, w, hhonest, rfl⟩
  cases x with
  | none => exact trivial
  | some r =>
    have hcached : u.cache.get? name = some r := congrArg Prod.fst hhonest
    have hmay : (Duty.attempt name).MayDelete (t ++ [⟨.cachedRoute name, some (some r), u, w⟩])
        r.destination := by
      refine ⟨⟨v, hmissing.append _, hgone⟩, r, u, ?_, hcached, rfl⟩
      exact told_snoc t (.cachedRoute name) (some r) u w
    refine (Meets.of_only_heard (R := fun q => q.isWrite = false ∨ q = .deleteRoute r.destination)
      (I := fun t => (Duty.attempt name).MayDelete t r.destination) ?_ ?_ ?_ hmay).weaken
        fun _ _ _ => trivial
    · refine Only.askThen (.inl rfl) fun start => ?_
      refine Only.bind (Only.locked (Only.ask (.inr rfl)) (.inl rfl) (.inl rfl)) fun x => ?_
      refine Only.askThen (.inl rfl) fun _ => ?_
      cases x with
      | ok u => exact Only.askThen (.inl rfl) fun _ => Only.done _
      | error e => exact Only.done _
    · exact fun t a ht => ht.append [a]
    · rintro t q ht (hq | rfl)
      · exact Duty.licenses_of_not_write hq
      · exact ht

theorem licensed_reconcileStored (hn : (Duty.attempt name).Saw t n) :
    Meets heard (Duty.attempt name).Licenses (fun _ _ => True)
      (Reconcile.reconcileStored b n) t := by
  have honly : Only n.MayAsk (Reconcile.reconcileStored b n) := by
    refine Only.bind Only.syncNode fun x => ?_
    split
    · exact Only.done _
    · exact Only.askThen rfl fun _ => Only.done _
  exact (Meets.of_only_heard honly (I := fun t => (Duty.attempt name).Saw t n)
    (fun t a ht => ht.append [a]) (fun t r ht hr => ht.licenses hr) hn).weaken fun _ _ _ => trivial

theorem licensed_reconcile :
    Meets heard (Duty.attempt name).Licenses (fun _ _ => True)
      (Reconcile.reconcile settings b name) t := by
  unfold Reconcile.reconcile
  split
  · refine Meets.askThen trivial ?_
    rintro x _ ⟨v, w, hhonest, rfl⟩
    rcases x with e | _ | n
    · exact trivial
    · have hgone := NodeStore.get_eq_of_ok (congrArg Prod.fst hhonest)
      exact licensed_removeRoute (told_snoc t (.getNode name) (.ok none) v w) hgone.symm
    · have hstored := NodeStore.get_eq_of_ok (congrArg Prod.fst hhonest)
      exact licensed_reconcileStored
        ⟨v, told_snoc t (.getNode name) (.ok (some n)) v w, hstored.symm⟩
  · exact trivial

theorem licensed_deleteConflicting {nodes : List Node} {doomed listed : List Route}
    (hnodes : ∀ n ∈ nodes, Duty.pass.Saw t n)
    (hdoomed : ∀ q ∈ doomed, Duty.pass.MayDelete t q.destination) :
    Meets heard Duty.pass.Licenses (fun t _ => ∀ n ∈ nodes, Duty.pass.Saw t n)
      (Reconcile.deleteConflicting doomed listed) t := by
  refine (Meets.of_only_heard Only.deletesAmong (I := fun t => (∀ n ∈ nodes, Duty.pass.Saw t n) ∧
    ∀ q ∈ doomed, Duty.pass.MayDelete t q.destination) ?_ ?_ ⟨hnodes, hdoomed⟩).weaken
      fun _ _ h => h.1
  · rintro t a ⟨hn, hq⟩
    exact ⟨fun n h => (hn n h).append [a], fun q h => (hq q h).append [a]⟩
  · rintro t r ⟨-, hq⟩ (hr | ⟨q, hmem, rfl⟩)
    · exact Duty.licenses_of_not_write hr
    · exact hq q hmem

theorem licensed_dropConflicts :
    Meets heard Duty.pass.Licenses (fun t x => ∀ nodes left, x = .ok (nodes, left) →
      ∀ n ∈ nodes, Duty.pass.Saw t n) Reconcile.dropConflicts t := by
  refine Meets.askThen trivial ?_
  rintro x _ ⟨v, w, hhonest, rfl⟩
  rcases x with e | stored
  · rintro nodes left he
    cases he
  have hstored := NodeStore.list_eq_of_ok (congrArg Prod.fst hhonest)
  have hsaw : ∀ n ∈ stored.filter fun n => !n.isExcluded,
      Duty.pass.Saw (t ++ [⟨.listNodes, some (.ok stored), v, w⟩]) n := fun n hn =>
    ⟨stored, v, told_snoc t .listNodes (.ok stored) v w, hstored, (List.mem_filter.1 hn).1⟩
  refine Meets.askThen trivial ?_
  rintro x _ ⟨v', w', hhonest', rfl⟩
  rcases x with e | listed
  · rintro nodes left he
    cases he
  have hlisted := MemoryGateway.list_eq_of_ok (congrArg Prod.fst hhonest')
  refine Meets.bindThen (licensed_deleteConflicting (fun n hn => (hsaw n hn).append _) ?_) ?_
  · intro q hq
    obtain ⟨hq, hconflict⟩ := List.mem_filter.1 hq
    obtain ⟨n, hn, hconflict⟩ := List.any_eq_true.1 hconflict
    have hincluded : n.isExcluded = false := by simpa using (List.mem_filter.1 hn).2
    exact ⟨listed, v', told_snoc _ .listRoutes (.ok listed) v' w', hlisted, q, hq, rfl, n,
      (hsaw n hn).append _, hincluded, hconflict⟩
  · rintro t' left hn nodes' left' he
    cases he
    exact hn

theorem licensed_syncRoutes :
    Meets heard Duty.pass.Licenses (fun _ _ => True) (Reconcile.syncRoutes settings b) t := by
  have hwithin := Meets.within (E := heard) (P := Duty.pass.Licenses) (s := t) trivial
    (fun x t' _ => licensed_dropConflicts) (fun _ => trivial) settings.timeout
  refine Meets.bindThen hwithin fun t o ho => ?_
  rcases o with _ | (e | ⟨nodes, routes⟩)
  · exact trivial
  · exact trivial
  · have hsaw := ho _ rfl nodes routes rfl
    refine Meets.bindThen (Meets.of_only_heard Only.syncNodes
      (I := fun t => ∀ n ∈ nodes, Duty.pass.Saw t n) ?_ ?_ hsaw) fun _ _ _ => trivial
    · exact fun t a ht n hn => (ht n hn).append [a]
    · rintro t r ht ⟨n, hn, hr⟩
      exact (ht n hn).licenses hr

theorem licensed_reconcileAll :
    Meets heard Duty.pass.Licenses (fun _ _ => True) (Reconcile.reconcileAll settings b) t := by
  rw [Reconcile.reconcileAll]
  split
  · refine Meets.askThen trivial fun x t' _ => ?_
    exact Meets.bindThen licensed_syncRoutes fun _ _ _ => ⟨trivial, fun _ _ _ => trivial⟩
  · exact trivial

theorem licensed_duty (duty : Duty) :
    Meets heard duty.Licenses (fun _ _ => True) (duty.program settings b) t := by
  cases duty with
  | attempt name => exact licensed_reconcile
  | pass => exact licensed_reconcileAll

theorem meets_job {σ : Type} {E : Surroundings σ} {P : σ → Request → Prop} (job : Job)
    (h : ∀ s, Meets E P (fun _ _ => True) (job.duty.program settings b) s)
    (hnow : ∀ s, P s .now) (hunlock : ∀ s, P s .unlock) (s : σ) :
    Meets E P (fun _ _ => True) (job.program settings b) s := by
  rw [Job.program]
  split
  · exact Meets.bindThen (h s) fun _ _ _ => trivial
  · exact (Meets.within (hnow s) (fun x s' _ => h s') hunlock _).weaken fun _ _ _ => trivial

end Contract

/-! ### Contracts in a loose run -/

theorem Meets.of_next {σ α : Type} {E : Surroundings σ} {P : σ → Request → Prop}
    {Q : σ → α → Prop} {p : Control α} {s : σ} {r : Request} (h : Meets E P Q p s)
    (hr : (Control.next? p).map Sigma.fst = some r) : P s r := by
  cases p with
  | done a => cases hr
  | ask r' next =>
    cases hr
    exact h.1
  | askBy deadline r' next =>
    cases hr
    exact h.1

theorem Crew.LooseRun.meets {ι α : Type} [DecidableEq ι] {c d : Crew ι α} {h : List (Moment ι)}
    {i : ι} {P : List Answer → Request → Prop} {Q : List Answer → α → Prop}
    (hr : LooseRun c h d) (hc : Meets heard P Q (c.left i) []) :
    Meets heard P Q (d.left i) (own i h) := by
  -- by the run: only what the program is told itself adds to its own answers, and that honestly
  induction hr with
  | nil => exact hc
  | @snoc d e h m run step ih =>
    cases m with
    | act j a =>
      by_cases hj : j = i
      · subst hj
        rw [own_snoc_act]
        exact ih.takes step.takes ⟨a.before, a.after, step.honest, rfl⟩
      · rw [own_snoc_act_of_ne hj, step.left_of_ne fun e => hj e.symm]
        exact ih
    | drift v w =>
      rw [own_snoc_drift, step.left_of_drift]
      exact ih
  | change run w ih =>
    rw [own_snoc_drift]
    exact ih

open Crew in
/-- Whatever a member of the engine is about to ask for, the answers that it got allow it; without
routes to configure it calls neither the gateway nor the store. -/
theorem writes_are_licensed {ι : Type} [DecidableEq ι] {settings : Settings} {b : Backoff}
    {jobs : ι → Job} {w : World} {h : List (Moment ι)} {d : Crew ι (Option (Outcome Unit))}
    (hrun : LooseRun (engineCrew settings b jobs w) h d) {i : ι} {r : Request}
    (hask : d.asked? i = some r) :
    (jobs i).duty.Licenses (own i h) r ∧ (settings.configureRoutes = false → r.isCall = false) := by
  constructor
  · have hlicensed : Meets heard (jobs i).duty.Licenses (fun _ _ => True)
        ((jobs i).program settings b) [] :=
      meets_job (jobs i) (fun _ => licensed_duty _) (fun _ => trivial) (fun _ => trivial) []
    exact (hrun.meets hlicensed).of_next hask
  · intro hoff
    have hquiet : Meets heard (fun _ r => r.isCall = false) (fun _ _ => True)
        ((jobs i).program settings b) [] := by
      refine meets_job (P := fun _ r => r.isCall = false) (jobs i) (fun t => ?_) (fun _ => rfl)
        (fun _ => rfl) []
      exact Meets.of_only_heard (Only.program_of_not_configured hoff _) (fun _ _ h => h)
        (fun _ _ _ h => h.elim) trivial
    exact (hrun.meets hquiet).of_next hask

/-! ### A destination that changes hands -/

/-- A pass, an attempt under a limit on the node that is gone, and attempts on the stored one, whose
first create fails. -/
def handoverEngine : Crew Nat (Option (Outcome Unit)) :=
  engineCrew {} .standard
    (fun
      | 0 => { duty := .pass }
      | 1 => { duty := .attempt "old", limit := some 120000 }
      | _ => { duty := .attempt "new" })
    { takenWorld with gateway.failures.create := [.gateway "503"] }

/-- The pass has its listings, and the first attempt is about to delete. -/
def beforeRemoval : List (Moment Nat) × Crew Nat (Option (Outcome Unit)) :=
  handoverEngine.play (List.replicate 4 (.act 0) ++ List.replicate 6 (.act 1))

/-- The first attempt is over, and the second one is about to try its create again. -/
def beforeRetry : List (Moment Nat) × Crew Nat (Option (Outcome Unit)) :=
  handoverEngine.play (List.replicate 4 (.act 0) ++ List.replicate 10 (.act 1) ++
    List.replicate 8 (.act 2))

/-- Both attempts are over, and the pass is about to delete. -/
def beforeConflict : List (Moment Nat) × Crew Nat (Option (Outcome Unit)) :=
  handoverEngine.play (List.replicate 4 (.act 0) ++ List.replicate 10 (.act 1) ++
    List.replicate 14 (.act 2) ++ List.replicate 2 (.act 0))

open Crew in
theorem handover_writes_licensed :
    (Duty.attempt "old").MayDelete (own 1 beforeRemoval.1) "10.244.1.0/24" ∧
      (Duty.attempt "new").MayCreate (own 2 beforeRetry.1) "i-new" "10.244.1.0/24" ∧
      Duty.pass.MayDelete (own 0 beforeConflict.1) "10.244.1.0/24" := by
  have hremoval : beforeRemoval.2.asked? 1 = some (.deleteRoute "10.244.1.0/24") :=
    asked?_eq_of_bind (f := Request.deleted?) (b := "10.244.1.0/24") (by decide +kernel)
      fun _ => Request.deleted?_eq_some
  have hretry : beforeRetry.2.asked? 2 = some (.createRoute "i-new" "10.244.1.0/24") :=
    asked?_eq_of_bind (f := Request.created?) (b := ("i-new", "10.244.1.0/24"))
      (by decide +kernel) fun _ => Request.created?_eq_some
  have hconflict : beforeConflict.2.asked? 0 = some (.deleteRoute "10.244.1.0/24") :=
    asked?_eq_of_bind (f := Request.deleted?) (b := "10.244.1.0/24") (by decide +kernel)
      fun _ => Request.deleted?_eq_some
  exact ⟨(writes_are_licensed (Run.play handoverEngine _).loose hremoval).1,
    (writes_are_licensed (Run.play handoverEngine _).loose hretry).1,
    (writes_are_licensed (Run.play handoverEngine _).loose hconflict).1⟩

end PodRoutes
