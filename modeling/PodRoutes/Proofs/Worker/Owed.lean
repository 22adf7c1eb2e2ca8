import PodRoutes.Proofs.Interleaving.NodeRequests
import PodRoutes.Proofs.Reconcile.LiveRoutes
import PodRoutes.Proofs.Surroundings.Changing
import PodRoutes.Proofs.Worker.Ledger
import PodRoutes.Proofs.World.Prompt

/-!
# Deletes that are owed

A node that is gone and whose route is in the cache is owed a delete. An attempt on its name ends
well only if it deletes the route's destination, and until then the delete is owed, whatever happens
to other names: a delete that fails, a lookup that fails and an attempt that takes too long all
leave the entry in the cache and the name with the worker (`worker_keeps_account`).
-/

namespace PodRoutes

open Control Reconcile

/-- A request that leaves the cached route of a name where it is. -/
def Control.Request.keepsEntry (name : String) : Request → Prop
  | .forget other => other ≠ name
  | .evict _ => False
  | _ => True

namespace World

/-! ### What is owed -/

/-- The node is gone, and the cache has a route for it. -/
structure Owes (w : World) (name : String) (r : Route) : Prop where
  gone : w.store.nodes.get? name = none
  kept : w.cache.get? name = some r

/-- How often a destination was deleted with success. -/
def deletions (w : World) (destination : String) : Nat := w.gateway.deleted.count destination

variable {v w : World} {name : String} {r : Route} {q : Request} {destination : String}

theorem Owes.congr (h : w.Owes name r) (hstore : v.store = w.store) (hcache : v.cache = w.cache) :
    v.Owes name r := by
  constructor
  · rw [hstore]
    exact h.gone
  · rw [hcache]
    exact h.kept

theorem Owes.begin (h : w.Owes name r) (q : Request) (millis : Nat) :
    ((w.begin q).advance millis).Owes name r := h.congr (w.store_begin q) (w.cache_begin q millis)

theorem Owes.late (h : w.Owes name r) (q : Request) (time : Nat) :
    ((w.begin q).advanceTo time).Owes name r := h.congr (w.store_begin q) (w.cache_advanceTo q time)

theorem Owes.reply (h : w.Owes name r) (hq : q.keepsEntry name) : (w.reply q).2.Owes name r := by
  have hforget : q ≠ .forget name := by
    rintro rfl
    exact hq rfl
  have hevict : q ≠ .evict r.destination := by
    rintro rfl
    exact hq
  have hu := h.begin q (w.wait q)
  rw [World.reply]
  generalize (w.begin q).advance (w.wait q) = u at hu ⊢
  constructor
  · cases q with
    | patchNode other edit scope =>
      rcases get?_nodes_patch u other edit scope name with hsame | ⟨rfl, n, hn, -⟩
      · rw [hsame]
        exact hu.gone
      · rw [hu.gone] at hn
        cases hn
    | _ =>
      rw [nodes_effect (by simp)]
      exact hu.gone
  · rw [get?_cache_effect, hu.kept]
    exact History.keptAfter_of_kept hforget hevict

theorem deletions_begin (w : World) (q : Request) (destination : String) :
    (w.begin q).deletions destination = w.deletions destination := by
  rw [deletions, gateway_begin]
  rfl

theorem deletions_effect (w : World) (q : Request) (destination : String) :
    w.deletions destination ≤ (w.effect q).2.deletions destination := by
  cases q with
  | createRoute i c =>
    show w.gateway.deleted.count destination ≤ (w.gateway.create i c).2.deleted.count destination
    exact Nat.le_of_eq (congrArg (List.count destination) (w.gateway.create_frame i c).2.2.symm)
  | findRoute c =>
    show w.gateway.deleted.count destination ≤ (w.gateway.find c).2.deleted.count destination
    cases hf : w.gateway.failures.find <;> simp [MemoryGateway.find, hf]
  | listRoutes =>
    show w.gateway.deleted.count destination ≤ w.gateway.list.2.deleted.count destination
    cases hf : w.gateway.failures.list <;> simp [MemoryGateway.list, hf]
  | deleteRoute c =>
    show w.gateway.deleted.count destination ≤ (w.gateway.delete c).2.deleted.count destination
    rcases w.gateway.deleted_delete c with ⟨-, hsame⟩ | ⟨-, hadded⟩
    · exact Nat.le_of_eq (congrArg (List.count destination) hsame.symm)
    · rw [hadded, List.count_append]
      exact Nat.le_add_right _ _
  | _ => exact Nat.le_refl _

theorem deletions_reply (w : World) (q : Request) (destination : String) :
    w.deletions destination ≤ (w.reply q).2.deletions destination := by
  have hbegin : ((w.begin q).advance (w.wait q)).deletions destination = w.deletions destination :=
    deletions_begin w q destination
  rw [World.reply, ← hbegin]
  exact deletions_effect _ q destination

theorem deletions_answered {x : Reply q} (hx : alone q w (some x) v) (destination : String) :
    w.deletions destination ≤ v.deletions destination := by
  have hv : (w.reply q).2 = v := congrArg Prod.snd hx
  rw [← hv]
  exact deletions_reply w q destination

theorem deletions_run {α : Type} (w : World) (p : Control α) (destination : String) :
    w.deletions destination ≤ (w.run p).2.deletions destination := by
  refine run_preserves (R := fun _ => True)
    (I := fun v => w.deletions destination ≤ v.deletions destination) (Only.any p) ?_ ?_
    (Nat.le_refl _)
  · exact fun v q _ hv => Nat.le_trans hv (deletions_reply v q destination)
  · intro v q deadline _ hv
    rw [← deletions_begin v q destination] at hv
    exact hv

/-! ### The attempt on its name -/

/-- The delete is owed, and the destination was deleted as often before. -/
structure OwesSince (count : Nat) (name : String) (r : Route) (v : World) : Prop where
  owes : v.Owes name r
  count_le : count ≤ v.deletions r.destination

/-- An attempt that ends well has made the delete; otherwise it is owed. -/
def Settles (count : Nat) (name : String) (r : Route) (v : World) (ok : Bool) : Prop :=
  if ok then count < v.deletions r.destination else v.OwesSince count name r

variable {count : Nat}

theorem OwesSince.reply (h : w.OwesSince count name r) (hq : q.keepsEntry name) :
    (w.reply q).2.OwesSince count name r :=
  ⟨h.owes.reply hq, Nat.le_trans h.count_le (deletions_reply w q r.destination)⟩

theorem OwesSince.late (h : w.OwesSince count name r) (q : Request) (time : Nat) :
    ((w.begin q).advanceTo time).OwesSince count name r := by
  refine ⟨h.owes.late q time, ?_⟩
  show count ≤ (w.begin q).deletions r.destination
  rw [deletions_begin]
  exact h.count_le

theorem OwesSince.answered (h : w.OwesSince count name r) {x : Reply q}
    (hx : alone q w (some x) v) (hq : q.keepsEntry name) : v.OwesSince count name r := by
  have hv : (w.reply q).2 = v := congrArg Prod.snd hx
  rw [← hv]
  exact h.reply hq

theorem deletions_of_deleteRoute {x : Outcome Unit} (h : count ≤ w.deletions destination)
    (hx : alone (.deleteRoute destination) w (some x) v) (hok : x = .ok ()) :
    count < v.deletions destination := by
  have hreply : (w.gateway.delete destination).1 = x := congrArg Prod.fst hx
  have hv : (w.gateway.delete destination).2 = v.gateway :=
    congrArg (fun p : Reply (.deleteRoute destination) × World => p.2.gateway) hx
  rcases w.gateway.deleted_delete destination with ⟨⟨e, he⟩, -⟩ | ⟨-, hadded⟩
  · rw [← hreply, he] at hok
    cases hok
  · have hcount : v.deletions destination = w.deletions destination + 1 := by
      rw [deletions, ← hv, hadded, List.count_append]
      simp [deletions]
    omega

theorem meets_delete (h : w.OwesSince count name r) :
    Meets alone (fun v _ => v.OwesSince count name r)
      (fun v x => v.OwesSince count name r ∧ (x = .ok () → count < v.deletions r.destination))
      (Protocol.delete r.destination) w := by
  refine Meets.locked h fun v hv => ?_
  have hv := h.answered hv trivial
  refine ⟨hv, fun x u hx => ?_⟩
  have hu := hv.answered hx trivial
  refine ⟨hu, fun u' hunlock => ⟨hu.answered hunlock trivial, fun hok => ?_⟩⟩
  have hdeleted := deletions_of_deleteRoute hv.count_le hx hok
  exact Nat.lt_of_lt_of_le hdeleted (deletions_answered hunlock r.destination)

theorem meets_removeRoute (h : w.OwesSince count name r) :
    Meets alone (fun v _ => v.OwesSince count name r)
      (fun v x => v.Settles count name r x.isOk) (removeRoute name) w := by
  refine Meets.askThen h fun x v hx => ?_
  have hv := h.answered hx trivial
  have hcached : w.cache.get? name = x := congrArg Prod.fst hx
  rw [h.owes.kept] at hcached
  subst hcached
  refine Meets.askThen hv fun start u hnow => ?_
  refine Meets.bindThen (meets_delete (hv.answered hnow trivial)) fun u₁ x hx => ?_
  obtain ⟨howed, hdeleted⟩ := hx
  refine Meets.askThen howed fun _ u₂ hobserve => ?_
  have howed₂ := howed.answered hobserve trivial
  cases x with
  | error e => exact howed₂
  | ok a =>
    -- the entry is forgotten only now that the delete has succeeded
    refine Meets.askThen howed₂ fun _ u₃ hforget => ?_
    have hlater := deletions_answered hobserve r.destination
    exact Nat.lt_of_lt_of_le (hdeleted rfl)
      (Nat.le_trans hlater (deletions_answered hforget r.destination))

theorem meets_reconcile {s : Settings} (hc : s.configureRoutes = true) (b : Backoff)
    (h : w.OwesSince count name r) :
    Meets alone (fun v _ => v.OwesSince count name r)
      (fun v x => v.Settles count name r x.isOk) (reconcile s b name) w := by
  rw [reconcile, if_pos hc]
  refine Meets.askThen h fun x v hx => ?_
  have hv := h.answered hx trivial
  have hget : (w.store.get name).1 = x := congrArg Prod.fst hx
  rcases x with e | _ | n
  · exact hv
  · exact meets_removeRoute hv
  · have hstored := NodeStore.get_eq_of_ok hget
    rw [h.owes.gone] at hstored
    cases hstored

/-- What a program settles it also settles under a deadline, unless it is cut off. -/
theorem meets_bounded {α : Type} {p : Control α} {ok : α → Bool}
    (h : Meets alone (fun v _ => v.OwesSince count name r)
      (fun v x => v.Settles count name r (ok x)) p w) (deadline : Nat) (held : Bool) :
    Meets alone (fun v _ => v.OwesSince count name r)
      (fun v o => v.Settles count name r (o.any ok)) (Control.bounded deadline held p) w := by
  refine (h.bounded_late (N := fun v => v.OwesSince count name r) (fun _ hv => hv) ?_ ?_ deadline
    held).weaken ?_
  · rintro q v _ hv ⟨time, rfl⟩
    exact hv.late q time
  · intro v x v' hv hx
    cases x with
    | some x => exact hv.answered hx trivial
    | none =>
      obtain ⟨time, rfl⟩ := hx
      exact hv.late .unlock time
  · rintro v o ⟨hsome, hnone⟩
    cases o with
    | none => exact hnone rfl
    | some a => exact hsome a rfl

theorem meets_reconcileInTime {s : Settings} (hc : s.configureRoutes = true) (b : Backoff)
    (h : w.OwesSince count name r) :
    Meets alone (fun v _ => v.OwesSince count name r)
      (fun v x => v.Settles count name r x) (Worker.reconcileInTime s b name) w := by
  have hwithin : Meets alone (fun v _ => v.OwesSince count name r)
      (fun v o => v.Settles count name r (o.any Except.isOk))
      (Control.within s.timeout (reconcile s b name)) w := by
    refine ⟨h, fun start v hx => ?_⟩
    exact meets_bounded (meets_reconcile hc b (h.answered hx trivial)) _ _
  refine Meets.bindThen hwithin fun v o ho => ?_
  rcases o with _ | e | a
  · exact ho
  · exact ho
  · exact ho

theorem attempt_of_owed {s : Settings} (hc : s.configureRoutes = true) (b : Backoff) (stop : Nat)
    (h : w.Owes name r) {o : Option Bool} (hrun : Worker.attemptUntil s b stop name w = (o, v)) :
    (o = some true → w.deletions r.destination < v.deletions r.destination) ∧
      (o ≠ some true → v.Owes name r) := by
  have hmeets : Meets alone (fun v _ => v.OwesSince (w.deletions r.destination) name r)
      (fun v x => v.Settles (w.deletions r.destination) name r (id x))
      (Worker.reconcileInTime s b name) w := meets_reconcileInTime hc b ⟨h, Nat.le_refl _⟩
  obtain ⟨t, hends⟩ := ends_alone (Control.bounded stop false (Worker.reconcileInTime s b name)) w
  have hsettles := (meets_bounded hmeets stop false).ends hends
  rw [show w.run (Control.bounded stop false (Worker.reconcileInTime s b name)) = (o, v) from hrun]
    at hsettles
  rcases o with _ | _ | _
  · exact ⟨nofun, fun _ => hsettles.owes⟩
  · exact ⟨nofun, fun _ => hsettles.owes⟩
  · exact ⟨fun _ => hsettles, fun hne => absurd rfl hne⟩

/-! ### Attempts on other names -/

end World

namespace Only

variable {name other : String}

theorem keepsEntry_removeRoute (hother : other ≠ name) :
    Only (Request.keepsEntry name) (Reconcile.removeRoute other) := by
  refine askThen trivial fun x => ?_
  cases x with
  | none => exact done _
  | some r =>
    have hdelete : Only (Request.keepsEntry name) (Protocol.delete r.destination) :=
      locked (ask trivial) trivial trivial
    refine askThen trivial fun start => bind hdelete fun x => askThen trivial fun _ => ?_
    cases x with
    | error e => exact done _
    | ok u => exact askThen hother fun _ => done _

theorem keepsEntry_reconcile (hother : other ≠ name) (s : Settings) (b : Backoff) :
    Only (Request.keepsEntry name) (Reconcile.reconcile s b other) := by
  rw [Reconcile.reconcile]
  split
  · refine askThen trivial fun x => ?_
    rcases x with e | _ | n
    · exact done _
    · exact keepsEntry_removeRoute hother
    · have hsync : Only (Request.keepsEntry name) (Reconcile.syncNode b n none) := by
        refine Only.syncNode.mono fun q hq => ?_
        cases q with
        | forget c => exact hq.elim
        | evict c => exact hq.elim
        | _ => trivial
      refine bind hsync fun x => ?_
      cases x with
      | error e => exact askThen trivial fun _ => done _
      | ok u => exact done _
  · exact done _

theorem keepsEntry_attempt (hother : other ≠ name) (s : Settings) (b : Backoff) (stop : Nat) :
    Only (Request.keepsEntry name)
      (Control.bounded stop false (Worker.reconcileInTime s b other)) := by
  have hwithin := (keepsEntry_reconcile hother s b).within trivial trivial s.timeout
  refine bounded (bind hwithin fun o => ?_) trivial _ _
  rcases o with _ | _ | _
  · exact done _
  · exact done _
  · exact done _

end Only

theorem World.owes_of_other {s : Settings} {b : Backoff} {stop : Nat} {w : World}
    {name other : String} {r : Route} (hother : other ≠ name) (h : w.Owes name r) :
    (Worker.attemptUntil s b stop other w).2.Owes name r := by
  refine run_preserves (I := fun v => v.Owes name r) (Only.keepsEntry_attempt hother s b stop)
    ?_ ?_ h
  · exact fun v q hq hv => hv.reply hq
  · exact fun v q deadline _ hv => hv.late q deadline

/-! ### The worker -/

namespace Worker

variable {attempt : Attempt} {delay stop : Nat}

theorem steps_induction {I : Progress → Prop}
    (hstep : ∀ p q, I p → step attempt delay stop p = some q → I q) (k : Nat) {p : Progress}
    (hp : I p) : I (steps attempt delay stop k p) := by
  induction k generalizing p with
  | zero => exact hp
  | succ k ih =>
    rw [steps]
    cases h : step attempt delay stop p with
    | none => exact hp
    | some q => exact ih (hstep p q hp h)

/-- Until an attempt on its name ends well the delete is owed, and then it was made. -/
structure Pursues (name : String) (r : Route) (w : World) (p : Progress) : Prop where
  owes : (∀ x ∈ p.records, x.name = name → x.outcome ≠ some true) → p.world.Owes name r
  deleted : (∃ x ∈ p.records, x.name = name ∧ x.outcome = some true) →
    w.deletions r.destination < p.world.deletions r.destination
  count_le : w.deletions r.destination ≤ p.world.deletions r.destination

theorem pursues_step {s : Settings} (hc : s.configureRoutes = true) {b : Backoff} {name : String}
    {r : Route} {w : World} {p q : Progress} (h : Pursues name r w p)
    (hstep : step (attemptUntil s b stop) delay stop p = some q) : Pursues name r w q := by
  obtain ⟨t, rest, -, -, hrecords, hrecord, hworld⟩ := step_cases hstep
  have hworld : q.world = (attemptUntil s b stop t.arrival.name
      (p.world.advanceTo t.arrival.time)).2 := hworld
  have hname : t.record.name = t.arrival.name := by rw [hrecord]
  have houtcome : t.record.outcome = (attemptUntil s b stop t.arrival.name
      (p.world.advanceTo t.arrival.time)).1 := congrArg AttemptRecord.outcome hrecord
  have hmore : p.world.deletions r.destination ≤ q.world.deletions r.destination := by
    rw [hworld]
    exact World.deletions_run (p.world.advanceTo t.arrival.time) _ r.destination
  -- while the delete is owed, an attempt on the name decides
  have hown : p.world.Owes name r → t.arrival.name = name →
      (t.record.outcome = some true →
        p.world.deletions r.destination < q.world.deletions r.destination) ∧
      (t.record.outcome ≠ some true → q.world.Owes name r) := by
    intro howes he
    have hbefore : (p.world.advanceTo t.arrival.time).Owes name r := howes.congr rfl rfl
    rw [he] at houtcome hworld
    rw [houtcome, hworld]
    exact World.attempt_of_owed hc b stop hbefore rfl
  rw [← hname] at hown
  have hother : p.world.Owes name r → t.record.name ≠ name → q.world.Owes name r := by
    intro howes hne
    rw [hworld]
    rw [hname] at hne
    exact World.owes_of_other hne (howes.congr rfl rfl)
  refine ⟨fun hno => ?_, ?_, Nat.le_trans h.count_le hmore⟩
  · rw [hrecords] at hno
    obtain ⟨hlast, hbefore⟩ := List.forall_mem_cons.1 hno
    by_cases he : t.record.name = name
    · exact (hown (h.owes hbefore) he).2 (hlast he)
    · exact hother (h.owes hbefore) he
  · rintro ⟨x, hx, hxname, hxok⟩
    rw [hrecords] at hx
    by_cases hbefore : ∃ x ∈ p.records, x.name = name ∧ x.outcome = some true
    · exact Nat.lt_of_lt_of_le (h.deleted hbefore) hmore
    · rcases List.mem_cons.1 hx with rfl | hx
      · have howes := h.owes fun y hy hyname hyok => hbefore ⟨y, hy, hyname, hyok⟩
        exact Nat.lt_of_le_of_lt h.count_le ((hown howes hxname).1 hxok)
      · exact absurd ⟨x, hx, hxname, hxok⟩ hbefore

/-! ### All told -/

theorem forward_attemptUntil (s : Settings) (b : Backoff) (stop : Nat) :
    (attemptUntil s b stop).Forward := fun _ w => w.clock_le_run _

theorem attemptUntil_eq_some {s : Settings} {b : Backoff} {name : String} {w : World} {ok : Bool}
    (h : (attemptUntil s b stop name w).1 = some ok) :
    ok = true ↔ (w.run (within s.timeout (reconcile s b name))).1 = some (.ok ()) := by
  have hrun := World.run_bounded_of_some _ _ _ _ h
  have hok : (w.run (reconcileInTime s b name)).1 = ok := congrArg Prod.fst hrun
  rw [← hok, reconcileInTime, World.run_bind]
  rcases (w.run (within s.timeout (reconcile s b name))).1 with _ | e | a
  · exact ⟨nofun, nofun⟩
  · exact ⟨nofun, nofun⟩
  · exact ⟨fun _ => rfl, fun _ => rfl⟩

/-- The worker's account after some steps, with the turns that it has had. -/
structure Accounts (attempt : Attempt) (delay stop k : Nat) (sent : List Arrival) (w : World)
    (turns : List Turn) (p : Progress) : Prop where
  ledger : Ledger attempt delay { queue := sent, world := w } turns p
  inTurn : InTurn w.clock turns
  balance : ∀ name time, sent.countP (Arrival.isBy name time) +
      (returns delay turns).countP (Arrival.isBy name time) =
    p.records.countP (AttemptRecord.isBy name time) + waiting name time turns p.queue
  pending : ∀ name, p.queue.countP (fun a => a.name = name) +
      p.records.countP (fun x => x.name = name && x.outcome ≠ some false) =
    sent.countP (fun a => a.name = name)
  goesOn : turns.length = k ∨ Rests stop p

theorem accounts_steps {attempt : Attempt} (hattempt : attempt.Forward) {sent : List Arrival}
    (hsent : sent.Pairwise fun a b => a.time ≤ b.time) (delay stop k : Nat) (w : World) :
    ∃ turns, Accounts attempt delay stop k sent w turns
      (steps attempt delay stop k { queue := sent, world := w }) := by
  obtain ⟨turns, hledger, hgoesOn⟩ := ledger_steps hattempt delay stop k
    { queue := sent, world := w } hsent
  refine ⟨turns, hledger, hledger.ran.inTurn hattempt, fun name time => ?_, fun name => ?_, hgoesOn⟩
  · rw [hledger.countP_records]
    exact hledger.balance hattempt name time
  · rw [hledger.countP_records]
    exact hledger.pending name

/-- Until an attempt on the name has ended well a delete is owed, and all that was sent for the name
still waits, unless the end of the worker cut an attempt off. Only a delete that succeeds ends
it. -/
structure StaysPending (name : String) (r : Route) (sent : List Arrival) (w : World)
    (p : Progress) : Prop where
  pending : (∀ x ∈ p.records, x.name = name → x.outcome ≠ some true) →
    p.world.Owes name r ∧
      p.queue.countP (fun a => a.name = name) +
          p.records.countP (fun x => x.name = name && x.outcome = none) =
        sent.countP (fun a => a.name = name)
  deleted : (∃ x ∈ p.records, x.name = name ∧ x.outcome = some true) →
    w.deletions r.destination < p.world.deletions r.destination

theorem Pursues.staysPending {name : String} {r : Route} {w : World} {p : Progress}
    (h : Pursues name r w p) {attempt : Attempt} {k : Nat} {sent : List Arrival}
    {turns : List Turn} (haccounts : Accounts attempt delay stop k sent w turns p) :
    StaysPending name r sent w p := by
  refine ⟨fun hno => ⟨h.owes hno, ?_⟩, h.deleted⟩
  rw [← haccounts.pending name]
  congr 1
  refine List.countP_congr fun x hx => ?_
  have hx := hno x hx
  rcases ho : x.outcome with _ | _ | _ <;> simp_all

/-- The worker drops and invents no work: every name that was sent or came back is taken once and in
its turn, or waits. A removed node whose delete fails stays with the worker until one succeeds. -/
theorem worker_keeps_account {sent : List Arrival}
    (hsent : sent.Pairwise fun a b => a.time ≤ b.time) (stop k : Nat) (w : World) :
    (∀ (attempt : Attempt) (delay : Nat), attempt.Forward →
      ∃ turns, Accounts attempt delay stop k sent w turns
        (steps attempt delay stop k { queue := sent, world := w })) ∧
    ∀ (s : Settings) (b : Backoff), (attemptUntil s b stop).Forward ∧
      (∀ name v ok, (attemptUntil s b stop name v).1 = some ok →
        (ok = true ↔ (v.run (within s.timeout (reconcile s b name))).1 = some (.ok ()))) ∧
      (s.configureRoutes = true → ∀ name r, w.Owes name r → StaysPending name r sent w
        (steps (attemptUntil s b stop) s.requeueDelay stop k { queue := sent, world := w })) := by
  constructor
  · exact fun attempt delay hattempt => accounts_steps hattempt hsent delay stop k w
  · intro s b
    have hforward := forward_attemptUntil s b stop
    refine ⟨hforward, fun name v ok h => attemptUntil_eq_some h, fun hc name r howes => ?_⟩
    obtain ⟨turns, haccounts⟩ := accounts_steps hforward hsent s.requeueDelay stop k w
    have hpursues : Pursues name r w
        (steps (attemptUntil s b stop) s.requeueDelay stop k { queue := sent, world := w }) := by
      refine steps_induction (fun p q hp hstep => pursues_step hc hp hstep) k ?_
      refine ⟨fun _ => howes, ?_, Nat.le_refl _⟩
      rintro ⟨x, hx, -⟩
      cases hx
    exact hpursues.staysPending haccounts

/-- Both deletes for the removed node fail so far; in between another name has its turn. -/
def busyWorld : World where
  epoch := ⟨0, 0⟩
  latency := { delete := 40 }
  gateway := { MemoryGateway.ofRoutes [Route.named "r-1" "10.244.1.0/24" "i-1"] with
    failures.delete := [.gateway "503", .gateway "503"] }
  cache := Table.empty.insert "n1" (Route.named "r-1" "10.244.1.0/24" "i-1")

def busyArrivals : List Arrival := [⟨0, "n1"⟩, ⟨0, "n2"⟩, ⟨10, "n1"⟩]

theorem busy_worker_keeps_account :
    let p := steps (attemptUntil {} .standard 60000) 15000 60000 3
      { queue := busyArrivals, world := busyWorld }
    (∃ turns, Accounts (attemptUntil {} .standard 60000) 15000 60000 3 busyArrivals busyWorld
      turns p) ∧
    StaysPending "n1" (Route.named "r-1" "10.244.1.0/24" "i-1") busyArrivals busyWorld p ∧
    p.queue = [⟨15040, "n1"⟩, ⟨15080, "n1"⟩] := by
  intro p
  have hsent : busyArrivals.Pairwise fun a b => a.time ≤ b.time := by decide
  obtain ⟨haccounts, hengine⟩ := worker_keeps_account hsent 60000 3 busyWorld
  obtain ⟨hforward, -, hpending⟩ := hengine {} .standard
  have howes : busyWorld.Owes "n1" (Route.named "r-1" "10.244.1.0/24" "i-1") :=
    ⟨rfl, by decide +kernel⟩
  exact ⟨haccounts _ _ hforward, hpending rfl _ _ howes, by decide +kernel⟩

end Worker

end PodRoutes
