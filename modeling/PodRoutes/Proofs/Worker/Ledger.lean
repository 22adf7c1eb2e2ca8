import PodRoutes.Reconcile.Worker

/-!
# The worker's ledger

Whatever the attempts do and however long they take, the worker answers every arrival once, one at a
time and in the order of the queue. A failed attempt puts its name back once, some time after it has
ended, and no other attempt does. So at every moment the arrivals so far are the attempts begun and
the names that still wait (`Ledger.balance`).
-/

namespace PodRoutes

/-- No attempt ends before it began. -/
def Attempt.Forward (attempt : Attempt) : Prop := ∀ name w, w.clock ≤ (attempt name w).2.clock

/-- The name had arrived by the time. -/
def Arrival.isBy (name : String) (time : Nat) (a : Arrival) : Bool := a.name = name && a.time ≤ time

/-- The attempt on the name had begun by the time. -/
def AttemptRecord.isBy (name : String) (time : Nat) (r : AttemptRecord) : Bool :=
  r.name = name && r.started ≤ time

namespace Worker

/-! ### The queue -/

theorem perm_enqueue (a : Arrival) (queue : List Arrival) :
    (enqueue a queue).Perm (a :: queue) := by
  induction queue with
  | nil => exact .refl _
  | cons b rest ih =>
    rw [enqueue]
    split
    · exact .refl _
    · exact (ih.cons b).trans (.swap a b rest)

theorem sublist_enqueue (a : Arrival) (queue : List Arrival) :
    queue.Sublist (enqueue a queue) := by
  induction queue with
  | nil => exact List.nil_sublist _
  | cons b rest ih =>
    rw [enqueue]
    split
    · exact List.sublist_cons_self a (b :: rest)
    · exact ih.cons_cons b

theorem pairwise_enqueue {a : Arrival} {queue : List Arrival}
    (h : queue.Pairwise fun a b => a.time ≤ b.time) :
    (enqueue a queue).Pairwise fun a b => a.time ≤ b.time := by
  induction queue with
  | nil => simp [enqueue]
  | cons b rest ih =>
    obtain ⟨hb, hrest⟩ := List.pairwise_cons.1 h
    rw [enqueue]
    split
    · next hlt =>
      refine List.pairwise_cons.2 ⟨fun c hc => ?_, h⟩
      rcases List.mem_cons.1 hc with rfl | hc
      · omega
      · have := hb c hc
        omega
    · next hge =>
      refine List.pairwise_cons.2 ⟨fun c hc => ?_, ih hrest⟩
      rcases List.mem_cons.1 ((perm_enqueue a rest).mem_iff.1 hc) with rfl | hc
      · omega
      · exact hb c hc

/-- The arrival that a failed attempt leads to. -/
def return? (delay : Nat) (r : AttemptRecord) : Option Arrival :=
  if r.outcome = some false then some ⟨r.ended + delay, r.name⟩ else none

variable {delay : Nat} {r : AttemptRecord} {rest : List Arrival}

theorem perm_requeue (delay : Nat) (r : AttemptRecord) (rest : List Arrival) :
    (requeue delay r rest).Perm ((return? delay r).toList ++ rest) := by
  unfold requeue return?
  split
  · exact perm_enqueue _ rest
  · exact .refl _

theorem sublist_requeue (delay : Nat) (r : AttemptRecord) (rest : List Arrival) :
    rest.Sublist (requeue delay r rest) := by
  unfold requeue
  split
  · exact sublist_enqueue _ rest
  · exact .refl _

theorem pairwise_requeue (h : rest.Pairwise fun a b => a.time ≤ b.time) :
    (requeue delay r rest).Pairwise fun a b => a.time ≤ b.time := by
  unfold requeue
  split
  · exact pairwise_enqueue h
  · exact h

/-! ### Turns -/

/-- An attempt with the arrival that it answers. -/
structure Turn where
  arrival : Arrival
  record : AttemptRecord

/-- The attempts follow one another, each in the world that the one before has left. -/
def Ran (attempt : Attempt) : World → List Turn → World → Prop
  | w, [], w' => w' = w
  | w, t :: rest, w' =>
    let before := w.advanceTo t.arrival.time
    let (outcome, after) := attempt t.arrival.name before
    t.record = ⟨t.arrival.name, before.clock, after.clock, outcome⟩ ∧ Ran attempt after rest w'

/-- Each turn begins once the one before has ended and its name is there. -/
def InTurn : Nat → List Turn → Prop
  | _, [] => True
  | free, t :: rest => t.record.started = max free t.arrival.time ∧
    t.record.started ≤ t.record.ended ∧ InTurn t.record.ended rest

def returns (delay : Nat) (turns : List Turn) : List Arrival :=
  turns.filterMap fun t => return? delay t.record

variable {attempt : Attempt} {turns : List Turn} {w w' : World} {free : Nat}

theorem Ran.inTurn (h : Ran attempt w turns w') (hattempt : attempt.Forward) :
    InTurn w.clock turns := by
  induction turns generalizing w with
  | nil => trivial
  | cons t rest ih =>
    obtain ⟨hrecord, hrest⟩ := h
    have hended := hattempt t.arrival.name (w.advanceTo t.arrival.time)
    rw [InTurn, hrecord]
    exact ⟨rfl, hended, ih hrest⟩

theorem Ran.names (h : Ran attempt w turns w') : ∀ t ∈ turns, t.record.name = t.arrival.name := by
  induction turns generalizing w with
  | nil => simp
  | cons t rest ih =>
    obtain ⟨hrecord, hrest⟩ := h
    refine List.forall_mem_cons.2 ⟨?_, ih hrest⟩
    rw [hrecord]

theorem InTurn.started (h : InTurn free turns) :
    ∀ t ∈ turns, free ≤ t.record.started ∧ t.arrival.time ≤ t.record.started ∧
      t.record.started ≤ t.record.ended := by
  induction turns generalizing free with
  | nil => simp
  | cons t rest ih =>
    obtain ⟨hstarted, hended, hrest⟩ := h
    refine List.forall_mem_cons.2 ⟨?_, fun u hu => ?_⟩
    · omega
    · obtain ⟨hfree, harrived, hu⟩ := ih hrest u hu
      omega

theorem InTurn.le_of_mem_returns {t : Turn} (h : InTurn free (t :: turns)) {a : Arrival}
    (ha : a ∈ returns delay (t :: turns)) : t.arrival.time ≤ a.time := by
  obtain ⟨hstarted, hended, hrest⟩ := h
  obtain ⟨u, hu, hreturn⟩ := List.mem_filterMap.1 ha
  have hlater : t.record.ended ≤ u.record.ended := by
    rcases List.mem_cons.1 hu with rfl | hu
    · exact Nat.le_refl _
    · obtain ⟨hfree, -, hu⟩ := hrest.started u hu
      exact Nat.le_trans hfree hu
  unfold return? at hreturn
  split at hreturn
  · cases hreturn
    show t.arrival.time ≤ u.record.ended + delay
    omega
  · cases hreturn

/-! ### Steps -/

/-- What lies between two states of the worker. -/
structure Ledger (attempt : Attempt) (delay : Nat) (p : Progress) (turns : List Turn)
    (q : Progress) : Prop where
  ran : Ran attempt p.world turns q.world
  records : q.records = (turns.map Turn.record).reverse ++ p.records
  /-- What was taken and what is left are what was there and what came back. -/
  entries : (turns.map Turn.arrival ++ q.queue).Perm (p.queue ++ returns delay turns)
  inTime : (turns.map Turn.arrival ++ q.queue).Pairwise fun a b => a.time ≤ b.time
  inOrder : p.queue.Sublist (turns.map Turn.arrival ++ q.queue)

/-- There is nothing left to do before the end: the queue is empty, the last attempt was cut off, or
the next arrival comes too late. -/
def Rests (stop : Nat) (p : Progress) : Prop :=
  p.queue = [] ∨ p.isCutOff = true ∨ ∃ a ∈ p.queue.head?, stop ≤ a.time

variable {stop : Nat} {p q : Progress}

theorem rests_of_step (h : step attempt delay stop p = none) : Rests stop p := by
  unfold step at h
  unfold Rests
  cases hq : p.queue with
  | nil => exact Or.inl rfl
  | cons a rest =>
    cases hc : p.isCutOff with
    | true => exact Or.inr (Or.inl rfl)
    | false =>
      simp only [hq, hc] at h
      split at h
      · next hcut => cases hcut
      · split at h
        · cases h
        · next hlate => exact Or.inr (Or.inr ⟨a, rfl, by omega⟩)

/-- A step takes the first arrival, whose attempt may put its name back. -/
theorem step_cases (h : step attempt delay stop p = some q) :
    ∃ t rest, p.queue = t.arrival :: rest ∧ q.queue = requeue delay t.record rest ∧
      q.records = t.record :: p.records ∧ Ran attempt p.world [t] q.world := by
  unfold step at h
  split at h
  · cases h
  · next a rest hq =>
    split at h
    · cases h
    · split at h
      · cases h
        exact ⟨⟨a, _⟩, rest, hq, rfl, rfl, rfl, rfl⟩
      · cases h

theorem Ledger.refl (h : p.queue.Pairwise fun a b => a.time ≤ b.time) :
    Ledger attempt delay p [] p where
  ran := rfl
  records := rfl
  entries := by simp [returns]
  inTime := h
  inOrder := .refl _

theorem Ledger.cons {q' : Progress} (h : Ledger attempt delay q turns q')
    (hattempt : attempt.Forward) (hp : p.queue.Pairwise fun a b => a.time ≤ b.time) {t : Turn}
    (hqueue : p.queue = t.arrival :: rest) (hrest : q.queue = requeue delay t.record rest)
    (hrecords : q.records = t.record :: p.records) (hran : Ran attempt p.world [t] q.world) :
    Ledger attempt delay p (t :: turns) q' := by
  rw [hqueue] at hp
  obtain ⟨hfirst, -⟩ := List.pairwise_cons.1 hp
  obtain ⟨hrecord, hworld⟩ := hran
  have hrun : Ran attempt p.world (t :: turns) q'.world := ⟨hrecord, hworld ▸ h.ran⟩
  have hreturns : returns delay (t :: turns) =
      (return? delay t.record).toList ++ returns delay turns := by
    unfold returns
    rw [List.filterMap_cons]
    cases return? delay t.record <;> rfl
  have hentries : (turns.map Turn.arrival ++ q'.queue).Perm
      (rest ++ returns delay (t :: turns)) := by
    refine h.entries.trans ?_
    rw [hrest, hreturns, ← List.append_assoc]
    exact ((perm_requeue delay t.record rest).trans List.perm_append_comm).append_right _
  refine ⟨hrun, ?_, ?_, ?_, ?_⟩
  · rw [h.records, hrecords]
    simp
  · rw [hqueue]
    exact hentries.cons t.arrival
  · refine List.pairwise_cons.2 ⟨fun a ha => ?_, h.inTime⟩
    -- what comes later was there already, or it came back after a turn
    rcases List.mem_append.1 (hentries.mem_iff.1 ha) with hthere | hback
    · exact hfirst a hthere
    · exact (hrun.inTurn hattempt).le_of_mem_returns hback
  · rw [hqueue]
    have hkept : rest.Sublist (turns.map Turn.arrival ++ q'.queue) := by
      refine (sublist_requeue delay t.record rest).trans ?_
      rw [← hrest]
      exact h.inOrder
    exact hkept.cons_cons t.arrival

theorem ledger_steps (hattempt : attempt.Forward) (delay stop k : Nat) (p : Progress)
    (hp : p.queue.Pairwise fun a b => a.time ≤ b.time) :
    ∃ turns, Ledger attempt delay p turns (steps attempt delay stop k p) ∧
      (turns.length = k ∨ Rests stop (steps attempt delay stop k p)) := by
  induction k generalizing p with
  | zero => exact ⟨[], .refl hp, Or.inl rfl⟩
  | succ k ih =>
    rw [steps]
    cases hstep : step attempt delay stop p with
    | none => exact ⟨[], .refl hp, Or.inr (rests_of_step hstep)⟩
    | some q =>
      obtain ⟨t, rest, hqueue, hrest, hrecords, hran⟩ := step_cases hstep
      have hq : q.queue.Pairwise fun a b => a.time ≤ b.time := by
        rw [hrest]
        rw [hqueue] at hp
        exact pairwise_requeue (List.pairwise_cons.1 hp).2
      obtain ⟨turns, hledger, hk⟩ := ih q hq
      exact ⟨t :: turns, hledger.cons hattempt hp hqueue hrest hrecords hran,
        hk.imp_left (congrArg (· + 1))⟩

/-! ### Accounts -/

/-- The names that wait at a time: they have arrived, and no attempt on them has begun. -/
def waiting (name : String) (time : Nat) (turns : List Turn) (queue : List Arrival) : Nat :=
  turns.countP (fun t => t.arrival.isBy name time && !t.record.isBy name time) +
    queue.countP (Arrival.isBy name time)

theorem countP_split {α : Type} (l : List α) (p q : α → Bool) :
    l.countP p = l.countP (fun x => p x && q x) + l.countP (fun x => p x && !q x) := by
  rw [List.countP_eq_countP_filter_add l p q, List.countP_filter, List.countP_filter]

namespace Ledger

variable (h : Ledger attempt delay p turns q)

include h

theorem countP_records (f : AttemptRecord → Bool) :
    q.records.countP f = turns.countP (fun t => f t.record) + p.records.countP f := by
  rw [h.records, List.countP_append, List.countP_reverse, List.countP_map]
  rfl

theorem countP_entries (f : Arrival → Bool) :
    turns.countP (fun t => f t.arrival) + q.queue.countP f =
      p.queue.countP f + (returns delay turns).countP f := by
  have hentries := h.entries.countP_eq f
  rw [List.countP_append, List.countP_append, List.countP_map] at hentries
  exact hentries

/-- At every time the arrivals so far are the attempts begun and the names that wait. -/
theorem balance (hattempt : attempt.Forward) (name : String) (time : Nat) :
    p.queue.countP (Arrival.isBy name time) +
        (returns delay turns).countP (Arrival.isBy name time) =
      turns.countP (fun t => t.record.isBy name time) + waiting name time turns q.queue := by
  have hentries := h.countP_entries (Arrival.isBy name time)
  have hsplit := countP_split turns (fun t => t.arrival.isBy name time)
    (fun t => t.record.isBy name time)
  -- an attempt that has begun answers a name that has arrived
  have hbegun : turns.countP (fun t => t.arrival.isBy name time && t.record.isBy name time) =
      turns.countP (fun t => t.record.isBy name time) := by
    refine List.countP_congr fun t ht => ?_
    have hname := h.ran.names t ht
    obtain ⟨-, harrived, -⟩ := (h.ran.inTurn hattempt).started t ht
    simp only [Arrival.isBy, AttemptRecord.isBy, Bool.and_eq_true, decide_eq_true_eq, hname]
    constructor
    · exact fun hboth => hboth.2
    · rintro ⟨he, hstarted⟩
      exact ⟨⟨he, by omega⟩, he, hstarted⟩
  unfold waiting
  omega

/-- All told, what was there is what waits and what an attempt has settled. -/
theorem pending (name : String) :
    q.queue.countP (fun a => a.name = name) +
        turns.countP (fun t => t.record.name = name && t.record.outcome ≠ some false) =
      p.queue.countP (fun a => a.name = name) := by
  have hentries := h.countP_entries (fun a => a.name = name)
  have hsplit := countP_split turns (fun t => decide (t.arrival.name = name))
    (fun t => decide (t.record.outcome = some false))
  have hreturns : (returns delay turns).countP (fun a => a.name = name) =
      turns.countP (fun t => decide (t.arrival.name = name) &&
        decide (t.record.outcome = some false)) := by
    unfold returns
    rw [List.countP_filterMap]
    refine List.countP_congr fun t ht => ?_
    rw [return?, ← h.ran.names t ht]
    split
    · next hfailed => simp [hfailed]
    · next hother => simp [hother]
  have hsettled : turns.countP (fun t => decide (t.arrival.name = name) &&
      !decide (t.record.outcome = some false)) =
        turns.countP (fun t => t.record.name = name && t.record.outcome ≠ some false) := by
    refine List.countP_congr fun t ht => ?_
    simp [h.ran.names t ht]
  omega

end Ledger

end Worker

end PodRoutes
