import PodRoutes.Proofs.Cloud.Waiting

/-!
# The last look for a new route

A wait for a new route goes from look to look (`Waits`), and requests may take time. It ends with a
look that shows the route, or after one that does not, when another interval would pass the
deadline. So the last look decides (`Decides`): when requests take little time it is not long before
the deadline, and when they take none it is at the last multiple of the interval (`lastLook`).
-/

namespace PodRoutes.Cloud

open VpcApi (Serves Passes passes_of_drift)

namespace VpcApi

/-! ### Turns of a call -/

def sends : Web.Request → Bool
  | .send _ _ => true
  | _ => false

/-- The last request that was sent. -/
def lastSent? (t : List (Web.Turn VpcApi)) : Option (Web.Turn VpcApi) :=
  (t.filter fun turn => sends turn.request).getLast?

/-- From the answer of a request to the next request at most so many milliseconds pass. -/
def Prompt (millis : Nat) (t : List (Web.Turn VpcApi)) : Prop :=
  t.IsChain fun turn next => next.before.clock ≤ turn.after.clock + millis

variable {t : List (Web.Turn VpcApi)} {turn last : Web.Turn VpcApi} {millis : Nat}

theorem lastSent?_cons (h : lastSent? t = some last) : lastSent? (turn :: t) = some last := by
  unfold lastSent? at h ⊢
  rw [List.filter_cons]
  split
  · rw [List.getLast?_cons, h, Option.getD_some]
  · exact h

theorem lastSent?_singleton (h : sends turn.request = true) : lastSent? [turn] = some turn := by
  simp [lastSent?, h]

theorem Prompt.of_cons (h : Prompt millis (turn :: t)) : Prompt millis t := List.IsChain.tail h

/-- Where nobody else acts, each request is carried out where the one before it ended. -/
theorem prompt_of_alone {S : Web.Service VpcApi} {p : Web α} {s s' : VpcApi} {a : α}
    (h : Web.Ends S Eq p s t a s') : Prompt 0 t := by
  refine h.isChain.imp fun turn next he => ?_
  rw [he]
  exact Nat.le_refl _

end VpcApi

open VpcApi (lastSent? Prompt lastSent?_cons lastSent?_singleton)

namespace Client

variable {c : Client} {u : Web.Url} {lag deadline left millis : Nat} {e : Entry}
variable {destination : String} {s s' : VpcApi} {t : List (Web.Turn VpcApi)} {a : Outcome Route}

theorem Looks.passes {turn : Web.Turn VpcApi} (h : Looks Passes s t turn s') :
    Passes s turn.before ∧ Passes turn.before s' :=
  ⟨passes_of_drift h.earlier, passes_of_drift h.later⟩

theorem Looks.lastSent? {D : VpcApi → VpcApi → Prop} {turn : Web.Turn VpcApi}
    (h : Looks D s t turn s') : lastSent? [turn] = some turn := by
  obtain ⟨r, limit, hsent⟩ := h.sent
  exact lastSent?_singleton (by rw [hsent]; rfl)

/-! ### Waits -/

def clockRead (s : VpcApi) : Web.Turn VpcApi := ⟨.now, s, some s.clock, s⟩

def paused (c : Client) (s : VpcApi) : Web.Turn VpcApi :=
  ⟨.pause c.intervalMillis, s, some (), s.later c.intervalMillis⟩

/-- How a wait for a route may go while time passes. -/
inductive Waits (c : Client) (e : Entry) (destination : String) (deadline : Nat) :
    VpcApi → List (Web.Turn VpcApi) → Outcome Route → VpcApi → Prop
  | seen {s s' : VpcApi} {look : Web.Turn VpcApi} (looks : Looks Passes s [look] look s')
      (shown : e.shownFrom ≤ look.before.clock) :
      Waits c e destination deadline s [look] (.ok e.item.toRoute) s'
  | missed {s s₁ s₂ s' : VpcApi} {look : Web.Turn VpcApi} (looks : Looks Passes s [look] look s₁)
      (hidden : look.before.clock < e.shownFrom) (read : Passes s₁ s₂)
      (close : deadline < s₂.clock + c.intervalMillis) (rest : Passes s₂ s') :
      Waits c e destination deadline s [look, clockRead s₂] (.error (.notVisible destination)) s'
  | again {s s₁ s₂ s₃ s' : VpcApi} {look : Web.Turn VpcApi} {t : List (Web.Turn VpcApi)}
      {a : Outcome Route} (looks : Looks Passes s [look] look s₁)
      (hidden : look.before.clock < e.shownFrom) (read : Passes s₁ s₂)
      (far : s₂.clock + c.intervalMillis ≤ deadline) (pause : Passes s₂ s₃)
      (rest : Waits c e destination deadline (s₃.later c.intervalMillis) t a s') :
      Waits c e destination deadline s (look :: clockRead s₂ :: c.paused s₃ :: t) a s'

/-- The last look of a wait, which decides its result. -/
structure Decides (c : Client) (e : Entry) (destination : String) (deadline : Nat) (s : VpcApi)
    (t : List (Web.Turn VpcApi)) (look : Web.Turn VpcApi) (a : Outcome Route) (s' : VpcApi) :
    Prop where
  last : lastSent? t = some look
  earlier : Passes s look.before
  later : Passes look.before s'
  result : if e.shownFrom ≤ look.before.clock then a = .ok e.item.toRoute
    else a = .error (.notVisible destination)
  /-- The deadline comes at most one answer and one interval after a look that was in vain. -/
  close : look.before.clock < e.shownFrom → ∀ millis, Prompt millis t →
    deadline < look.before.clock + millis + c.intervalMillis
  /-- Without delays all looks are whole intervals after the start. -/
  regular : ∀ turn, turn.after = s → Prompt 0 (turn :: t) →
    ∃ waits, look.before.clock = s.clock + waits * c.intervalMillis

variable {s₁ s₂ s₃ : VpcApi} {look last turn : Web.Turn VpcApi}

theorem Looks.prompt_eq (h : Looks Passes s [look] look s') (hturn : turn.after = s)
    (hprompt : Prompt 0 (turn :: look :: t)) : look.before.clock = s.clock := by
  have hle := (List.isChain_cons_cons.1 hprompt).1
  have hge := h.passes.1.2
  rw [hturn] at hle
  omega

theorem Looks.decides_seen (h : Looks Passes s [look] look s')
    (shown : e.shownFrom ≤ look.before.clock) :
    Decides c e destination deadline s [look] look (.ok e.item.toRoute) s' where
  last := h.lastSent?
  earlier := h.passes.1
  later := h.passes.2
  result := by rw [if_pos shown]
  close hidden := absurd shown (Nat.not_le_of_lt hidden)
  regular turn hturn hprompt := ⟨0, by rw [h.prompt_eq hturn hprompt]; omega⟩

theorem Looks.decides_missed (h : Looks Passes s [look] look s₁)
    (hidden : look.before.clock < e.shownFrom) (read : Passes s₁ s₂)
    (close : deadline < s₂.clock + c.intervalMillis) (rest : Passes s₂ s') :
    Decides c e destination deadline s [look, clockRead s₂] look
      (.error (.notVisible destination)) s' where
  last := by
    rw [← h.lastSent?]
    simp [VpcApi.lastSent?, List.filter_cons, clockRead, VpcApi.sends]
  earlier := h.passes.1
  later := (h.passes.2.trans read).trans rest
  result := by rw [if_neg (Nat.not_le_of_lt hidden)]
  close _ millis hprompt := by
    have hread := (List.isChain_cons_cons.1 hprompt).1
    rw [h.same] at hread
    dsimp only [clockRead] at hread
    omega
  regular turn hturn hprompt := ⟨0, by rw [h.prompt_eq hturn hprompt]; omega⟩

theorem Decides.again (h : Decides c e destination deadline (s₃.later c.intervalMillis) t last a s')
    (looks : Looks Passes s [look] look s₁) (read : Passes s₁ s₂) (pause : Passes s₂ s₃) :
    Decides c e destination deadline s (look :: clockRead s₂ :: c.paused s₃ :: t) last a s' where
  last := lastSent?_cons (lastSent?_cons (lastSent?_cons h.last))
  earlier :=
    have hnext := ((looks.passes.1.trans looks.passes.2).trans read).trans pause
    (hnext.trans (VpcApi.passes_later _ _)).trans h.earlier
  later := h.later
  result := h.result
  close hidden millis hprompt := h.close hidden millis hprompt.of_cons.of_cons.of_cons
  regular turn hturn hprompt := by
    obtain ⟨waits, hwaits⟩ := h.regular _ rfl hprompt.of_cons.of_cons.of_cons
    have hlook := looks.prompt_eq hturn hprompt
    obtain ⟨-, hread, hpause, -⟩ := by
      simpa only [Prompt, List.isChain_cons_cons, looks.same, clockRead, paused] using hprompt
    have hreads := (looks.passes.2.trans read).2
    have hpauses := pause.2
    refine ⟨waits + 1, ?_⟩
    rw [hwaits, VpcApi.clock_later, Nat.succ_mul]
    omega

theorem Waits.decides (h : Waits c e destination deadline s t a s') :
    ∃ look, Decides c e destination deadline s t look a s' := by
  induction h with
  | seen looks shown => exact ⟨_, looks.decides_seen shown⟩
  | missed looks hidden read close rest => exact ⟨_, looks.decides_missed hidden read close rest⟩
  | again looks hidden read far pause rest ih =>
    obtain ⟨last, hlast⟩ := ih
    exact ⟨last, hlast.again looks read pause⟩

/-! ### The waits of the client -/

theorem pollRoute_step (hu : Web.Url.parse c.config.endpoint = .ok u) (he : e ∈ s.entries)
    (h : Web.Ends (Serves u lag) Passes (c.pollRoute e.item.id destination deadline (left + 1)) s t
      a s') :
    Waits c e destination deadline s t a s' ∨
      ∃ look s₁ s₂ s₃ t', Looks Passes s [look] look s₁ ∧ look.before.clock < e.shownFrom ∧
        Passes s₁ s₂ ∧ s₂.clock + c.intervalMillis ≤ deadline ∧ Passes s₂ s₃ ∧
        t = look :: clockRead s₂ :: c.paused s₃ :: t' ∧
        Web.Ends (Serves u lag) Passes (c.pollRoute e.item.id destination deadline left)
          (s₃.later c.intervalMillis) t' a s' := by
  rw [pollRoute] at h
  obtain ⟨t₁, x, s₁, t₂, hlook, hrest, rfl⟩ := h.bind_inv
  obtain ⟨look, hlooks, ⟨rfl, hnone⟩ | ⟨r, hr, hid, rfl⟩⟩ := describeId_asked hu hlook
  all_goals
    obtain rfl := hlooks.turns
    have hentries := hlooks.passes.1.1
  · have hhidden : look.before.clock < e.shownFrom := by
      by_contra hshown
      have hlisted := VpcApi.mem_listed.2 ⟨e, hentries ▸ he, Nat.le_of_not_lt hshown, rfl⟩
      exact hnone e.item hlisted rfl
    obtain ⟨time, s₂, s₃, t₃, hread, hnow, hchoice, rfl⟩ := hrest.request_inv
    cases hnow
    split at hchoice
    · next hclose =>
      obtain ⟨rfl, rfl, hlast⟩ := hchoice.done_inv
      exact .inl (.missed hlooks hhidden (passes_of_drift hread) hclose (passes_of_drift hlast))
    · next hfar =>
      obtain ⟨_, s₄, s₅, t₄, hdrift, hpause, hagain, rfl⟩ := hchoice.request_inv
      cases hpause
      exact .inr ⟨look, s₁, s₂, s₄, t₄, hlooks, hhidden, passes_of_drift hread,
        Nat.le_of_not_lt hfar, passes_of_drift hdrift, rfl, hagain⟩
  · obtain ⟨e', he', hshown, rfl⟩ := VpcApi.mem_listed.1 hr
    obtain rfl := s.eq_of_id (hentries ▸ he') he hid
    obtain ⟨rfl, rfl, hlast⟩ := hrest.done_inv
    exact .inl (.seen { hlooks with later := hlooks.later.trans hlast } hshown)

/-- With the deadline less than so many intervals away there are enough polls. -/
theorem pollRoute_waits (hu : Web.Url.parse c.config.endpoint = .ok u) (he : e ∈ s.entries)
    (hlt : deadline < s.clock + (left + 1) * c.intervalMillis)
    (h : Web.Ends (Serves u lag) Passes (c.pollRoute e.item.id destination deadline (left + 1)) s t
      a s') :
    Waits c e destination deadline s t a s' := by
  induction left generalizing s t with
  | zero =>
    rcases pollRoute_step hu he h with hwaits |
      ⟨look, s₁, s₂, s₃, t', hlooks, -, hread, hfar, -⟩
    · exact hwaits
    · have hle := ((hlooks.passes.1.trans hlooks.passes.2).trans hread).2
      omega
  | succ left ih =>
    rcases pollRoute_step hu he h with hwaits |
      ⟨look, s₁, s₂, s₃, t', hlooks, hhidden, hread, hfar, hpause, rfl, hrest⟩
    · exact hwaits
    · have hnext := ((hlooks.passes.1.trans hlooks.passes.2).trans hread).trans hpause
      have hle := hnext.2
      have hmem : e ∈ (s₃.later c.intervalMillis).entries := by
        rw [VpcApi.entries_later, hnext.1]
        exact he
      rw [Nat.succ_mul] at hlt
      exact .again hlooks hhidden hread hfar hpause
        (ih hmem (by rw [VpcApi.clock_later]; omega) hrest)

/-- The wait of a create starts with a reading of the clock. -/
theorem awaitRoute_waits (hu : Web.Url.parse c.config.endpoint = .ok u)
    (hinterval : c.config.waitInterval ≠ 0) (he : e ∈ s.entries)
    (h : Web.Ends (Serves u lag) Passes (c.awaitRoute e.item.id destination) s t a s') :
    ∃ s₁ t', Passes s s₁ ∧ t = clockRead s₁ :: t' ∧
      Waits c e destination (s₁.clock + c.timeoutMillis) s₁ t' a s' := by
  obtain ⟨start, s₁, s₂, t', hdrift, hnow, hrest, rfl⟩ := h.request_inv
  cases hnow
  have hpasses := passes_of_drift hdrift
  have hmem : e ∈ s₁.entries := hpasses.1 ▸ he
  have hlt := Nat.lt_div_mul_add (a := c.config.waitTimeout) (Nat.pos_of_ne_zero hinterval)
  refine ⟨s₁, t', hpasses, rfl, pollRoute_waits hu hmem ?_ hrest⟩
  rw [intervalMillis, timeoutMillis, ← Nat.mul_assoc, Nat.succ_mul]
  omega

/-- The time of the last look of a wait without delays, after its start. -/
def lastLook (c : Client) : Nat :=
  c.config.waitTimeout / c.config.waitInterval * c.intervalMillis

theorem lastLook_le {waits : Nat} (h : c.timeoutMillis < (waits + 1) * c.intervalMillis) :
    c.lastLook ≤ waits * c.intervalMillis := by
  have hlt : c.config.waitTimeout < c.config.waitInterval * (waits + 1) := by
    rw [timeoutMillis, intervalMillis, ← Nat.mul_assoc] at h
    rw [Nat.mul_comm]
    omega
  exact Nat.mul_le_mul_right _ (Nat.le_of_lt_succ (Nat.div_lt_of_lt_mul hlt))

end Client

end PodRoutes.Cloud
