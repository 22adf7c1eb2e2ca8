import PodRoutes.Control.Deadline
import PodRoutes.Proofs.Interleaving.Crew

/-!
# Programs in any surroundings

Surroundings say, for each of their states, what a request may be answered, and may leave that
open. `Ends` is a run of a program among them. A program meets a contract if each of its requests
and its result are allowed whatever it is answered (`Meets`); then so are those of every run
(`Meets.requests`, `Meets.ends`). `Only` is the contract that looks at nothing but the requests.
-/

namespace PodRoutes

open Control

/-- What a request may be answered in a state, and the state after that. The answer to a request
that is given up is missing. -/
abbrev Surroundings (σ : Type) : Type := (r : Request) → σ → Option (Reply r) → σ → Prop

structure Exchange where
  request : Request
  reply : Option (Reply request)

/-- A run of a program from its start to its result, with its exchanges. -/
inductive Ends {σ α : Type} (E : Surroundings σ) : Control α → σ → List Exchange → α → σ → Prop
  | done (a : α) (s : σ) : Ends E (.done a) s [] a s
  | ask {r : Request} {next : Reply r → Control α} {x : Reply r} {s s' s'' : σ}
      {t : List Exchange} {a : α} (answer : E r s (some x) s')
      (rest : Ends E (next x) s' t a s'') : Ends E (.ask r next) s (⟨r, some x⟩ :: t) a s''
  | askBy {deadline : Nat} {r : Request} {next : Option (Reply r) → Control α}
      {x : Option (Reply r)} {s s' s'' : σ} {t : List Exchange} {a : α} (answer : E r s x s')
      (rest : Ends E (next x) s' t a s'') : Ends E (.askBy deadline r next) s (⟨r, x⟩ :: t) a s''

theorem Control.bounded_request {α : Type} (deadline : Nat) (held : Bool) (r : Request)
    (f : Reply r → Control α) :
    ∃ next, bounded deadline held (Program.request (I := interface) r >>= f) =
        .askBy deadline r next ∧ next none = cutOff held ∧
      ∀ y, next (some y) = bounded deadline (holdsAfter held r) (f y) :=
  ⟨_, bounded.eq_2 .., rfl, fun _ => rfl⟩

instance Control.Reply.nonempty (r : Request) : Nonempty (Reply r) := by
  cases r with
  | createRoute i c => exact ⟨(.ok none : Outcome (Option Route))⟩
  | findRoute c => exact ⟨(.ok none : Outcome (Option Route))⟩
  | listRoutes => exact ⟨(.ok [] : Outcome (List Route))⟩
  | deleteRoute c => exact ⟨(.ok () : Outcome Unit)⟩
  | getNode name => exact ⟨(.ok none : Outcome (Option Node))⟩
  | listNodes => exact ⟨(.ok [] : Outcome (List Node))⟩
  | patchNode name edit scope => exact ⟨(.ok () : Outcome Unit)⟩
  | cachedRoute name => exact ⟨(none : Option Route)⟩
  | now => exact ⟨(0 : Nat)⟩
  | draw => exact ⟨(0 : Rat)⟩
  | _ => exact ⟨()⟩

/-- Every request is answered, whatever the state. -/
def Surroundings.Responsive {σ : Type} (E : Surroundings σ) : Prop :=
  ∀ r s, ∃ x s', E r s (some x) s'

theorem Surroundings.Responsive.exists_ends {σ α : Type} {E : Surroundings σ} (hE : E.Responsive)
    (p : Control α) (s : σ) : ∃ t a s', Ends E p s t a s' := by
  induction p generalizing s with
  | done a => exact ⟨[], a, s, .done a s⟩
  | ask r next ih =>
    obtain ⟨x, s', hx⟩ := hE r s
    obtain ⟨t, a, s'', he⟩ := ih x s'
    exact ⟨_, a, s'', .ask hx he⟩
  | askBy d r next ih =>
    obtain ⟨x, s', hx⟩ := hE r s
    obtain ⟨t, a, s'', he⟩ := ih (some x) s'
    exact ⟨_, a, s'', .askBy hx he⟩

namespace Ends

variable {σ α β : Type} {E : Surroundings σ} {p : Control α} {f : α → Control β} {s s'' : σ}
  {t : List Exchange} {a : α} {b : β}

theorem ask_inv {r : Request} {f : Reply r → Control β}
    (h : Ends E (Program.request (I := interface) r >>= f) s t b s'') :
    ∃ x s' t', E r s (some x) s' ∧ Ends E (f x) s' t' b s'' ∧ t = ⟨r, some x⟩ :: t' := by
  cases h with
  | ask answer rest => exact ⟨_, _, _, answer, rest, rfl⟩

theorem bounded_inv {deadline : Nat} {held : Bool} {r : Request} {f : Reply r → Control β}
    {o : Option β}
    (h : Ends E (bounded deadline held (Program.request (I := interface) r >>= f)) s t o s'') :
    ∃ x s' t', E r s x s' ∧ t = ⟨r, x⟩ :: t' ∧ (x = none → Ends E (cutOff held) s' t' o s'') ∧
      ∀ y, x = some y → Ends E (bounded deadline (holdsAfter held r) (f y)) s' t' o s'' := by
  obtain ⟨next, hnext, hnone, hsome⟩ := bounded_request deadline held r f
  have hby : Ends E (.askBy deadline r next) s t o s'' := hnext ▸ h
  cases hby with
  | @askBy _ _ _ x _ s' _ t' _ answer rest =>
    refine ⟨x, s', t', answer, rfl, ?_, ?_⟩
    · rintro rfl
      exact hnone ▸ rest
    · rintro y rfl
      exact hsome y ▸ rest

theorem bounded_ask {deadline : Nat} {held : Bool} {r : Request} {f : Reply r → Control β}
    {x : Reply r} {s' : σ} {o : Option β} (answer : E r s (some x) s')
    (rest : Ends E (bounded deadline (holdsAfter held r) (f x)) s' t o s'') :
    Ends E (bounded deadline held (Program.request (I := interface) r >>= f)) s
      (⟨r, some x⟩ :: t) o s'' := by
  obtain ⟨next, hnext, -, hsome⟩ := bounded_request deadline held r f
  rw [hnext]
  exact .askBy answer (hsome x ▸ rest)

theorem bind_inv (h : Ends E (p >>= f) s t b s'') :
    ∃ t₁ a s' t₂, Ends E p s t₁ a s' ∧ Ends E (f a) s' t₂ b s'' ∧ t = t₁ ++ t₂ := by
  induction p generalizing s t with
  | done a => exact ⟨[], a, s, t, .done a s, h, rfl⟩
  | ask r next ih =>
    cases h with
    | ask answer rest =>
      obtain ⟨t₁, a, s', t₂, h₁, h₂, rfl⟩ := ih _ rest
      exact ⟨_, a, s', t₂, .ask answer h₁, h₂, rfl⟩
  | askBy d r next ih =>
    cases h with
    | askBy answer rest =>
      obtain ⟨t₁, a, s', t₂, h₁, h₂, rfl⟩ := ih _ rest
      exact ⟨_, a, s', t₂, .askBy answer h₁, h₂, rfl⟩

theorem bind {s' : σ} {t₁ t₂ : List Exchange} (hp : Ends E p s t₁ a s')
    (hf : Ends E (f a) s' t₂ b s'') : Ends E (p >>= f) s (t₁ ++ t₂) b s'' := by
  induction hp with
  | done a s => exact hf
  | ask answer rest ih => exact .ask answer (ih hf)
  | askBy answer rest ih => exact .askBy answer (ih hf)

theorem map_inv {g : α → β} (h : Ends E (do return g (← p)) s t b s'') :
    ∃ a, Ends E p s t a s'' ∧ b = g a := by
  obtain ⟨t₁, a, s', t₂, hp, hend, rfl⟩ := bind_inv h
  cases hend
  rw [List.append_nil]
  exact ⟨a, hp, rfl⟩

theorem map {g : α → β} (h : Ends E p s t a s'') : Ends E (do return g (← p)) s t (g a) s'' := by
  have hmap := h.bind (f := fun a => Program.done (g a)) (.done (g a) s'')
  rwa [List.append_nil] at hmap

theorem askThen {r : Request} {f : Reply r → Control β} {x : Reply r} {s' : σ}
    (answer : E r s (some x) s') (rest : Ends E (f x) s' t b s'') :
    Ends E (Program.request (I := interface) r >>= f) s (⟨r, some x⟩ :: t) b s'' :=
  .ask answer rest

theorem locked {s₁ s₂ : σ} (hlock : E .lock s (some ()) s₁) (hp : Ends E p s₁ t a s₂)
    (hunlock : E .unlock s₂ (some ()) s'') :
    Ends E (Control.locked p) s (⟨.lock, some ()⟩ :: (t ++ [⟨.unlock, some ()⟩])) a s'' :=
  .askThen hlock (hp.bind (.askThen hunlock (.done a s'')))

theorem locked_inv (h : Ends E (Control.locked p) s t a s'') :
    ∃ s₁ t' s₂, E .lock s (some ()) s₁ ∧ Ends E p s₁ t' a s₂ ∧ E .unlock s₂ (some ()) s'' ∧
      t = ⟨.lock, some ()⟩ :: (t' ++ [⟨.unlock, some ()⟩]) := by
  obtain ⟨x, s₁, t', hlock, hheld, rfl⟩ := ask_inv h
  obtain ⟨t₁, a', s₂, t₂, hp, hrelease, rfl⟩ := bind_inv hheld
  obtain ⟨y, s₃, t₃, hunlock, hend, rfl⟩ := ask_inv hrelease
  cases hend
  exact ⟨s₁, t₁, s₂, hlock, hp, hunlock, rfl⟩

end Ends

/-- Every request is allowed in the state in which it is made, and the result in the last one. -/
def Meets {σ α : Type} (E : Surroundings σ) (P : σ → Request → Prop) (Q : σ → α → Prop) :
    Control α → σ → Prop
  | .done a, s => Q s a
  | .ask r next, s => P s r ∧ ∀ x s', E r s (some x) s' → Meets E P Q (next x) s'
  | .askBy _ r next, s => P s r ∧ ∀ x s', E r s x s' → Meets E P Q (next x) s'

namespace Meets

variable {σ α β : Type} {E : Surroundings σ} {P P' : σ → Request → Prop} {Q Q' : σ → α → Prop}
  {S : σ → β → Prop} {p q : Control α} {f : α → Control β} {s s' : σ}

/-! ### Rules -/

theorem ask {r : Request} {Q : σ → Reply r → Prop} (hr : P s r)
    (h : ∀ x s', E r s (some x) s' → Q s' x) :
    Meets E P Q (Program.request (I := interface) r) s := ⟨hr, h⟩

theorem askThen {r : Request} {f : Reply r → Control β} (hr : P s r)
    (h : ∀ x s', E r s (some x) s' → Meets E P S (f x) s') :
    Meets E P S (Program.request (I := interface) r >>= f) s := ⟨hr, h⟩

theorem bind (hp : Meets E P (fun s a => Meets E P S (f a) s) p s) : Meets E P S (p >>= f) s := by
  induction p generalizing s with
  | done a => exact hp
  | ask r next ih => exact ⟨hp.1, fun x s' hx => ih x (hp.2 x s' hx)⟩
  | askBy d r next ih => exact ⟨hp.1, fun x s' hx => ih x (hp.2 x s' hx)⟩

theorem mono (h : Meets E P Q p s) (hP : ∀ s r, P s r → P' s r) (hQ : ∀ s a, Q s a → Q' s a) :
    Meets E P' Q' p s := by
  induction p generalizing s with
  | done a => exact hQ s a h
  | ask r next ih => exact ⟨hP s r h.1, fun x s' hx => ih x (h.2 x s' hx)⟩
  | askBy d r next ih => exact ⟨hP s r h.1, fun x s' hx => ih x (h.2 x s' hx)⟩

theorem weaken (h : Meets E P Q p s) (hQ : ∀ s a, Q s a → Q' s a) : Meets E P Q' p s :=
  h.mono (fun _ _ hr => hr) hQ

theorem bindThen (hp : Meets E P Q p s) (hf : ∀ s a, Q s a → Meets E P S (f a) s) :
    Meets E P S (p >>= f) s := bind (hp.weaken hf)

theorem and (h : Meets E P Q p s) (h' : Meets E P' Q' p s) :
    Meets E (fun s r => P s r ∧ P' s r) (fun s a => Q s a ∧ Q' s a) p s := by
  induction p generalizing s with
  | done a => exact ⟨h, h'⟩
  | ask r next ih => exact ⟨⟨h.1, h'.1⟩, fun x s' hx => ih x (h.2 x s' hx) (h'.2 x s' hx)⟩
  | askBy d r next ih => exact ⟨⟨h.1, h'.1⟩, fun x s' hx => ih x (h.2 x s' hx) (h'.2 x s' hx)⟩

/-- A state in which nothing more can be answered, and as much is allowed. -/
theorem transfer (h : Meets E P Q p s) (hP : ∀ r, P s r → P s' r) (hQ : ∀ a, Q s a → Q s' a)
    (hE : ∀ r x s'', E r s' x s'' → E r s x s'') : Meets E P Q p s' := by
  cases p with
  | done a => exact hQ a h
  | ask r next => exact ⟨hP r h.1, fun x s'' hx => h.2 x s'' (hE r _ s'' hx)⟩
  | askBy d r next => exact ⟨hP r h.1, fun x s'' hx => h.2 x s'' (hE r x s'' hx)⟩

theorem locked (hlock : P s .lock)
    (h : ∀ s', E .lock s (some ()) s' → Meets E P
      (fun s a => P s .unlock ∧ ∀ s', E .unlock s (some ()) s' → Q s' a) p s') :
    Meets E P Q (Control.locked p) s := by
  refine askThen hlock fun x s' hx => bindThen (h s' hx) fun s a ha => ?_
  exact ⟨ha.1, fun _ s' hx => ha.2 s' hx⟩

/-- Under a deadline a program does the same, or it is cut off after a request that it gave up. -/
theorem bounded_late {N : σ → Prop} (h : Meets E P Q p s) (hunlock : ∀ s, N s → P s .unlock)
    (hlate : ∀ r s s', P s r → E r s none s' → N s')
    (hmore : ∀ s x s', N s → E .unlock s x s' → N s') (deadline : Nat) (held : Bool) :
    Meets E P (fun s o => (∀ a, o = some a → Q s a) ∧ (o = none → N s))
      (Control.bounded deadline held p) s := by
  have hcut : ∀ held s, N s → Meets E P (fun s (o : Option α) =>
      (∀ a, o = some a → Q s a) ∧ (o = none → N s)) (Control.cutOff held) s := by
    intro held s hs
    cases held
    · exact ⟨nofun, fun _ => hs⟩
    · exact ⟨hunlock s hs, fun x s' hx => ⟨nofun, fun _ => hmore s _ s' hs hx⟩⟩
  induction p generalizing s held with
  | done a =>
    refine ⟨fun b hb => ?_, nofun⟩
    cases hb
    exact h
  | ask r next ih =>
    rw [Control.bounded]
    refine ⟨h.1, fun x s' hx => ?_⟩
    cases x with
    | none => exact hcut _ _ (hlate r s s' h.1 hx)
    | some x => exact ih x (h.2 x s' hx) _
  | askBy d r next ih =>
    rw [Control.bounded]
    split
    · refine ⟨h.1, fun x s' hx => ?_⟩
      cases x with
      | none => exact ih none (h.2 none s' hx) _
      | some x => exact ih (some x) (h.2 (some x) s' hx) _
    · refine ⟨h.1, fun x s' hx => ?_⟩
      cases x with
      | none => exact hcut _ _ (hlate r s s' h.1 hx)
      | some x => exact ih (some x) (h.2 (some x) s' hx) _

theorem bounded (h : Meets E P Q p s) (hunlock : ∀ s, P s .unlock) (deadline : Nat)
    (held : Bool) :
    Meets E P (fun s o => ∀ a, o = some a → Q s a) (Control.bounded deadline held p) s :=
  (h.bounded_late (N := fun _ => True) (fun s _ => hunlock s) (fun _ _ _ _ _ => trivial)
    (fun _ _ _ _ _ => trivial) deadline held).weaken fun _ _ ho => ho.1

theorem within (hnow : P s .now) (h : ∀ x s', E .now s (some x) s' → Meets E P Q p s')
    (hunlock : ∀ s, P s .unlock) (limit : Nat) :
    Meets E P (fun s o => ∀ a, o = some a → Q s a) (Control.within limit p) s :=
  ⟨hnow, fun x s' hx => (h x s' hx).bounded hunlock _ _⟩

/-! ### Contracts in a run -/

theorem asks {r : Request} {x : Option (Reply r)} (h : Meets E P Q p s) (ht : Takes p r x q) :
    P s r := by
  cases ht with
  | ask r next x => exact h.1
  | inTime deadline r next x => exact h.1
  | late deadline r next => exact h.1

theorem takes {r : Request} {x : Option (Reply r)} (h : Meets E P Q p s) (ht : Takes p r x q)
    (hx : E r s x s') : Meets E P Q q s' := by
  cases ht with
  | ask r next x => exact h.2 x s' hx
  | inTime deadline r next x => exact h.2 (some x) s' hx
  | late deadline r next => exact h.2 none s' hx

theorem ends {t : List Exchange} {a : α} (h : Meets E P Q p s) (he : Ends E p s t a s') :
    Q s' a := by
  induction he with
  | done a s => exact h
  | ask answer rest ih => exact ih (h.2 _ _ answer)
  | askBy answer rest ih => exact ih (h.2 _ _ answer)

theorem requests {R : Request → Prop} {t : List Exchange} {a : α}
    (h : Meets E (fun _ r => R r) Q p s)
    (he : Ends E p s t a s') : ∀ x ∈ t, R x.request := by
  induction he with
  | done a s => simp
  | ask answer rest ih => exact List.forall_mem_cons.2 ⟨h.1, ih (h.2 _ _ answer)⟩
  | askBy answer rest ih => exact List.forall_mem_cons.2 ⟨h.1, ih (h.2 _ _ answer)⟩

end Meets

/-! ### Contracts about requests alone -/

def Only {α : Type} (R : Request → Prop) : Control α → Prop
  | .done _ => True
  | .ask r next => R r ∧ ∀ x, Only R (next x)
  | .askBy _ r next => R r ∧ ∀ x, Only R (next x)

/-- Surroundings in which any answer may come. -/
def anything : Surroundings Unit := fun _ _ _ _ => True

namespace Only

variable {α β : Type} {R R' : Request → Prop} {p : Control α} {f : α → Control β}

theorem iff_meets : Only R p ↔ Meets anything (fun _ r => R r) (fun _ _ => True) p () := by
  induction p with
  | done a => exact Iff.rfl
  | ask r next ih => exact and_congr_right fun _ => ⟨fun h x _ _ => (ih x).1 (h x),
      fun h x => (ih x).2 (h x () trivial)⟩
  | askBy d r next ih => exact and_congr_right fun _ => ⟨fun h x _ _ => (ih x).1 (h x),
      fun h x => (ih x).2 (h x () trivial)⟩

theorem done (a : α) : Only R (.done a) := trivial

theorem ask {r : Request} (h : R r) : Only R (Program.request (I := interface) r) :=
  ⟨h, fun _ => trivial⟩

theorem askThen {r : Request} {f : Reply r → Control β} (h : R r) (hf : ∀ x, Only R (f x)) :
    Only R (Program.request (I := interface) r >>= f) := ⟨h, hf⟩

theorem bind (hp : Only R p) (hf : ∀ a, Only R (f a)) : Only R (p >>= f) :=
  iff_meets.2 ((iff_meets.1 hp).bindThen fun _ a _ => iff_meets.1 (hf a))

theorem mono (h : Only R p) (hR : ∀ r, R r → R' r) : Only R' p :=
  iff_meets.2 ((iff_meets.1 h).mono (fun _ => hR) fun _ _ h => h)

theorem any (p : Control α) : Only (fun _ => True) p := by
  induction p with
  | done a => trivial
  | ask r next ih => exact ⟨trivial, ih⟩
  | askBy d r next ih => exact ⟨trivial, ih⟩

theorem bounded (h : Only R p) (hunlock : R .unlock) (deadline : Nat) (held : Bool) :
    Only R (Control.bounded deadline held p) :=
  iff_meets.2 (((iff_meets.1 h).bounded (fun _ => hunlock) deadline held).weaken
    fun _ _ _ => trivial)

theorem within (h : Only R p) (hnow : R .now) (hunlock : R .unlock) (limit : Nat) :
    Only R (Control.within limit p) :=
  ⟨hnow, fun _ => h.bounded hunlock _ _⟩

theorem locked (h : Only R p) (hlock : R .lock) (hunlock : R .unlock) :
    Only R (Control.locked p) :=
  ⟨hlock, fun _ => h.bind fun _ => ⟨hunlock, fun _ => trivial⟩⟩

end Only

/-- What every request of a program preserves holds to its end. -/
theorem Meets.of_only {σ α : Type} {E : Surroundings σ} {R : Request → Prop}
    {P : σ → Request → Prop} {p : Control α} {s : σ} {I : σ → Prop} (h : Only R p)
    (hI : ∀ r s x s', R r → I s → E r s x s' → I s')
    (hP : ∀ s r, I s → R r → P s r) (hs : I s) : Meets E P (fun s _ => I s) p s := by
  induction p generalizing s with
  | done a => exact hs
  | ask r next ih => exact ⟨hP s r hs h.1, fun x s' hx => ih x (h.2 x) (hI r s _ s' h.1 hs hx)⟩
  | askBy d r next ih => exact ⟨hP s r hs h.1, fun x s' hx => ih x (h.2 x) (hI r s _ s' h.1 hs hx)⟩

end PodRoutes
