import PodRoutes.Proofs.Interleaving.Lock
import PodRoutes.Proofs.Surroundings.Meets

/-!
# What a program asks, whatever it is answered

`Obeys I P Q p t` says of a program that got the answers `t`: each of its requests comes after
answers for which `P` allows it, and its result after answers for which `Q` allows that. The answers
still to come are honest and `I` holds for them; nothing else is known of them, except that while
the program holds the lock it finds the table as it left it. In a run of a crew every program obeys
its contract (`Crew.Run.obeys`).
-/

namespace PodRoutes

open Control

/-! ### Contracts -/

structure Admits (I : Answer → Prop) (t : List Answer) (a : Answer) : Prop where
  holds : I a
  honest : a.Honest
  table : heldBy t = true →
    ∃ b, t.getLast? = some b ∧ b.after.gateway.table = a.before.gateway.table

/-- Every request and the result come after answers that allow them. -/
def Obeys {α : Type} (I : Answer → Prop) (P : List Answer → Request → Prop)
    (Q : List Answer → α → Prop) : Control α → List Answer → Prop
  | .done a, t => Q t a
  | .ask r next, t => P t r ∧ ∀ x v w, Admits I t ⟨r, some x, v, w⟩ →
    Obeys I P Q (next x) (t ++ [⟨r, some x, v, w⟩])
  | .askBy _ r next, t => P t r ∧ ∀ x v w, Admits I t ⟨r, x, v, w⟩ →
    Obeys I P Q (next x) (t ++ [⟨r, x, v, w⟩])

/-- Surroundings whose state is what was answered so far, and that give the answers admitted. -/
def admitted (I : Answer → Prop) : Surroundings (List Answer) := fun r t x t' =>
  ∃ v w, Admits I t ⟨r, x, v, w⟩ ∧ t' = t ++ [⟨r, x, v, w⟩]

namespace Obeys

variable {α β : Type} {I : Answer → Prop} {P P' : List Answer → Request → Prop}
  {Q Q' : List Answer → α → Prop} {S : List Answer → β → Prop} {R : Request → Prop}
  {p q : Control α} {f : α → Control β} {t : List Answer}

theorem iff_meets : Obeys I P Q p t ↔ Meets (admitted I) P Q p t := by
  induction p generalizing t with
  | done a => exact Iff.rfl
  | ask r next ih =>
    refine and_congr_right fun _ => ⟨fun h x t' hx => ?_, fun h x v w ha => ?_⟩
    · obtain ⟨v, w, ha, rfl⟩ := hx
      exact (ih x).1 (h x v w ha)
    · exact (ih x).2 (h x _ ⟨v, w, ha, rfl⟩)
  | askBy d r next ih =>
    refine and_congr_right fun _ => ⟨fun h x t' hx => ?_, fun h x v w ha => ?_⟩
    · obtain ⟨v, w, ha, rfl⟩ := hx
      exact (ih x).1 (h x v w ha)
    · exact (ih x).2 (h x _ ⟨v, w, ha, rfl⟩)

theorem askThen {r : Request} {f : Reply r → Control β} (hr : P t r)
    (h : ∀ x v w, Admits I t ⟨r, some x, v, w⟩ → Obeys I P S (f x) (t ++ [⟨r, some x, v, w⟩])) :
    Obeys I P S (Program.request (I := interface) r >>= f) t := ⟨hr, h⟩

theorem bind (hp : Obeys I P (fun t a => Obeys I P S (f a) t) p t) :
    Obeys I P S (p >>= f) t :=
  iff_meets.2 ((iff_meets.1 hp).bindThen fun _ _ h => iff_meets.1 h)

theorem mono (h : Obeys I P Q p t) (hP : ∀ t r, P t r → P' t r) (hQ : ∀ t a, Q t a → Q' t a) :
    Obeys I P' Q' p t :=
  iff_meets.2 ((iff_meets.1 h).mono hP hQ)

theorem weaken (h : Obeys I P Q p t) (hQ : ∀ t a, Q t a → Q' t a) : Obeys I P Q' p t :=
  h.mono (fun _ _ hr => hr) hQ

theorem bindThen (hp : Obeys I P Q p t) (hf : ∀ t a, Q t a → Obeys I P S (f a) t) :
    Obeys I P S (p >>= f) t := bind (hp.weaken hf)

theorem and (h : Obeys I P Q p t) (h' : Obeys I P' Q' p t) :
    Obeys I (fun t r => P t r ∧ P' t r) (fun t a => Q t a ∧ Q' t a) p t :=
  iff_meets.2 ((iff_meets.1 h).and (iff_meets.1 h'))

theorem asks {r : Request} {x : Option (Reply r)} (h : Obeys I P Q p t) (ht : Takes p r x q) :
    P t r :=
  (iff_meets.1 h).asks ht

theorem takes {r : Request} {x : Option (Reply r)} {v w : World} (h : Obeys I P Q p t)
    (ht : Takes p r x q) (ha : Admits I t ⟨r, x, v, w⟩) :
    Obeys I P Q q (t ++ [⟨r, x, v, w⟩]) :=
  iff_meets.2 ((iff_meets.1 h).takes ht ⟨v, w, ha, rfl⟩)

theorem of_only (h : Only R p) (hP : ∀ g r, (∀ a ∈ g, R a.request) → R r → P (t ++ g) r) :
    Obeys I P (fun t' _ => ∃ g, t' = t ++ g ∧ ∀ a ∈ g, R a.request) p t := by
  refine iff_meets.2 (Meets.of_only (I := fun t' => ∃ g, t' = t ++ g ∧ ∀ a ∈ g, R a.request) h
    ?_ ?_ ⟨[], by simp⟩)
  · rintro r t₁ x t₂ hr ⟨g, rfl, hg⟩ ⟨v, w, -, rfl⟩
    exact ⟨g ++ [⟨r, x, v, w⟩], List.append_assoc _ _ _, Answer.forall_mem_snoc hg hr⟩
  · rintro t' r ⟨g, rfl, hg⟩ hr
    exact hP g r hg hr

theorem shape (h : Only R p) :
    Obeys I (fun _ _ => True) (fun t' _ => ∃ g, t' = t ++ g ∧ ∀ a ∈ g, R a.request) p t :=
  of_only h fun _ _ _ _ => trivial

theorem locked {Q' : List Answer → α → Prop} (hlock : P t .lock)
    (h : ∀ x v w, Admits I t ⟨.lock, some x, v, w⟩ →
      Obeys I P Q p (t ++ [⟨.lock, some x, v, w⟩]))
    (hunlock : ∀ t a, Q t a → P t .unlock ∧ ∀ b, Q' (t ++ [b]) a) :
    Obeys I P Q' (Control.locked p) t := by
  refine askThen hlock fun x v w ha => ?_
  refine bindThen (h x v w ha) fun t' a hQ => ?_
  obtain ⟨hP, hQ'⟩ := hunlock t' a hQ
  exact ⟨hP, fun _ _ _ _ => hQ' _⟩

/-- Under a deadline a program does the same, or it is cut off after a request that it gave up. -/
theorem bounded {N : List Answer → Prop} (h : Obeys I P Q p t) (hP : ∀ t, P t .unlock)
    (hlate : ∀ t a, I a → a.reply = none → N (t ++ [a])) (hmore : ∀ t a, N t → N (t ++ [a]))
    (deadline : Nat) (held : Bool) :
    Obeys I P (fun t o => match o with
      | some a => Q t a
      | none => N t) (Control.bounded deadline held p) t := by
  refine iff_meets.2 (((iff_meets.1 h).bounded_late (N := N) (fun t _ => hP t) ?_ ?_ deadline
    held).weaken ?_)
  · rintro r t _ - ⟨v, w, ha, rfl⟩
    exact hlate t _ ha.holds rfl
  · rintro t x _ ht ⟨v, w, -, rfl⟩
    exact hmore t _ ht
  · rintro t o ⟨hsome, hnone⟩
    cases o with
    | none => exact hnone rfl
    | some a => exact hsome a rfl

theorem within {N : List Answer → Prop} (hnow : P t .now)
    (h : ∀ x v w, Admits I t ⟨.now, some x, v, w⟩ →
      Obeys I P Q p (t ++ [⟨.now, some x, v, w⟩])) (hP : ∀ t, P t .unlock)
    (hlate : ∀ t a, I a → a.reply = none → N (t ++ [a])) (hmore : ∀ t a, N t → N (t ++ [a]))
    (limit : Nat) :
    Obeys I P (fun t o => match o with
      | some a => Q t a
      | none => N t) (Control.within limit p) t :=
  ⟨hnow, fun x v w ha => (h x v w ha).bounded hP hlate hmore _ _⟩

theorem within_of_any (hnow : P t .now)
    (h : ∀ x v w, Obeys I P Q p (t ++ [⟨.now, some x, v, w⟩])) (hP : ∀ t, P t .unlock)
    (limit : Nat) :
    Obeys I P (fun t o => ∀ a, o = some a → Q t a) (Control.within limit p) t := by
  refine (within (N := fun _ => True) hnow (fun x v w _ => h x v w) hP (fun _ _ _ _ => trivial)
    (fun _ _ _ => trivial) limit).weaken fun t o ho a ha => ?_
  subst ha
  exact ho

/-- A program whose requests are all answered in time is not cut off. -/
theorem within_inTime (hI : ∀ a, I a → a.reply.isSome = true) (hnow : P t .now)
    (h : ∀ x v w, Admits I t ⟨.now, some x, v, w⟩ →
      Obeys I P Q p (t ++ [⟨.now, some x, v, w⟩])) (hP : ∀ t, P t .unlock) (limit : Nat) :
    Obeys I P (fun t o => ∃ a, o = some a ∧ Q t a) (Control.within limit p) t := by
  refine (within (N := fun _ => False) hnow h hP ?_ (fun _ _ h => h) limit).weaken fun t o ho => ?_
  · intro t a ha hnone
    have hsome := hI a ha
    rw [hnone] at hsome
    cases hsome
  · cases o with
    | none => exact ho.elim
    | some a => exact ⟨a, rfl, ho⟩

end Obeys

/-! ### Contracts in a run -/

namespace Crew

variable {ι α : Type} [DecidableEq ι] {I : Answer → Prop} {P : List Answer → Request → Prop}
  {Q : List Answer → α → Prop} {c d : Crew ι α} {h : List (Moment ι)} {i : ι}

theorem Run.admits {a : Answer} {e : Crew ι α} (hr : Run c h d) (hs : Step d (.act i a) e)
    (hc : c.Orderly) (hfree : c.holder = none) (ha : I a) : Admits I (own i h) a := by
  refine ⟨ha, hs.honest, ?_⟩
  intro hheld
  rw [← hr.holds_eq hc hfree] at hheld
  obtain ⟨b, hlast, htable⟩ := hr.table_of_holds hc hfree hheld
  refine ⟨b, hlast, ?_⟩
  rw [htable]
  exact (congrArg (fun w => w.gateway.table) hs.before_eq).symm

theorem Run.obeys (hr : Run c h d) (hc : c.Orderly) (hfree : c.holder = none)
    (hI : ∀ a ∈ own i h, I a) (ho : Obeys I P Q (c.left i) []) :
    Obeys I P Q (d.left i) (own i h) := by
  induction hr with
  | nil => exact ho
  | @snoc d e h m run step ih =>
    rw [own_append] at hI
    have ih := ih fun a ha => hI a (List.mem_append_left _ ha)
    cases m with
    | act j a =>
      by_cases hj : j = i
      · subst hj
        have ha : I a := hI a (by simp [own])
        rw [own_snoc_act]
        exact ih.takes step.takes (run.admits step hc hfree ha)
      · rw [own_snoc_act_of_ne hj, step.left_of_ne fun e => hj e.symm]
        exact ih
    | drift v w =>
      rw [own_snoc_drift, step.left_of_drift]
      exact ih

theorem Run.asks {a : Answer} (hr : Run c (h ++ [.act i a]) d) (hc : c.Orderly)
    (hfree : c.holder = none) (hI : ∀ a ∈ own i h, I a) (ho : Obeys I P Q (c.left i) []) :
    P (own i h) a.request := by
  obtain ⟨e, hrun, hstep⟩ := hr.snoc_inv
  exact (hrun.obeys hc hfree hI ho).asks hstep.takes

theorem Run.result {a : α} (hr : Run c h d) (hc : c.Orderly) (hfree : c.holder = none)
    (hI : ∀ a ∈ own i h, I a) (ho : Obeys I P Q (c.left i) []) (hdone : d.left i = .done a) :
    Q (own i h) a := by
  have h := hr.obeys hc hfree hI ho
  rw [hdone] at h
  exact h

end Crew

end PodRoutes
