import PodRoutes.Control.Deadline
import PodRoutes.Proofs.Interleaving.Crew
import PodRoutes.Proofs.World.Effect

/-!
# The lock

A program is guarded when it asks for creates and deletes only while it holds the lock, asks for the
lock only while it does not, and returns it. In a crew of guarded programs only the holder of the
lock changes the route table (`Orderly.step`), so while a program holds the lock the table stays as
its own last answer left it (`Orderly.table_of_holder`).
-/

namespace PodRoutes

open Control

/-! ### Guarded programs -/

/-- What a program may ask for while it holds the lock or does not. Patches leave names alone. -/
def Allowed (held : Bool) : Request → Prop
  | .createRoute _ _ => held = true
  | .deleteRoute _ => held = true
  | .lock => held = false
  | .unlock => held = true
  | .patchNode _ edit _ => edit.KeepsNames
  | _ => True

/-- A program that holds the lock or does not asks only for what it may, and at its end the lock is
held or not. -/
def Guarded {α : Type} (after : Bool) : Control α → Bool → Prop
  | .done _, held => held = after
  | .ask r next, held => Allowed held r ∧ ∀ x, Guarded after (next x) (holdsAfter held r)
  | .askBy _ r next, held =>
    Allowed held r ∧ (∀ x, Guarded after (next (some x)) (holdsAfter held r)) ∧
      Guarded after (next none) held

namespace Guarded

variable {α β : Type} {held after final : Bool} {p : Control α} {f : α → Control β}

theorem done (a : α) (held : Bool) : Guarded held (.done a) held := rfl

theorem ask {r : Request} (h : Allowed held r) (hafter : holdsAfter held r = after) :
    Guarded after (Program.request (I := interface) r) held := ⟨h, fun _ => hafter⟩

theorem askThen {r : Request} {f : Reply r → Control β} (h : Allowed held r)
    (hf : ∀ x, Guarded final (f x) (holdsAfter held r)) :
    Guarded final (Program.request (I := interface) r >>= f) held := ⟨h, hf⟩

theorem bind (hp : Guarded after p held) (hf : ∀ a, Guarded final (f a) after) :
    Guarded final (p >>= f) held := by
  induction p generalizing held with
  | done a =>
    obtain rfl : held = after := hp
    exact hf a
  | ask r next ih => exact ⟨hp.1, fun x => ih x (hp.2 x)⟩
  | askBy d r next ih =>
    exact ⟨hp.1, fun x => ih (some x) (hp.2.1 x), ih none hp.2.2⟩

theorem cutOff (held : Bool) : Guarded false (Control.cutOff held : Control (Option α)) held := by
  cases held
  · exact done none false
  · exact ⟨rfl, fun _ => rfl⟩

theorem bounded (deadline : Nat) (h : Guarded false p held) :
    Guarded false (Control.bounded deadline held p) held := by
  induction p generalizing held with
  | done a => exact h
  | ask r next ih =>
    rw [Control.bounded]
    exact ⟨h.1, fun x => ih x (h.2 x), cutOff held⟩
  | askBy d r next ih =>
    rw [Control.bounded]
    split
    · exact ⟨h.1, fun x => ih (some x) (h.2.1 x), ih none h.2.2⟩
    · exact ⟨h.1, fun x => ih (some x) (h.2.1 x), cutOff held⟩

theorem within (limit : Nat) (h : Guarded false p false) :
    Guarded false (Control.within limit p) false :=
  ⟨trivial, fun _ => h.bounded _⟩

theorem locked (h : Guarded true p true) : Guarded false (Control.locked p) false :=
  ⟨rfl, fun _ => h.bind fun _ => ⟨rfl, fun _ => rfl⟩⟩

end Guarded

def heldAfter (held : Bool) (r : Request) : Option (Reply r) → Bool
  | some _ => holdsAfter held r
  | none => held

theorem Guarded.takes {α : Type} {after held : Bool} {p q : Control α} {r : Request}
    {x : Option (Reply r)} (h : Guarded after p held) (ht : Takes p r x q) :
    Allowed held r ∧ Guarded after q (heldAfter held r x) := by
  cases ht with
  | ask r next x => exact ⟨h.1, h.2 x⟩
  | inTime deadline r next x => exact ⟨h.1, h.2.1 x⟩
  | late deadline r next => exact ⟨h.1, h.2.2⟩

theorem Allowed.keepsNames {held : Bool} {r : Request} (h : Allowed held r) :
    ∀ name edit scope, r = .patchNode name edit scope → edit.KeepsNames := by
  rintro name edit scope rfl
  exact h

theorem Allowed.isWrite_eq_false {r : Request} (h : Allowed false r) : r.isWrite = false := by
  cases r with
  | createRoute i c => cases h
  | deleteRoute c => cases h
  | _ => rfl

theorem holdsAfter_of_ne {r : Request} (held : Bool) (hlock : r ≠ .lock) (hunlock : r ≠ .unlock) :
    holdsAfter held r = held := by
  cases r with
  | lock => exact absurd rfl hlock
  | unlock => exact absurd rfl hunlock
  | _ => rfl

theorem World.Drifts.keeps_keyed {v w : World} (h : v.Drifts w) (hv : v.Keyed) : w.Keyed :=
  ⟨h.gateway ▸ hv.routes, h.keyed hv.nodes⟩

theorem Answer.Honest.keyed {a : Answer} (h : a.Honest) (hk : a.before.Keyed)
    (hnames : ∀ name edit scope, a.request = .patchNode name edit scope → edit.KeepsNames) :
    a.after.Keyed := by
  rcases h.after_eq with hafter | hafter
  · rw [hafter]
    exact hk
  · rw [hafter]
    exact hk.effect hnames

theorem Answer.Honest.table {a : Answer} (h : a.Honest) (hr : a.request.isWrite = false) :
    a.after.gateway.table = a.before.gateway.table := by
  rcases h.after_eq with hafter | hafter
  · rw [hafter]
  · rw [hafter]
    exact World.table_effect hr

theorem Answer.Honest.create_eq {i c : String} {x : Outcome (Option Route)} {v w : World}
    (h : Honest ⟨.createRoute i c, some x, v, w⟩) :
    (v.gateway.create i c).1 = x ∧ (v.gateway.create i c).2 = w.gateway := by
  have heffect : v.effect (.createRoute i c) = (x, w) := h
  exact ⟨congrArg Prod.fst heffect,
    congrArg (fun s : Reply (.createRoute i c) × World => s.2.gateway) heffect⟩

/-! ### Orderly crews -/

namespace Crew

variable {ι α : Type} [DecidableEq ι] {c d : Crew ι α} {h : List (Moment ι)} {m : Moment ι} {i : ι}

def holds (c : Crew ι α) (i : ι) : Bool := decide (c.holder = some i)

theorem holds_iff : c.holds i = true ↔ c.holder = some i := decide_eq_true_iff

theorem holds_of_holder {j : ι} (h : c.holder = some i) : c.holds j = decide (i = j) := by
  simp [holds, h]

theorem holds_of_free (h : c.holder = none) (i : ι) : c.holds i = false := by
  simp [holds, h]

/-- Every program is guarded, given who holds the lock, and the world is keyed. -/
structure Orderly (c : Crew ι α) : Prop where
  guarded : ∀ i, Guarded false (c.left i) (c.holds i)
  keyed : c.world.Keyed

theorem Step.holds_self {a : Answer} (h : Step c (.act i a) d) :
    d.holds i = heldAfter (c.holds i) a.request a.reply := by
  cases h with
  | answer takes notLock notUnlock effect => exact (holdsAfter_of_ne _ notLock notUnlock).symm
  | unlock takes => exact holds_of_free rfl i
  | giveUp takes notUnlock => rfl
  | grant free first takes => exact decide_eq_true rfl

theorem Step.holds_of_ne {a : Answer} {j : ι} (h : Step c (.act i a) d)
    (hg : Guarded false (c.left i) (c.holds i)) (hj : j ≠ i) : d.holds j = c.holds j := by
  have hij : ¬i = j := fun e => hj e.symm
  cases h with
  | answer takes notLock notUnlock effect => rfl
  | unlock takes =>
    have hheld : c.holds i = true := (hg.takes takes).1
    rw [holds_of_holder (holds_iff.1 hheld), holds_of_free rfl, decide_eq_false hij]
  | giveUp takes notUnlock => rfl
  | grant free first takes =>
    rw [holds_of_holder rfl, holds_of_free free, decide_eq_false hij]

theorem Step.holds_of_drift {v w : World} (h : Step c (.drift v w) d) (i : ι) :
    d.holds i = c.holds i := by
  cases h <;> rfl

theorem Step.drifts {v w : World} (h : Step c (.drift v w) d) : v.Drifts w := by
  cases h with
  | stand takes new => exact ⟨rfl, rfl, rfl, id⟩
  | drift drifts => exact drifts

theorem Orderly.step (hc : c.Orderly) (h : Step c m d) : d.Orderly := by
  obtain ⟨hg, hk⟩ := hc
  have hbefore := h.before_eq
  have hafter := h.after_eq
  cases m with
  | act i a =>
    obtain ⟨hallowed, hp⟩ := (hg i).takes h.takes
    constructor
    · intro j
      by_cases hj : j = i
      · subst hj
        rw [h.holds_self]
        exact hp
      · rw [h.left_of_ne hj, h.holds_of_ne (hg i) hj]
        exact hg j
    · rw [← hbefore] at hk
      rw [← hafter]
      exact h.honest.keyed hk hallowed.keepsNames
  | drift v w =>
    constructor
    · intro j
      rw [h.left_of_drift, h.holds_of_drift]
      exact hg j
    · rw [← hbefore] at hk
      rw [← hafter]
      exact h.drifts.keeps_keyed hk

theorem Run.orderly (hr : Run c h d) (hc : c.Orderly) : d.Orderly :=
  hr.invariant (fun _ _ _ hi hs => hi.step hs) hc

theorem Orderly.table_step {a : Answer} (hc : c.Orderly) (h : Step c (.act i a) d)
    (hi : c.holds i = false) : d.world.gateway.table = c.world.gateway.table := by
  have hallowed := ((hc.guarded i).takes h.takes).1
  rw [hi] at hallowed
  have htable := h.honest.table hallowed.isWrite_eq_false
  rw [← h.before_eq, ← h.after_eq]
  exact htable

end Crew

/-! ### What a program sees of the table -/

def heldBy (t : List Answer) : Bool :=
  t.foldl (fun held a => heldAfter held a.request a.reply) false

theorem heldBy_snoc (t : List Answer) (a : Answer) :
    heldBy (t ++ [a]) = heldAfter (heldBy t) a.request a.reply := by
  simp [heldBy]

namespace Crew

variable {ι α : Type} [DecidableEq ι] {c d : Crew ι α} {h : List (Moment ι)} {m : Moment ι} {i : ι}

theorem own_snoc_act (i : ι) (h : List (Moment ι)) (a : Answer) :
    own i (h ++ [.act i a]) = own i h ++ [a] := by
  simp [own]

theorem own_snoc_act_of_ne {i j : ι} (hj : j ≠ i) (h : List (Moment ι)) (a : Answer) :
    own i (h ++ [.act j a]) = own i h := by
  simp [own, hj]

theorem own_snoc_drift (i : ι) (h : List (Moment ι)) (v w : World) :
    own i (h ++ [.drift v w]) = own i h := by
  simp [own]

theorem Run.holds_eq (hr : Run c h d) (hc : c.Orderly) (hfree : c.holder = none) (i : ι) :
    d.holds i = heldBy (own i h) := by
  induction hr with
  | nil => exact holds_of_free hfree i
  | @snoc d e h m run step ih =>
    have hd := run.orderly hc
    cases m with
    | act j a =>
      by_cases hj : i = j
      · subst hj
        rw [step.holds_self, ih, own_snoc_act, heldBy_snoc]
      · rw [step.holds_of_ne (hd.guarded j) hj, ih, own_snoc_act_of_ne fun e => hj e.symm]
    | drift v w => rw [step.holds_of_drift, ih, own_snoc_drift]

/-- While a program holds the lock, the table is as its own last answer left it. -/
theorem Run.table_of_holds (hr : Run c h d) (hc : c.Orderly) (hfree : c.holder = none)
    (hi : d.holds i = true) :
    ∃ a, (own i h).getLast? = some a ∧ a.after.gateway.table = d.world.gateway.table := by
  induction hr with
  | nil =>
    rw [holds_of_free hfree] at hi
    cases hi
  | @snoc d e h m run step ih =>
    have hd := run.orderly hc
    cases m with
    | act j a =>
      by_cases hj : i = j
      · subst hj
        refine ⟨a, by rw [own_snoc_act, List.getLast?_concat], ?_⟩
        exact congrArg (fun w => w.gateway.table) step.after_eq
      · have hne : ¬j = i := fun e => hj e.symm
        rw [step.holds_of_ne (hd.guarded j) hj] at hi
        have hnot : d.holds j = false := by
          rw [holds_of_holder (holds_iff.1 hi), decide_eq_false hj]
        rw [own_snoc_act_of_ne hne, hd.table_step step hnot]
        exact ih hi
    | drift v w =>
      rw [step.holds_of_drift] at hi
      have hgateway := step.drifts.gateway
      rw [← step.before_eq] at ih
      rw [own_snoc_drift, ← step.after_eq]
      show ∃ a : Answer, _ ∧ a.after.gateway.table = w.gateway.table
      rw [hgateway]
      exact ih hi

end Crew

end PodRoutes
