import PodRoutes.Proofs.Table.Keyed
import PodRoutes.World.Basic

/-!
# Programs that take turns

A crew is a family of programs over one world with one lock. In a step one program gets the answer
to its next request, or the surroundings change the stored nodes. Nothing is said about who is next
or how long anything takes, so every schedule is a run. The lock is granted in the order in which it
was asked for, and a request with a deadline may be given up at any time unless it returns the lock.
-/

namespace PodRoutes

open Control

/-! ### Answers -/

/-- What a program got for a request, or nothing if it gave the request up, with the worlds before
and after. -/
structure Answer where
  request : Request
  reply : Option (Reply request)
  before : World
  after : World

/-- An answer is the effect of its request, and a request that was given up has none. -/
def Answer.Honest (a : Answer) : Prop :=
  match a.reply with
  | some x => a.before.effect a.request = (x, a.after)
  | none => a.after = a.before

theorem Answer.Honest.after_eq {a : Answer} (h : a.Honest) :
    a.after = a.before ∨ a.after = (a.before.effect a.request).2 := by
  obtain ⟨r, x, v, w⟩ := a
  cases x with
  | none => exact Or.inl h
  | some x =>
    have heffect : v.effect r = (x, w) := h
    exact Or.inr (congrArg Prod.snd heffect).symm

theorem Answer.forall_mem_snoc {S : Answer → Prop} {t : List Answer} {a : Answer}
    (ht : ∀ b ∈ t, S b) (ha : S a) : ∀ b ∈ t ++ [a], S b :=
  List.forall_mem_append.2 ⟨ht, List.forall_mem_singleton.2 ha⟩

inductive Takes {α : Type} : Control α → (r : Request) → Option (Reply r) → Control α → Prop
  | ask (r : Request) (next : Reply r → Control α) (x : Reply r) :
    Takes (.ask r next) r (some x) (next x)
  | inTime (deadline : Nat) (r : Request) (next : Option (Reply r) → Control α) (x : Reply r) :
    Takes (.askBy deadline r next) r (some x) (next (some x))
  | late (deadline : Nat) (r : Request) (next : Option (Reply r) → Control α) :
    Takes (.askBy deadline r next) r none (next none)

/-- What the surroundings may change: the stored nodes, the clock and the records of calls. Nodes
stay stored under their names. -/
structure World.Drifts (v w : World) : Prop where
  gateway : w.gateway = v.gateway
  cache : w.cache = v.cache
  failures : w.store.failures = v.store.failures
  keyed : v.store.nodes.KeyedBy Node.name → w.store.nodes.KeyedBy Node.name

/-! ### Crews -/

/-- Programs over one world with one lock. -/
structure Crew (ι α : Type) where
  world : World
  holder : Option ι := none
  /-- The programs that wait for the lock, first the one that asked first. -/
  queue : List ι := []
  left : ι → Control α

inductive Moment (ι : Type) where
  | act (i : ι) (a : Answer)
  | drift (before after : World)

namespace Moment

variable {ι : Type}

def before : Moment ι → World
  | act _ a => a.before
  | drift v _ => v

def after : Moment ι → World
  | act _ a => a.after
  | drift _ w => w

end Moment

def own {ι : Type} [DecidableEq ι] (i : ι) (h : List (Moment ι)) : List Answer :=
  h.filterMap fun
    | .act j a => if j = i then some a else none
    | .drift _ _ => none

namespace Crew

variable {ι α : Type} [DecidableEq ι]

def goOn (c : Crew ι α) (i : ι) (p : Control α) : Crew ι α :=
  { c with left := fun j => if j = i then p else c.left j }

inductive Step : Crew ι α → Moment ι → Crew ι α → Prop
  | answer {c : Crew ι α} {i : ι} {r : Request} {x : Reply r} {p : Control α} {w : World}
      (takes : Takes (c.left i) r (some x) p) (notLock : r ≠ .lock) (notUnlock : r ≠ .unlock)
      (effect : c.world.effect r = (x, w)) :
    Step c (.act i ⟨r, some x, c.world, w⟩) { c.goOn i p with world := w }
  | unlock {c : Crew ι α} {i : ι} {p : Control α} (takes : Takes (c.left i) .unlock (some ()) p) :
    Step c (.act i ⟨.unlock, some (), c.world, c.world⟩) { c.goOn i p with holder := none }
  | giveUp {c : Crew ι α} {i : ι} {r : Request} {p : Control α} (takes : Takes (c.left i) r none p)
      (notUnlock : r ≠ .unlock) :
    Step c (.act i ⟨r, none, c.world, c.world⟩) { c.goOn i p with queue := c.queue.erase i }
  | stand {c : Crew ι α} {i : ι} {p : Control α} (takes : Takes (c.left i) .lock (some ()) p)
      (new : i ∉ c.queue) :
    Step c (.drift c.world c.world) { c with queue := c.queue ++ [i] }
  | grant {c : Crew ι α} {i : ι} {rest : List ι} {p : Control α} (free : c.holder = none)
      (first : c.queue = i :: rest) (takes : Takes (c.left i) .lock (some ()) p) :
    Step c (.act i ⟨.lock, some (), c.world, c.world⟩)
      { c.goOn i p with holder := some i, queue := rest }
  | drift {c : Crew ι α} {w : World} (drifts : c.world.Drifts w) :
    Step c (.drift c.world w) { c with world := w }

inductive Run : Crew ι α → List (Moment ι) → Crew ι α → Prop
  | nil (c : Crew ι α) : Run c [] c
  | snoc {c d e : Crew ι α} {h : List (Moment ι)} {m : Moment ι} (run : Run c h d)
      (step : Step d m e) : Run c (h ++ [m]) e

variable {c d e : Crew ι α} {h g : List (Moment ι)} {m : Moment ι} {i : ι}

/-! ### Steps -/

theorem Step.before_eq (h : Step c m d) : m.before = c.world := by
  cases h <;> rfl

theorem Step.after_eq (h : Step c m d) : m.after = d.world := by
  cases h <;> rfl

theorem Step.honest {a : Answer} (h : Step c (.act i a) d) : a.Honest := by
  cases h with
  | answer takes notLock notUnlock effect => exact effect
  | unlock takes => rfl
  | giveUp takes notUnlock => rfl
  | grant free first takes => rfl

theorem Step.takes {a : Answer} (h : Step c (.act i a) d) :
    Takes (c.left i) a.request a.reply (d.left i) := by
  cases h with
  | answer takes notLock notUnlock effect => simpa [goOn] using takes
  | unlock takes => simpa [goOn] using takes
  | giveUp takes notUnlock => simpa [goOn] using takes
  | grant free first takes => simpa [goOn] using takes

theorem Step.left_of_ne {a : Answer} {j : ι} (h : Step c (.act i a) d) (hj : j ≠ i) :
    d.left j = c.left j := by
  cases h <;> simp [goOn, hj]

theorem Step.left_of_drift {v w : World} (h : Step c (.drift v w) d) : d.left = c.left := by
  cases h <;> rfl

/-! ### Runs -/

theorem Run.single (h : Step c m d) : Run c [m] d := (Run.nil c).snoc h

theorem Run.append (h₁ : Run c h d) (h₂ : Run d g e) : Run c (h ++ g) e := by
  induction h₂ with
  | nil => simpa using h₁
  | snoc run step ih =>
    rw [← List.append_assoc]
    exact ih.snoc step

theorem Run.snoc_inv (hr : Run c (h ++ [m]) e) : ∃ d, Run c h d ∧ Step d m e := by
  generalize hg : h ++ [m] = g at hr
  cases hr with
  | nil => simp at hg
  | snoc run step =>
    obtain ⟨rfl, hm⟩ := List.append_inj' hg rfl
    obtain rfl : m = _ := by simpa using hm
    exact ⟨_, run, step⟩

theorem Run.split (hr : Run c (h ++ g) e) : ∃ d, Run c h d ∧ Run d g e := by
  generalize hk : h ++ g = k at hr
  induction hr generalizing h g with
  | nil =>
    obtain ⟨rfl, rfl⟩ := List.append_eq_nil_iff.1 hk
    exact ⟨c, Run.nil c, Run.nil c⟩
  | snoc run step ih =>
    rcases List.eq_nil_or_concat g with rfl | ⟨g', m', rfl⟩
    · rw [List.append_nil] at hk
      subst hk
      exact ⟨_, run.snoc step, Run.nil _⟩
    · rw [List.concat_eq_append, ← List.append_assoc] at hk
      obtain ⟨hinit, hlast⟩ := List.append_inj' hk rfl
      obtain ⟨d, h₁, h₂⟩ := ih hinit
      obtain rfl : m' = _ := by simpa using hlast
      rw [List.concat_eq_append]
      exact ⟨d, h₁, h₂.snoc step⟩

theorem Run.invariant {I : Crew ι α → Prop} (hstep : ∀ c m d, I c → Step c m d → I d)
    (hc : I c) (hr : Run c h d) : I d := by
  induction hr with
  | nil => exact hc
  | snoc run step ih => exact hstep _ _ _ ih step

theorem Run.single_inv (hr : Run c [m] d) : Step c m d := by
  obtain ⟨e, hrun, hstep⟩ := Run.snoc_inv (h := []) hr
  generalize hg : ([] : List (Moment ι)) = g at hrun
  cases hrun with
  | nil => exact hstep
  | snoc run step => simp at hg

theorem Run.split_at (hr : Run c (h ++ m :: g) e) :
    ∃ d d', Run c h d ∧ Step d m d' ∧ Run d' g e := by
  obtain ⟨d, h₁, h₂⟩ := hr.split
  rw [← List.singleton_append] at h₂
  obtain ⟨d', hm, h₃⟩ := h₂.split
  exact ⟨d, d', h₁, hm.single_inv, h₃⟩

theorem mem_own {a : Answer} : a ∈ own i h ↔ Moment.act i a ∈ h := by
  rw [own, List.mem_filterMap]
  constructor
  · rintro ⟨m, hm, ha⟩
    cases m with
    | drift v w => cases ha
    | act j b =>
      by_cases hj : j = i
      · subst hj
        obtain rfl : b = a := by simpa using ha
        exact hm
      · simp [hj] at ha
  · intro hm
    exact ⟨.act i a, hm, by simp⟩

@[simp] theorem own_append (i : ι) (h g : List (Moment ι)) : own i (h ++ g) = own i h ++ own i g :=
  List.filterMap_append

end Crew

end PodRoutes
