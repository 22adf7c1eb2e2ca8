import Mathlib.Data.List.Basic
import Mathlib.Data.List.Nodup
import PodRoutes.Proofs.Interleaving.Engine
import PodRoutes.World.Schedule

/-!
# The scheduler as a crew

The scheduler is one way for a crew to go on: it picks the first task that can run, lets latencies
pass and gives a request up at its deadline. Each of its steps is a few steps of the crew
(`Matches.step`), so what holds in every run of a crew holds for what the scheduler does.
-/

namespace PodRoutes

open Control

/-! ### Changes of the clock and the records -/

theorem World.drifts_begin (w : World) (r : Request) : w.Drifts (w.begin r) := by
  cases r <;> exact ⟨rfl, rfl, rfl, id⟩

theorem World.drifts_advanceTo (w : World) (time : Nat) : w.Drifts (w.advanceTo time) :=
  ⟨rfl, rfl, rfl, id⟩

/-! ### Tasks -/

namespace Task

variable {α : Type}

def isQueued : Task α → Bool
  | .queued _ _ => true
  | _ => false

inductive Carries : Task α → Control α → Prop
  | ready (p : Control α) : Carries (.ready p) p
  | finished (a : α) : Carries (.finished a) (.done a)
  | effect {wake : Nat} {r : Request} {next : Reply r → Control α} {p : Control α}
      (takes : ∀ x, Takes p r (some x) (next x)) (notLock : r ≠ .lock) (notUnlock : r ≠ .unlock) :
      Carries (.waiting wake fun w => (next (w.effect r).1, (w.effect r).2)) p
  | late {wake : Nat} {r : Request} {p q : Control α} (takes : Takes p r none q)
      (notUnlock : r ≠ .unlock) : Carries (.waiting wake fun w => (q, w)) p
  | queued {deadline : Option Nat} {resume : Bool → Control α} {p : Control α}
      (granted : Takes p .lock (some ()) (resume true))
      (late : deadline.isSome = true → Takes p .lock none (resume false)) :
      Carries (.queued deadline resume) p

end Task

namespace System

variable {α : Type} {s : System α} {i : Nat}

theorem task_of_nextReady {p : Control α} (h : s.nextReady = some (i, p)) :
    s.tasks[i]? = some (.ready p) := by
  have hmem := List.mem_of_head? h
  rw [List.mem_filterMap] at hmem
  obtain ⟨⟨t, j⟩, hmem, ht⟩ := hmem
  have htask : s.tasks[j]? = some t := List.mem_zipIdx_iff_getElem?.1 hmem
  cases t with
  | ready q =>
    cases ht
    exact htask
  | _ => cases ht

theorem mem_of_foldl_pick {β : Type} {pick : Option β → β → Option β}
    (hpick : ∀ best x, pick best x = some x ∨ pick best x = best) {l : List β} {best : Option β}
    {y : β} (h : l.foldl pick best = some y) : best = some y ∨ y ∈ l := by
  induction l generalizing best with
  | nil => exact Or.inl h
  | cons x rest ih =>
    rcases ih h with hpicked | hrest
    · rcases hpick best x with hx | hbest
      · rw [hx] at hpicked
        cases hpicked
        exact Or.inr List.mem_cons_self
      · rw [hbest] at hpicked
        exact Or.inl hpicked
    · exact Or.inr (List.mem_cons_of_mem x hrest)

theorem task_of_nextWake {time : Nat} (h : s.nextWake = some (time, i)) :
    ∃ t, s.tasks[i]? = some t ∧ (wakeTime t).isSome = true := by
  have hmem := mem_of_foldl_pick (fun best x => by
    cases best with
    | none => exact Or.inl rfl
    | some b =>
      show (if x.1 < b.1 then some x else some b) = some x ∨
        (if x.1 < b.1 then some x else some b) = some b
      split
      · exact Or.inl rfl
      · exact Or.inr rfl) h
  rcases hmem with hnone | hmem
  · cases hnone
  · rw [List.mem_filterMap] at hmem
    obtain ⟨⟨t, j⟩, hmem, ht⟩ := hmem
    obtain ⟨time', htime, he⟩ := Option.map_eq_some_iff.1 ht
    cases he
    exact ⟨t, List.mem_zipIdx_iff_getElem?.1 hmem, by rw [htime]; rfl⟩

/-! ### The simulation -/

variable {ι : Type} {f : Nat → ι} {c d : Crew ι α} {p q : Control α} {t : Task α}

/-- The scheduler's state is a crew whose programs have numbers. -/
structure Matches (f : Nat → ι) (s : System α) (c : Crew ι α) : Prop where
  world : c.world = s.world
  holder : c.holder = s.holder.map f
  queue : c.queue = s.queue.map f
  carries : ∀ (i : Nat) (t : Task α), s.tasks[i]? = some t → t.Carries (c.left (f i))
  queued : ∀ i, i ∈ s.queue ↔ ∃ t, s.tasks[i]? = some t ∧ t.isQueued = true
  nodup : s.queue.Nodup
  idle : s.holder = none → s.queue = []

namespace Matches

theorem not_mem_queue (h : s.Matches f c) (hi : s.tasks[i]? = some t) (ht : t.isQueued = false) :
    i ∉ s.queue := by
  intro hmem
  obtain ⟨t', ht', hqueued⟩ := (h.queued i).1 hmem
  rw [hi] at ht'
  cases ht'
  rw [ht] at hqueued
  cases hqueued

theorem mem_map_queue (hf : Function.Injective f) (h : s.Matches f c) :
    f i ∈ c.queue ↔ i ∈ s.queue := by
  rw [h.queue]
  exact List.mem_map_of_injective hf

theorem queued_set (h : s.Matches f c) (hi : s.tasks[i]? = some t) (ht : t.isQueued = false)
    {t' : Task α} (ht' : t'.isQueued = false) (j : Nat) :
    j ∈ s.queue ↔ ∃ u, (s.tasks.set i t')[j]? = some u ∧ u.isQueued = true := by
  by_cases hj : i = j
  · subst hj
    obtain ⟨hlt, -⟩ := List.getElem?_eq_some_iff.1 hi
    rw [List.getElem?_set_self hlt]
    constructor
    · exact fun hmem => absurd hmem (h.not_mem_queue hi ht)
    · rintro ⟨u, hu, hqueued⟩
      cases hu
      rw [ht'] at hqueued
      cases hqueued
  · rw [List.getElem?_set_ne hj]
    exact h.queued j

theorem atWorld (h : s.Matches f c) (w : World) :
    Matches f { s with world := w } { c with world := w } := by
  obtain ⟨-, hholder, hqueue, hcarries, hqueued, hnodup, hidle⟩ := h
  exact ⟨rfl, hholder, hqueue, hcarries, hqueued, hnodup, hidle⟩

variable [DecidableEq ι]

theorem carries_set {tasks : List (Task α)} (hf : Function.Injective f)
    (h : ∀ (i : Nat) (t : Task α), tasks[i]? = some t → t.Carries (c.left (f i)))
    (ht : t.Carries q) (i j : Nat) (t' : Task α) (ht' : (tasks.set i t)[j]? = some t') :
    t'.Carries ((c.goOn (f i) q).left (f j)) := by
  by_cases hj : i = j
  · subst hj
    have hleft : (c.goOn (f i) q).left (f i) = q := by simp [Crew.goOn]
    obtain ⟨hlt, he⟩ := List.getElem?_eq_some_iff.1 ht'
    rw [List.getElem_set_self] at he
    rw [hleft, ← he]
    exact ht
  · have hne : f j ≠ f i := fun e => hj (hf e).symm
    have hleft : (c.goOn (f i) q).left (f j) = c.left (f j) := by simp [Crew.goOn, hne]
    rw [List.getElem?_set_ne hj] at ht'
    rw [hleft]
    exact h j t' ht'

theorem goOn (hf : Function.Injective f) (h : s.Matches f c) (hi : s.tasks[i]? = some t)
    (ht : t.isQueued = false) {t' : Task α} (ht' : t'.isQueued = false) (hq : t'.Carries q) :
    Matches f (s.set i t') (c.goOn (f i) q) := by
  constructor
  · exact h.world
  · exact h.holder
  · exact h.queue
  · exact carries_set hf h.carries hq i
  · exact h.queued_set hi ht ht'
  · exact h.nodup
  · exact h.idle

theorem goOn_self (c : Crew ι α) (i : ι) : c.goOn i (c.left i) = c := by
  have hleft : (fun j => if j = i then c.left i else c.left j) = c.left := by
    funext j
    by_cases hj : j = i
    · rw [if_pos hj, hj]
    · rw [if_neg hj]
  show { c with left := fun j => if j = i then c.left i else c.left j } = c
  rw [hleft]

theorem stay (hf : Function.Injective f) (h : s.Matches f c) (hi : s.tasks[i]? = some t)
    (ht : t.isQueued = false) {t' : Task α} (ht' : t'.isQueued = false)
    (hq : t'.Carries (c.left (f i))) : Matches f (s.set i t') c := by
  have hgo := h.goOn hf hi ht ht' hq
  rw [goOn_self] at hgo
  exact hgo

theorem queued_erase {tasks : List (Task α)} {queue : List Nat}
    (hqueued : ∀ i, i ∈ queue ↔ ∃ t, tasks[i]? = some t ∧ t.isQueued = true)
    (hnodup : queue.Nodup) {t' : Task α} (ht' : t'.isQueued = false) (i j : Nat) :
    j ∈ queue.erase i ↔ ∃ u, (tasks.set i t')[j]? = some u ∧ u.isQueued = true := by
  rw [hnodup.mem_erase_iff]
  by_cases hj : i = j
  · subst hj
    constructor
    · exact fun hmem => absurd rfl hmem.1
    · rintro ⟨u, hu, hqueued⟩
      obtain ⟨hlt, he⟩ := List.getElem?_eq_some_iff.1 hu
      rw [List.getElem_set_self] at he
      rw [← he, ht'] at hqueued
      cases hqueued
  · rw [List.getElem?_set_ne hj, hqueued j]
    exact ⟨fun hmem => hmem.2, fun hu => ⟨fun e => hj e.symm, hu⟩⟩

/-! ### One step -/

/-- The crew can go on to where the scheduler is. -/
def Follows (f : Nat → ι) (c : Crew ι α) (s : System α) : Prop :=
  ∃ g d, Crew.Run c g d ∧ Matches f s d

theorem Follows.step {m : Moment ι} (hs : Crew.Step c m d) (h : Follows f d s) :
    Follows f c s := by
  obtain ⟨g, e, hrun, hmatches⟩ := h
  exact ⟨[m] ++ g, e, (Crew.Run.single hs).append hrun, hmatches⟩

theorem follows (h : s.Matches f c) : Follows f c s := ⟨[], c, .nil c, h⟩

theorem drift (h : s.Matches f c) {w : World} (hw : s.world.Drifts w) :
    Crew.Step c (.drift c.world w) { c with world := w } ∧
      Matches f { s with world := w } { c with world := w } :=
  ⟨.drift (h.world ▸ hw), h.atWorld w⟩

theorem start (hf : Function.Injective f) (h : s.Matches f c)
    (hi : s.tasks[i]? = some (.ready p)) {r : Request} {next : Reply r → Control α}
    (htakes : ∀ x, Takes (c.left (f i)) r (some x) (next x)) (hlock : r ≠ .lock)
    (hunlock : r ≠ .unlock) : Follows f c (s.start i r next) := by
  obtain ⟨hdrift, hbegun⟩ := h.drift (s.world.drifts_begin r)
  apply Follows.step hdrift
  unfold System.start
  dsimp only
  split
  · refine Follows.step (.answer (htakes _) hlock hunlock rfl) (follows ?_)
    exact (hbegun.goOn hf hi rfl rfl (.ready _)).atWorld _
  · apply follows
    exact hbegun.stay hf hi rfl rfl (.effect htakes hlock hunlock)

theorem startLate (hf : Function.Injective f) (h : s.Matches f c)
    (hi : s.tasks[i]? = some (.ready p)) {r : Request} (htakes : Takes (c.left (f i)) r none q)
    (hunlock : r ≠ .unlock) (deadline : Nat) : Follows f c (s.startLate i deadline r q) := by
  obtain ⟨hdrift, hbegun⟩ := h.drift (s.world.drifts_begin r)
  exact Follows.step hdrift (follows (hbegun.stay hf hi rfl rfl (.late htakes hunlock)))

theorem takeLock (hf : Function.Injective f) (h : s.Matches f c)
    (hi : s.tasks[i]? = some (.ready p)) {resume : Bool → Control α} {deadline : Option Nat}
    (hgranted : Takes (c.left (f i)) .lock (some ()) (resume true))
    (hlate : deadline.isSome = true → Takes (c.left (f i)) .lock none (resume false)) :
    Follows f c (s.takeLock i deadline resume) := by
  have hnew : i ∉ s.queue := h.not_mem_queue hi rfl
  have hnew' : f i ∉ c.queue := fun hmem => hnew ((h.mem_map_queue hf).1 hmem)
  apply Follows.step (.stand hgranted hnew')
  unfold System.takeLock
  split
  · next hfree =>
    have hempty := h.idle hfree
    have hfirst : c.queue ++ [f i] = f i :: [] := by rw [h.queue, hempty]; rfl
    have hholder : c.holder = none := by rw [h.holder, hfree]; rfl
    refine Follows.step (.grant hholder hfirst hgranted) (follows ?_)
    constructor
    · exact h.world
    · rfl
    · show [] = s.queue.map f
      rw [hempty]
      rfl
    · exact carries_set hf h.carries (.ready _) i
    · exact h.queued_set hi rfl rfl
    · exact h.nodup
    · intro hnone
      cases hnone
  · next j hheld =>
    apply follows
    constructor
    · exact h.world
    · exact h.holder
    · show c.queue ++ [f i] = (s.queue ++ [i]).map f
      rw [h.queue, List.map_append]
      rfl
    · have hcarries := carries_set hf h.carries (.queued hgranted hlate) i
      rw [goOn_self] at hcarries
      exact hcarries
    · intro k
      show k ∈ s.queue ++ [i] ↔ ∃ u, (s.tasks.set i (.queued deadline resume))[k]? = some u ∧ _
      obtain ⟨hlt, -⟩ := List.getElem?_eq_some_iff.1 hi
      rw [List.mem_append, List.mem_singleton]
      by_cases hk : i = k
      · subst hk
        rw [List.getElem?_set_self hlt]
        exact ⟨fun _ => ⟨_, rfl, rfl⟩, fun _ => Or.inr rfl⟩
      · rw [List.getElem?_set_ne hk, ← h.queued k]
        exact ⟨fun hmem => hmem.resolve_right fun e => hk e.symm, Or.inl⟩
    · show (s.queue ++ [i]).Nodup
      rw [List.nodup_append]
      refine ⟨h.nodup, List.nodup_singleton i, ?_⟩
      rintro a ha b hb rfl
      exact hnew (List.mem_singleton.1 hb ▸ ha)
    · intro hnone
      rw [show s.holder = none from hnone] at hheld
      cases hheld

theorem passLock (hf : Function.Injective f) (h : s.Matches f c)
    (hi : s.tasks[i]? = some (.ready p)) (hq : Takes (c.left (f i)) .unlock (some ()) q) :
    Follows f c (s.set i (.ready q)).passLock := by
  apply Follows.step (.unlock hq)
  have hcarries := carries_set hf h.carries (.ready q) i
  have hready : (Task.ready q).isQueued = false := rfl
  have hqueued := h.queued_set hi rfl hready
  unfold System.passLock
  split
  · next hempty =>
    apply follows
    constructor
    · exact h.world
    · rfl
    · exact h.queue
    · exact hcarries
    · exact hqueued
    · exact h.nodup
    · exact fun _ => hempty
  · next j rest hfirst =>
    have hfirst : s.queue = j :: rest := hfirst
    obtain ⟨t, ht, hstands⟩ := (hqueued j).1 (by rw [hfirst]; exact List.mem_cons_self)
    have hcarried := hcarries j t ht
    cases t with
    | queued deadline resume =>
      cases hcarried with
      | queued hgranted hlate =>
        have hrest : c.queue = f j :: rest.map f := by rw [h.queue, hfirst]; rfl
        refine Follows.step (.grant rfl hrest hgranted) (follows ?_)
        have htasks : (s.tasks.set i (.ready q)).modify j granted =
            (s.tasks.set i (.ready q)).set j (.ready (resume true)) := by
          rw [List.modify_eq_set_getElem?, ht]
          rfl
        have herase : s.queue.erase j = rest := by rw [hfirst, List.erase_cons_head]
        constructor
        · exact h.world
        · rfl
        · rfl
        · show ∀ k t, ((s.tasks.set i (.ready q)).modify j granted)[k]? = some t → _
          rw [htasks]
          exact carries_set (c := c.goOn (f i) q) hf hcarries (.ready _) j
        · intro k
          show k ∈ rest ↔ ∃ u, ((s.tasks.set i (.ready q)).modify j granted)[k]? = some u ∧ _
          rw [htasks, ← herase]
          exact queued_erase hqueued h.nodup rfl j k
        · show rest.Nodup
          rw [← herase]
          exact h.nodup.erase j
        · intro hnone
          cases hnone
    | _ => cases hstands

theorem wake (hf : Function.Injective f) (h : s.Matches f c) (hi : s.tasks[i]? = some t)
    (ht : (wakeTime t).isSome = true) : Follows f c (s.wake i) := by
  have hcarried := h.carries i t hi
  generalize hleft : c.left (f i) = p at hcarried
  unfold System.wake
  rw [hi]
  cases hcarried with
  | ready p => cases ht
  | finished a => cases ht
  | effect htakes hlock hunlock =>
    rw [← hleft] at htakes
    refine Follows.step (.answer (htakes _) hlock hunlock rfl) (follows ?_)
    rw [h.world]
    exact (h.goOn hf hi rfl rfl (.ready _)).atWorld _
  | late htakes hunlock =>
    rw [← hleft] at htakes
    have hnew : f i ∉ c.queue := fun hmem =>
      h.not_mem_queue hi rfl ((h.mem_map_queue hf).1 hmem)
    refine Follows.step (.giveUp htakes hunlock) (follows ?_)
    rw [List.erase_of_not_mem hnew]
    exact h.goOn hf hi rfl rfl (.ready _)
  | queued hgranted hlate =>
    rw [← hleft] at hgranted hlate
    refine Follows.step (.giveUp (hlate ht) (by simp)) (follows ?_)
    constructor
    · exact h.world
    · exact h.holder
    · show c.queue.erase (f i) = (s.queue.erase i).map f
      rw [h.queue, List.map_erase hf]
    · exact carries_set hf h.carries (.ready _) i
    · exact queued_erase h.queued h.nodup rfl i
    · exact h.nodup.erase i
    · intro hnone
      have hempty := h.idle hnone
      show s.queue.erase i = []
      rw [hempty]
      rfl

theorem advance_ask {r : Request} (next : Reply r → Control α) (hlock : r ≠ .lock)
    (hunlock : r ≠ .unlock) : s.advance i (.ask r next) = s.start i r next := by
  cases r with
  | lock => exact absurd rfl hlock
  | unlock => exact absurd rfl hunlock
  | _ => rfl

theorem advance_askBy {r : Request} (deadline : Nat) (next : Option (Reply r) → Control α)
    (hlock : r ≠ .lock) (hunlock : r ≠ .unlock) :
    s.advance i (.askBy deadline r next) =
      if s.world.wait r = 0 ∨ s.world.clock + s.world.wait r ≤ deadline then
        s.start i r fun x => next (some x)
      else s.startLate i deadline r (next none) := by
  cases r with
  | lock => exact absurd rfl hlock
  | unlock => exact absurd rfl hunlock
  | _ => rfl

theorem advance (hf : Function.Injective f) (h : s.Matches f c)
    (hi : s.tasks[i]? = some (.ready p)) : Follows f c (s.advance i p) := by
  have hcarried := h.carries i _ hi
  generalize hleft : c.left (f i) = p' at hcarried
  cases hcarried
  cases p with
  | done a =>
    have hfinished : (Task.finished a).Carries (c.left (f i)) := by
      rw [hleft]
      exact .finished a
    exact follows (h.stay hf hi rfl rfl hfinished)
  | ask r next =>
    have htakes : ∀ x, Takes (c.left (f i)) r (some x) (next x) := by
      intro x
      rw [hleft]
      exact Takes.ask r next x
    by_cases hlock : r = .lock
    · subst hlock
      show Follows f c (s.takeLock i none fun _ => next ())
      apply h.takeLock hf hi (htakes ())
      intro hsome
      cases hsome
    · by_cases hunlock : r = .unlock
      · subst hunlock
        exact h.passLock hf hi (htakes ())
      · rw [advance_ask next hlock hunlock]
        exact h.start hf hi htakes hlock hunlock
  | askBy deadline r next =>
    have htakes : ∀ x, Takes (c.left (f i)) r (some x) (next (some x)) := by
      intro x
      rw [hleft]
      exact Takes.inTime deadline r next x
    have hlate : Takes (c.left (f i)) r none (next none) := by
      rw [hleft]
      exact Takes.late deadline r next
    by_cases hlock : r = .lock
    · subst hlock
      unfold System.advance
      exact h.takeLock hf hi (htakes ()) fun _ => hlate
    · by_cases hunlock : r = .unlock
      · subst hunlock
        exact h.passLock hf hi (htakes ())
      · rw [advance_askBy deadline next hlock hunlock]
        split
        · exact h.start hf hi htakes hlock hunlock
        · exact h.startLate hf hi hlate hunlock deadline

/-- A step of the scheduler is some steps of the crew. -/
theorem step (hf : Function.Injective f) (h : s.Matches f c) {s' : System α}
    (hs : s.step = some s') : Follows f c s' := by
  unfold System.step at hs
  split at hs
  · next i p hready =>
    cases hs
    exact h.advance hf (task_of_nextReady hready)
  · split at hs
    · next time i hwake =>
      cases hs
      obtain ⟨t, ht, hwakes⟩ := task_of_nextWake hwake
      obtain ⟨hdrift, hlater⟩ := h.drift (s.world.drifts_advanceTo time)
      exact Follows.step hdrift (hlater.wake hf ht hwakes)
    · cases hs

end Matches

theorem matches_start {programs : List (Control α)} (hholder : c.holder = none)
    (hqueue : c.queue = [])
    (hleft : ∀ (i : Nat) (p : Control α), programs[i]? = some p → c.left (f i) = p) :
    Matches f { world := c.world, tasks := programs.map .ready } c := by
  constructor
  · rfl
  · exact hholder
  · exact hqueue
  · intro i t ht
    obtain ⟨p, hp, rfl⟩ := Option.map_eq_some_iff.1 (List.getElem?_map ▸ ht)
    rw [hleft i p hp]
    exact .ready p
  · intro i
    constructor
    · intro hmem
      cases hmem
    · rintro ⟨t, ht, hqueued⟩
      obtain ⟨p, -, rfl⟩ := Option.map_eq_some_iff.1 (List.getElem?_map ▸ ht)
      cases hqueued
  · exact List.nodup_nil
  · exact fun _ => rfl

theorem follows_steps [DecidableEq ι] (hf : Function.Injective f) (h : s.Matches f c) (n : Nat) :
    Matches.Follows f c (steps n s) := by
  induction n generalizing s c with
  | zero => exact h.follows
  | succ n ih =>
    unfold steps
    split
    · next s' hs =>
      obtain ⟨g, d, hrun, hmatches⟩ := h.step hf hs
      obtain ⟨g', e, hrun', hmatches'⟩ := ih hmatches
      exact ⟨g ++ g', e, hrun.append hrun', hmatches'⟩
    · exact h.follows

end System

def Member.ofNat : Nat → Member
  | 0 => .pass
  | k + 1 => .errand k

theorem Member.ofNat_injective : Function.Injective Member.ofNat := by
  intro i j h
  cases i <;> cases j <;> simp_all [Member.ofNat]

/-- A full pass and attempts that the scheduler runs side by side are a run of the controller. -/
theorem controllerCrew_follows (settings : Settings) (b : Backoff) (errands : Nat → Errand)
    (w : World) (count n : Nat) :
    let programs := (List.range (count + 1)).map fun i =>
      (controllerCrew settings b errands w).left (Member.ofNat i)
    ∃ h d, Crew.Run (controllerCrew settings b errands w) h d ∧
      d.world = (w.runAll n programs).2 ∧
      ∀ (i : Nat) (result : Option (Outcome Unit)),
        (w.runAll n programs).1[i]? = some (some result) →
          d.left (Member.ofNat i) = .done result := by
  intro programs
  have hstart : System.Matches Member.ofNat { world := w, tasks := programs.map .ready }
      (controllerCrew settings b errands w) := by
    have hfree : (controllerCrew settings b errands w).holder = none := rfl
    apply System.matches_start hfree rfl
    intro i p hp
    obtain ⟨j, hj, rfl⟩ := Option.map_eq_some_iff.1 (List.getElem?_map ▸ hp)
    obtain ⟨hlt, he⟩ := List.getElem?_eq_some_iff.1 hj
    rw [List.getElem_range] at he
    rw [he]
  obtain ⟨h, d, hrun, hmatches⟩ := System.follows_steps Member.ofNat_injective hstart n
  refine ⟨h, d, hrun, hmatches.world, ?_⟩
  intro i result hresult
  obtain ⟨t, ht, hdone⟩ := Option.map_eq_some_iff.1 (List.getElem?_map ▸ hresult)
  have hcarried := hmatches.carries i t ht
  cases t with
  | finished a =>
    cases hdone
    generalize d.left (Member.ofNat i) = p at hcarried
    cases hcarried
    rfl
  | _ => cases hdone

end PodRoutes
