import PodRoutes.Proofs.Interleaving.Lock
import PodRoutes.World.Schedule

/-!
# A program that is alone

A guarded program that shares the scheduler with no other never waits for the lock: it gives back
what it takes, also when a deadline cuts it off. So the scheduler comes to the same end as the
program run alone (`runAll_alone`).
-/

namespace PodRoutes

open Control

namespace System

variable {α : Type} {s t u : System α}

/-- With enough steps the system comes to this end and stays there. -/
def Settles (s t : System α) : Prop := ∃ n, ∀ m, n ≤ m → steps m s = t

theorem Settles.step (h : s.step = some t) (ht : t.Settles u) : s.Settles u := by
  obtain ⟨n, hn⟩ := ht
  refine ⟨n + 1, fun m hm => ?_⟩
  obtain ⟨k, rfl⟩ : ∃ k, m = k + 1 := ⟨m - 1, by omega⟩
  have hsteps : steps (k + 1) s = steps k t := by
    rw [steps, h]
  rw [hsteps]
  exact hn k (by omega)

theorem settles_self (h : s.step = none) : s.Settles s := by
  refine ⟨0, fun m _ => ?_⟩
  cases m with
  | zero => rfl
  | succ m => rw [steps, h]

/-- A single task, which has the lock or not. -/
def single (held : Bool) (w : World) (t : Task α) : System α where
  world := w
  holder := if held then some 0 else none
  tasks := [t]

variable {held : Bool} {w : World}

theorem step_single (held : Bool) (w : World) (p : Control α) :
    (single held w (.ready p)).step = some ((single held w (.ready p)).advance 0 p) := rfl

theorem settles_finished (a : α) : (single held w (.finished a)).Settles
    (single held w (.finished a)) := settles_self rfl

theorem settles_waiting {wake : Nat} {resume : World → Control α × World}
    (h : (single held (resume (w.advanceTo wake)).2
      (.ready (resume (w.advanceTo wake)).1)).Settles u) :
    (single held w (.waiting wake resume)).Settles u := Settles.step rfl h

theorem advanceTo_wait (w : World) (r : Request) :
    w.advanceTo (w.clock + w.wait r) = w.advance (w.wait r) := by
  have hlater : max w.clock (w.clock + w.wait r) = w.clock + w.wait r := by omega
  rw [World.advanceTo, hlater]
  rfl

theorem settles_start {r : Request} {next : Reply r → Control α} (t : Task α)
    (h : (single held (w.reply r).2 (.ready (next (w.reply r).1))).Settles u) :
    ((single held w t).start 0 r next).Settles u := by
  have hworld : (single held w t).world.begin r = w.begin r := rfl
  have hwait := w.wait_begin r
  unfold start
  by_cases hzero : (w.begin r).wait r = 0
  · have hreply : (w.begin r).effect r = w.reply r := by
      rw [World.reply, ← hwait, hzero]
      rfl
    simp only [hworld, if_pos hzero, hreply]
    exact h
  · have hreply : ((w.begin r).advanceTo ((w.begin r).clock + (w.begin r).wait r)).effect r =
        w.reply r := by
      rw [advanceTo_wait, hwait]
      rfl
    simp only [hworld, if_neg hzero]
    apply settles_waiting
    simp only [hreply]
    exact h

theorem settles_ask {r : Request} {next : Reply r → Control α} (hr : Allowed held r)
    (h : (single (holdsAfter held r) (w.reply r).2 (.ready (next (w.reply r).1))).Settles u) :
    (single held w (.ready (.ask r next))).Settles u := by
  refine Settles.step (step_single held w _) ?_
  cases r with
  | lock =>
    obtain rfl : held = false := hr
    exact h
  | unlock =>
    obtain rfl : held = true := hr
    exact h
  | _ => exact settles_start _ h

theorem settles_askBy {deadline : Nat} {r : Request} {next : Option (Reply r) → Control α}
    (hr : Allowed held r)
    (h : (single (heldAfter held r (w.replyBy deadline r).1) (w.replyBy deadline r).2
      (.ready (next (w.replyBy deadline r).1))).Settles u) :
    (single held w (.ready (.askBy deadline r next))).Settles u := by
  refine Settles.step (step_single held w _) ?_
  have hstart : ∀ t : Task α, holdsAfter held r = held → (if w.wait r = 0 ∨
      w.clock + w.wait r ≤ deadline then (single held w t).start 0 r fun x => next (some x)
        else (single held w t).startLate 0 deadline r (next none)).Settles u := by
    intro t hheld
    by_cases hin : w.wait r = 0 ∨ w.clock + w.wait r ≤ deadline
    · rw [World.replyBy_inTime hin, heldAfter, hheld] at h
      rw [if_pos hin]
      exact settles_start t h
    · rw [World.replyBy_late hin] at h
      rw [if_neg hin]
      exact settles_waiting h
  cases r with
  | lock =>
    obtain rfl : held = false := hr
    exact h
  | unlock =>
    obtain rfl : held = true := hr
    exact h
  | _ => exact hstart _ rfl

theorem settles_alone {p : Control α} (h : Guarded false p held) (w : World) :
    (single held w (.ready p)).Settles (single false (w.run p).2 (.finished (w.run p).1)) := by
  induction p generalizing held w with
  | done a =>
    obtain rfl : held = false := h
    exact Settles.step (t := single false w (.finished a)) rfl (settles_finished a)
  | ask r next ih => exact settles_ask h.1 (ih _ (h.2 _) _)
  | askBy deadline r next ih =>
    refine settles_askBy h.1 (ih _ ?_ _)
    cases (w.replyBy deadline r).1 with
    | none => exact h.2.2
    | some x => exact h.2.1 x

end System

theorem World.runAll_alone {α : Type} {p : Control α} (h : Guarded false p false) (w : World) :
    ∃ bound, ∀ m, bound ≤ m → w.runAll m [p] = ([some (w.run p).1], (w.run p).2) := by
  obtain ⟨bound, hbound⟩ := System.settles_alone h w
  refine ⟨bound, fun m hm => ?_⟩
  have hsteps := hbound m hm
  rw [World.runAll]
  show ((System.steps m (System.single false w (.ready p))).tasks.map System.result?,
    (System.steps m (System.single false w (.ready p))).world) = _
  rw [hsteps]
  rfl

end PodRoutes
