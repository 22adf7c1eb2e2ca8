import PodRoutes.Proofs.Calm.Scene
import PodRoutes.Proofs.Surroundings.Meets

/-!
# Prompt surroundings

In a prompt world nothing takes time, and of the calls only deletes and the creates for refused
destinations fail. A program that asks for neither ends there as it would in a calm world
(`Comes.run_prompt`), and one that never pauses is not cut off by a deadline (`World.run_within`).
-/

namespace PodRoutes

open Control

/-! ### What every request preserves -/

theorem World.run_preserves {α : Type} {R : Request → Prop} {I : World → Prop} {p : Control α}
    (h : Only R p) (hreply : ∀ w r, R r → I w → I (w.reply r).2)
    (hlate : ∀ w r deadline, R r → I w → I ((w.begin r).advanceTo deadline)) {w : World}
    (hw : I w) : I (w.run p).2 := by
  induction p generalizing w with
  | done a => exact hw
  | ask r next ih => exact ih _ (h.2 _) (hreply w r h.1 hw)
  | askBy deadline r next ih =>
    have hafter : I (w.replyBy deadline r).2 := by
      by_cases hin : w.wait r = 0 ∨ w.clock + w.wait r ≤ deadline
      · rw [replyBy_inTime hin]
        exact hreply w r h.1 hw
      · rw [replyBy_late hin]
        exact hlate w r deadline h.1 hw
    exact ih _ (h.2 _) hafter

namespace World

theorem routes_run {α : Type} {w : World} (hw : w.gateway.table.KeyedBy Route.destination)
    (p : Control α) : (w.run p).2.gateway.table.KeyedBy Route.destination := by
  refine run_preserves (R := fun _ => True)
    (I := fun w => w.gateway.table.KeyedBy Route.destination) (Only.any p) ?_ ?_ hw
  · intro v r _ hv
    refine routes_effect ?_ r
    show (v.begin r).gateway.table.KeyedBy Route.destination
    rw [gateway_begin]
    exact hv
  · intro v r deadline _ hv
    show (v.begin r).gateway.table.KeyedBy Route.destination
    rw [gateway_begin]
    exact hv

theorem clock_le_run {α : Type} (w : World) (p : Control α) : w.clock ≤ (w.run p).2.clock := by
  refine run_preserves (R := fun _ => True) (I := fun v => w.clock ≤ v.clock) (Only.any p) ?_ ?_
    (Nat.le_refl _)
  · intro v r _ hv
    rw [World.reply, clock_effect]
    show w.clock ≤ (v.begin r).clock + v.wait r
    rw [clock_begin]
    omega
  · intro v r deadline _ hv
    show w.clock ≤ max (v.begin r).clock deadline
    rw [clock_begin]
    omega

/-! ### Prompt worlds -/

/-- Nothing takes time, and no error is queued except for deletes. -/
structure Prompt (w : World) : Prop where
  latency : w.latency = {}
  failures : w.gateway.failures = { delete := w.gateway.failures.delete }
  storeFailures : w.store.failures = {}

/-- The world with a gateway that refuses nothing. -/
def cleared (w : World) : World :=
  { w with gateway := { w.gateway with failures := {}, refused := [] } }

variable {w : World}

theorem Prompt.calm_cleared (hw : w.Prompt) : w.cleared.Calm :=
  ⟨⟨rfl, rfl, hw.storeFailures⟩, hw.latency⟩

theorem Prompt.begin (hw : w.Prompt) (r : Request) (millis : Nat) :
    ((w.begin r).advance millis).Prompt := by
  obtain ⟨hl, hf, hs⟩ := hw
  cases r <;> exact ⟨hl, hf, hs⟩

theorem Prompt.advanceTo (hw : w.Prompt) (r : Request) (time : Nat) :
    ((w.begin r).advanceTo time).Prompt := by
  obtain ⟨hl, hf, hs⟩ := hw
  cases r <;> exact ⟨hl, hf, hs⟩

theorem Prompt.effect (hw : w.Prompt) (r : Request) :
    (w.effect r).2.Prompt ∧ (w.effect r).2.gateway.refused = w.gateway.refused := by
  obtain ⟨hl, hf, hs⟩ := hw
  have hcreate : w.gateway.failures.create = [] := congrArg CallFailures.create hf
  have hfind : w.gateway.failures.find = [] := congrArg CallFailures.find hf
  have hlist : w.gateway.failures.list = [] := congrArg CallFailures.list hf
  cases r with
  | createRoute i c =>
    obtain ⟨hfailures, hrefused, -⟩ := w.gateway.create_frame i c
    refine ⟨⟨hl, ?_, hs⟩, hrefused⟩
    show (w.gateway.create i c).2.failures = { delete := (w.gateway.create i c).2.failures.delete }
    rw [hfailures, hf, List.tail_nil]
  | findRoute c =>
    simp only [World.effect, MemoryGateway.find, hfind]
    exact ⟨⟨hl, hf, hs⟩, trivial⟩
  | listRoutes =>
    simp only [World.effect, MemoryGateway.list, hlist]
    exact ⟨⟨hl, hf, hs⟩, trivial⟩
  | deleteRoute c =>
    cases hd : w.gateway.failures.delete with
    | nil =>
      simp only [World.effect, MemoryGateway.delete, hd]
      exact ⟨⟨hl, hf, hs⟩, trivial⟩
    | cons e rest =>
      simp only [World.effect, MemoryGateway.delete, hd]
      refine ⟨⟨hl, ?_, hs⟩, trivial⟩
      rw [hf]
  | getNode name =>
    simp only [World.effect, NodeStore.get, hs]
    exact ⟨⟨hl, hf, hs⟩, trivial⟩
  | listNodes =>
    simp only [World.effect, NodeStore.list, hs]
    exact ⟨⟨hl, hf, hs⟩, trivial⟩
  | patchNode name edit scope =>
    cases hn : w.store.nodes.get? name <;>
    · simp only [World.effect, NodeStore.patch, hs, hn]
      exact ⟨⟨hl, hf, by simp [hs]⟩, trivial⟩
  | _ => exact ⟨⟨hl, hf, hs⟩, rfl⟩

/-! ### Programs that nothing refuses -/

end World

/-- Neither a delete nor a create for one of these destinations. -/
def Control.Request.Unrefused (refused : List String) : Request → Prop
  | .createRoute _ c => c ∉ refused
  | .deleteRoute _ => False
  | _ => True

namespace World

variable {w : World}

theorem begin_cleared (w : World) (r : Request) (millis : Nat) :
    ((w.begin r).advance millis).cleared = (w.cleared.begin r).advance millis := by
  cases r <;> rfl

theorem effect_cleared (hw : w.Prompt) {r : Request} (hr : r.Unrefused w.gateway.refused) :
    (w.effect r).1 = (w.cleared.effect r).1 ∧
      (w.effect r).2.cleared = (w.cleared.effect r).2 := by
  obtain ⟨hl, hf, hs⟩ := hw
  have hcreate : w.gateway.failures.create = [] := congrArg CallFailures.create hf
  have hfind : w.gateway.failures.find = [] := congrArg CallFailures.find hf
  have hlist : w.gateway.failures.list = [] := congrArg CallFailures.list hf
  cases r with
  | createRoute i c =>
    have hr : c ∉ w.gateway.refused := hr
    have hfree : w.gateway.refused.contains c = false := by simpa using hr
    cases hc : w.gateway.table.contains c with
    | true =>
      simp only [World.effect, MemoryGateway.create, cleared, hcreate, hfree, hc]
      exact ⟨rfl, rfl⟩
    | false =>
      simp only [World.effect, MemoryGateway.create, cleared, hcreate, hfree, hc]
      exact ⟨rfl, rfl⟩
  | findRoute c =>
    simp only [World.effect, MemoryGateway.find, cleared, hfind]
    exact ⟨rfl, trivial⟩
  | listRoutes =>
    simp only [World.effect, MemoryGateway.list, cleared, hlist]
    exact ⟨rfl, trivial⟩
  | deleteRoute c => exact hr.elim
  | getNode name =>
    simp only [World.effect, NodeStore.get, cleared, hs]
    exact ⟨rfl, trivial⟩
  | listNodes =>
    simp only [World.effect, NodeStore.list, cleared, hs]
    exact ⟨rfl, trivial⟩
  | patchNode name edit scope =>
    cases hn : w.store.nodes.get? name with
    | none =>
      simp only [World.effect, NodeStore.patch, cleared, hs, hn]
      exact ⟨rfl, trivial⟩
    | some n =>
      simp only [World.effect, NodeStore.patch, cleared, hs, hn]
      exact ⟨rfl, rfl⟩
  | _ => exact ⟨rfl, rfl⟩

theorem refused_begin (w : World) (r : Request) (millis : Nat) :
    ((w.begin r).advance millis).gateway.refused = w.gateway.refused := by
  cases r <;> rfl

theorem reply_cleared (hw : w.Prompt) {r : Request} (hr : r.Unrefused w.gateway.refused) :
    (w.reply r).1 = (w.cleared.reply r).1 ∧ (w.reply r).2.cleared = (w.cleared.reply r).2 := by
  have hr : r.Unrefused ((w.begin r).advance (w.wait r)).gateway.refused := by
    rw [refused_begin]
    exact hr
  have heffect := effect_cleared (hw.begin r (w.wait r)) hr
  rw [begin_cleared] at heffect
  exact heffect

theorem Prompt.reply (hw : w.Prompt) (r : Request) :
    (w.reply r).2.Prompt ∧ (w.reply r).2.gateway.refused = w.gateway.refused := by
  obtain ⟨hprompt, hrefused⟩ := (hw.begin r (w.wait r)).effect r
  rw [refused_begin] at hrefused
  exact ⟨hprompt, hrefused⟩

/-- What the gateway would refuse does not matter to a program that does not ask for it. -/
theorem run_cleared {α : Type} {p : Control α} {refused : List String}
    (h : Only (Request.Unrefused refused) p) {w : World} (hw : w.Prompt)
    (href : w.gateway.refused = refused) :
    (w.run p).1 = (w.cleared.run p).1 ∧ (w.run p).2.cleared = (w.cleared.run p).2 := by
  induction p generalizing w with
  | done a => exact ⟨rfl, rfl⟩
  | ask r next ih =>
    obtain ⟨hprompt, hrefused⟩ := hw.reply r
    obtain ⟨hreply, hafter⟩ := reply_cleared hw (href ▸ h.1)
    have hrest := ih _ (h.2 (w.reply r).1) hprompt (hrefused.trans href)
    rw [hafter] at hrest
    have hrun : w.cleared.run (.ask r next) =
        (w.cleared.reply r).2.run (next (w.reply r).1) := by rw [hreply]; rfl
    rw [hrun]
    exact hrest
  | askBy deadline r next ih =>
    have hclock : w.cleared.clock = w.clock := rfl
    have hwait : w.cleared.wait r = w.wait r := by cases r <;> rfl
    by_cases hin : w.wait r = 0 ∨ w.clock + w.wait r ≤ deadline
    · obtain ⟨hprompt, hrefused⟩ := hw.reply r
      obtain ⟨hreply, hafter⟩ := reply_cleared hw (href ▸ h.1)
      have hrest := ih _ (h.2 (some (w.reply r).1)) hprompt (hrefused.trans href)
      rw [hafter] at hrest
      rw [run_askBy_inTime next hin, run_askBy_inTime (w := w.cleared) next (hwait ▸ hin), ← hreply]
      exact hrest
    · have hlate : ((w.begin r).advanceTo deadline).cleared =
          (w.cleared.begin r).advanceTo deadline := by cases r <;> rfl
      have hrefused : ((w.begin r).advanceTo deadline).gateway.refused = refused := by
        rw [← href]
        cases r <;> rfl
      have hrest := ih _ (h.2 none) (hw.advanceTo r deadline) hrefused
      rw [hlate] at hrest
      rw [run_askBy_late next hin, run_askBy_late (w := w.cleared) next (hwait ▸ hin)]
      exact hrest

end World

theorem Comes.run_prompt {α : Type} {p : Control α} {a : α} {t : Scene} {w : World}
    (h : Comes p w.scene a t) (honly : Only (Request.Unrefused w.gateway.refused) p)
    (hw : w.Prompt) : (w.run p).1 = a ∧ (w.run p).2.scene = t := by
  have hscene : w.cleared.scene = w.scene := rfl
  rw [← hscene] at h
  obtain ⟨ha, ht, -⟩ := h.run hw.calm_cleared
  obtain ⟨hresult, hafter⟩ := World.run_cleared honly hw rfl
  refine ⟨hresult.trans ha, ?_⟩
  rw [← ht, ← hafter]
  rfl

/-! ### Deadlines -/

namespace World

section

variable {α : Type} {a : α} {w : World} {r : Request} {deadline : Nat}
  {next : Option (Reply r) → Control (Option α)}

theorem inTime_of_run_eq_some {held : Bool} (hcut : next none = cutOff held)
    (h : (w.run (.askBy deadline r next)).1 = some a) :
    w.wait r = 0 ∨ w.clock + w.wait r ≤ deadline := by
  by_cases hin : w.wait r = 0 ∨ w.clock + w.wait r ≤ deadline
  · exact hin
  · rw [run_askBy_late next hin, hcut] at h
    cases held <;> cases h

theorem run_after_inTime {p : Control α} (hin : w.wait r = 0 ∨ w.clock + w.wait r ≤ deadline)
    (h : (w.run (.askBy deadline r next)).1 = some a)
    (hrest : ((w.reply r).2.run (next (some (w.reply r).1))).1 = some a →
      (w.reply r).2.run p = (a, ((w.reply r).2.run (next (some (w.reply r).1))).2)) :
    (w.reply r).2.run p = (a, (w.run (.askBy deadline r next)).2) := by
  rw [run_askBy_inTime next hin] at h ⊢
  exact hrest h

theorem run_after_late {p : Control α} (hin : ¬(w.wait r = 0 ∨ w.clock + w.wait r ≤ deadline))
    (h : (w.run (.askBy deadline r next)).1 = some a)
    (hrest : (((w.begin r).advanceTo deadline).run (next none)).1 = some a →
      ((w.begin r).advanceTo deadline).run p =
        (a, (((w.begin r).advanceTo deadline).run (next none)).2)) :
    ((w.begin r).advanceTo deadline).run p = (a, (w.run (.askBy deadline r next)).2) := by
  rw [run_askBy_late next hin] at h ⊢
  exact hrest h

end

/-- A program that is not cut off by a deadline does what it does without one. -/
theorem run_bounded_of_some {α : Type} {a : α} (p : Control α) (w : World) (deadline : Nat)
    (held : Bool) (h : (w.run (Control.bounded deadline held p)).1 = some a) :
    w.run p = (a, (w.run (Control.bounded deadline held p)).2) := by
  induction p generalizing w held with
  | done b =>
    cases h
    rfl
  | ask r next ih =>
    rw [Control.bounded] at h ⊢
    exact run_after_inTime (inTime_of_run_eq_some rfl h) h (ih _ _ _)
  | askBy d r next ih =>
    rw [Control.bounded] at h ⊢
    split at h
    · next hd =>
      rw [if_pos hd]
      by_cases hin : w.wait r = 0 ∨ w.clock + w.wait r ≤ d
      · rw [run_askBy_inTime next hin]
        exact run_after_inTime hin h (ih _ _ _)
      · rw [run_askBy_late next hin]
        exact run_after_late hin h (ih _ _ _)
    · next hd =>
      -- the earlier deadline is the one that matters
      have hin := inTime_of_run_eq_some rfl h
      rw [if_neg hd, run_askBy_inTime next (by omega)]
      exact run_after_inTime hin h (ih _ _ _)

theorem latency_reply (w : World) (r : Request) : (w.reply r).2.latency = w.latency := by
  rw [reply, latency_effect]
  exact w.latency_begin r

theorem run_bounded {α : Type} {p : Control α} (h : Only (fun r => r.isPrompt = true) p)
    {w : World} (hw : w.latency = {}) (deadline : Nat) (held : Bool) :
    w.run (Control.bounded deadline held p) = (some (w.run p).1, (w.run p).2) := by
  induction p generalizing w held with
  | done a => rfl
  | ask r next ih =>
    have hin : ∀ d, w.wait r = 0 ∨ w.clock + w.wait r ≤ d := fun _ => Or.inl (wait_eq_zero hw h.1)
    rw [Control.bounded]
    refine (run_askBy_inTime _ (hin deadline)).trans ?_
    exact ih _ (h.2 _) ((w.latency_reply r).trans hw) _
  | askBy d r next ih =>
    have hin : ∀ d, w.wait r = 0 ∨ w.clock + w.wait r ≤ d := fun _ => Or.inl (wait_eq_zero hw h.1)
    have hnext : ∀ held, (w.reply r).2.run
        (Control.bounded deadline held (next (some (w.reply r).1))) =
          (some (w.run (.askBy d r next)).1, (w.run (.askBy d r next)).2) := by
      intro held
      rw [run_askBy_inTime next (hin d)]
      exact ih _ (h.2 _) ((w.latency_reply r).trans hw) held
    rw [Control.bounded]
    split
    · exact (run_askBy_inTime _ (hin d)).trans (hnext _)
    · exact (run_askBy_inTime _ (hin deadline)).trans (hnext _)

theorem run_within {α : Type} {p : Control α} (h : Only (fun r => r.isPrompt = true) p)
    {w : World} (hw : w.latency = {}) (limit : Nat) :
    w.run (Control.within limit p) = (some (w.run p).1, (w.run p).2) :=
  run_bounded h hw (w.clock + limit) false

end World

end PodRoutes
