import PodRoutes.Reconcile.Cluster
import PodRoutes.World.Basic

/-!
# Histories

The requests of a run in the order in which they took effect, while the controller's operations
alternate with changes of the stored nodes. Recording them changes nothing about the run
(`run_recorder`), and what every request preserves holds of the whole run (`recorder_invariant`).
-/

namespace PodRoutes

abbrev History := List Control.Request

def History.add (h : History) (r : Control.Request) : History := h ++ [r]

namespace World

/-- The world as the surroundings of a program that runs alone, with a record of its requests. A
request that is given up leaves no record. -/
def recorder : Program.Handler Control.interface (World × History) where
  reply r s := ((s.1.reply r).1, (s.1.reply r).2, s.2.add r)
  replyBy deadline r s :=
    ((s.1.replyBy deadline r).1, (s.1.replyBy deadline r).2,
      if (s.1.replyBy deadline r).1.isSome then s.2.add r else s.2)

theorem run_recorder {α : Type} (p : Control α) (w : World) (h : History) :
    (p.run recorder (w, h)).1 = (w.run p).1 ∧ (p.run recorder (w, h)).2.1 = (w.run p).2 := by
  induction p generalizing w h with
  | done a => exact ⟨rfl, rfl⟩
  | ask r k ih => exact ih _ _ _
  | askBy d r k ih => exact ih _ _ _

theorem recorder_invariant {α : Type} {I : World → History → Prop}
    (heffect : ∀ w h r, I w h → I (w.reply r).2 (h.add r))
    (hlate : ∀ w h r deadline, I w h → I ((w.begin r).advanceTo deadline) h) (p : Control α)
    {s : World × History} (hs : I s.1 s.2) :
    I (p.run recorder s).2.1 (p.run recorder s).2.2 := by
  induction p generalizing s with
  | done a => exact hs
  | ask r k ih => exact ih _ (heffect _ _ r hs)
  | askBy d r k ih =>
    apply ih _
    show I (s.1.replyBy d r).2 (if (s.1.replyBy d r).1.isSome then s.2.add r else s.2)
    unfold replyBy
    by_cases hin : s.1.wait r = 0 ∨ s.1.clock + s.1.wait r ≤ d
    · rw [if_pos hin]
      exact heffect _ _ r hs
    · rw [if_neg hin]
      exact hlate _ _ r d hs

end World

/-! ### Operations -/

instance {α : Type} [DecidableEq α] : DecidableEq (Outcome α)
  | .ok a, .ok b => decidable_of_iff (a = b) (by simp)
  | .error e, .error f => decidable_of_iff (e = f) (by simp)
  | .ok _, .error _ => isFalse (by simp)
  | .error _, .ok _ => isFalse (by simp)

inductive Operation where
  | reconcile (name : String)
  | reconcileAll
  | store (n : Node)
  | remove (name : String)
  | wait (millis : Nat)

def World.storeNode (w : World) (n : Node) : World := { w with store := w.store.add n }

def World.removeNode (w : World) (name : String) : World :=
  { w with store := w.store.remove name }

namespace Operation

def perform (settings : Settings) (b : Backoff) (s : World × History) :
    Operation → World × History
  | reconcile name => ((Reconcile.reconcile settings b name).run World.recorder s).2
  | reconcileAll => ((Reconcile.reconcileAll settings b).run World.recorder s).2
  | store n => (s.1.storeNode n, s.2)
  | remove name => (s.1.removeNode name, s.2)
  | wait millis => (s.1.advance millis, s.2)

def performAll (settings : Settings) (b : Backoff) (w : World) (ops : List Operation) :
    World × History :=
  ops.foldl (perform settings b) (w, [])

theorem performAll_invariant {I : World → History → Prop}
    (heffect : ∀ w h r, I w h → I (w.reply r).2 (h.add r))
    (hlate : ∀ w h r deadline, I w h → I ((w.begin r).advanceTo deadline) h)
    (hstore : ∀ w h nodes, I w h → I { w with store := nodes } h)
    (hwait : ∀ w h millis, I w h → I (w.advance millis) h) (settings : Settings) (b : Backoff)
    {w : World} (hw : I w []) (ops : List Operation) :
    I (performAll settings b w ops).1 (performAll settings b w ops).2 := by
  suffices h : ∀ s : World × History, I s.1 s.2 →
      I (ops.foldl (perform settings b) s).1 (ops.foldl (perform settings b) s).2 from h (w, []) hw
  induction ops with
  | nil => exact fun s hs => hs
  | cons op rest ih =>
    intro s hs
    apply ih _
    cases op with
    | reconcile name => exact World.recorder_invariant heffect hlate _ hs
    | reconcileAll => exact World.recorder_invariant heffect hlate _ hs
    | store n => exact hstore _ _ _ hs
    | remove name => exact hstore _ _ _ hs
    | wait millis => exact hwait _ _ _ hs

end Operation

end PodRoutes
