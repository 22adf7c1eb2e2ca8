import PodRoutes.Proofs.Interleaving.Crew
import PodRoutes.Proofs.World.Effect
import PodRoutes.Proofs.World.History

/-!
# Playing a crew

A list of turns says who goes on when, and what becomes of the stored nodes in between. Playing it
gives a run (`Crew.Run.play`), so that single runs of a crew can be computed. A program whose turn
comes when it cannot go on is passed over.
-/

namespace PodRoutes

open Control

inductive Turn (ι : Type) where
  | act (i : ι)
  | store (node : Node)
  | remove (name : String)

def Control.next? {α : Type} : Control α → Option ((r : Request) × (Reply r → Control α))
  | .done _ => none
  | .ask r next => some ⟨r, next⟩
  | .askBy _ r next => some ⟨r, fun x => next (some x)⟩

def Control.result? {α : Type} : Control α → Option α
  | .done a => some a
  | _ => none

theorem Control.result?_eq_some {α : Type} {p : Control α} {a : α} :
    Control.result? p = some a ↔ p = .done a := by
  cases p <;> simp [result?]

theorem Takes.of_next? {α : Type} {p : Control α} {r : Request} {next : Reply r → Control α}
    (h : Control.next? p = some ⟨r, next⟩) (x : Reply r) : Takes p r (some x) (next x) := by
  cases p with
  | done a => cases h
  | ask r next =>
    cases h
    exact .ask r next x
  | askBy deadline r next =>
    cases h
    exact .inTime deadline r next x

theorem World.drifts_storeNode (w : World) (n : Node) : w.Drifts (w.storeNode n) := by
  refine ⟨rfl, rfl, rfl, fun h => ?_⟩
  show (w.store.nodes.insert n.name n).KeyedBy Node.name
  exact h.insert rfl

theorem World.drifts_removeNode (w : World) (name : String) : w.Drifts (w.removeNode name) := by
  refine ⟨rfl, rfl, rfl, fun h => ?_⟩
  show (w.store.nodes.erase name).KeyedBy Node.name
  exact h.erase name

namespace Crew

variable {ι α : Type} [DecidableEq ι]

/-- What a turn does, if anything. A program that wants the lock first stands in the queue. -/
def turn (c : Crew ι α) : Turn ι → Option (Moment ι × Crew ι α)
  | .act i =>
    match Control.next? (c.left i) with
    | none => none
    | some ⟨.lock, next⟩ =>
      if i ∉ c.queue then some (.drift c.world c.world, { c with queue := c.queue ++ [i] })
      else
        match c.holder, c.queue with
        | none, j :: rest =>
          if j = i then
            some (.act i ⟨.lock, some (), c.world, c.world⟩,
              { c.goOn i (next ()) with holder := some i, queue := rest })
          else none
        | _, _ => none
    | some ⟨.unlock, next⟩ =>
      some (.act i ⟨.unlock, some (), c.world, c.world⟩,
        { c.goOn i (next ()) with holder := none })
    | some ⟨r, next⟩ =>
      some (.act i ⟨r, some (c.world.effect r).1, c.world, (c.world.effect r).2⟩,
        { c.goOn i (next (c.world.effect r).1) with world := (c.world.effect r).2 })
  | .store n => some (.drift c.world (c.world.storeNode n), { c with world := c.world.storeNode n })
  | .remove name =>
    some (.drift c.world (c.world.removeNode name), { c with world := c.world.removeNode name })

theorem Step.of_turn {c d : Crew ι α} {x : Turn ι} {m : Moment ι} (h : c.turn x = some (m, d)) :
    Step c m d := by
  cases x with
  | store n =>
    cases h
    exact .drift (c.world.drifts_storeNode n)
  | remove name =>
    cases h
    exact .drift (c.world.drifts_removeNode name)
  | act i =>
    rw [turn] at h
    split at h
    · cases h
    · next next hnext =>
      have htakes := Takes.of_next? hnext ()
      split at h
      · next hnew =>
        cases h
        exact .stand htakes hnew
      · split at h
        · next j rest hfree hqueue =>
          split at h
          · next hj =>
            subst hj
            cases h
            exact .grant hfree hqueue htakes
          · cases h
        · cases h
    · next next hnext =>
      cases h
      exact .unlock (Takes.of_next? hnext ())
    · next r next hlock hunlock hnext =>
      cases h
      refine .answer (Takes.of_next? hnext _) ?_ ?_ rfl
      · rintro rfl
        exact hlock next rfl HEq.rfl
      · rintro rfl
        exact hunlock next rfl HEq.rfl

/-- What happens in some turns, and the crew after them. -/
def play (c : Crew ι α) : List (Turn ι) → List (Moment ι) × Crew ι α
  | [] => ([], c)
  | x :: rest =>
    match c.turn x with
    | none => c.play rest
    | some (m, d) => (m :: (d.play rest).1, (d.play rest).2)

theorem Run.play (c : Crew ι α) (turns : List (Turn ι)) :
    Run c (c.play turns).1 (c.play turns).2 := by
  induction turns generalizing c with
  | nil => exact Run.nil c
  | cons x rest ih =>
    rw [Crew.play]
    split
    · exact ih c
    · next m d h =>
      have hstep := Run.single (Step.of_turn h)
      exact hstep.append (ih d)

def asked? (c : Crew ι α) (i : ι) : Option Request := (Control.next? (c.left i)).map Sigma.fst

omit [DecidableEq ι] in
theorem asked?_eq_of_bind {β : Type} {c : Crew ι α} {i : ι} {f : Request → Option β} {b : β}
    {r : Request} (h : (c.asked? i).bind f = some b) (hf : ∀ r', f r' = some b ↔ r' = r) :
    c.asked? i = some r := by
  obtain ⟨r', hr', hb⟩ := Option.bind_eq_some_iff.1 h
  rw [hr', (hf r').1 hb]

theorem Step.of_asked {c : Crew ι α} {i : ι} {r : Request} (h : c.asked? i = some r)
    (hlock : r ≠ .lock) (hunlock : r ≠ .unlock) :
    ∃ d, Step c (.act i ⟨r, some (c.world.effect r).1, c.world, (c.world.effect r).2⟩) d := by
  rw [asked?, Option.map_eq_some_iff] at h
  obtain ⟨⟨r', next⟩, hnext, rfl⟩ := h
  exact ⟨_, .answer (Takes.of_next? hnext _) hlock hunlock rfl⟩

theorem Run.snoc_delete {c₁ c₂ : Crew ι α} {h : List (Moment ι)} {i : ι} {c : String}
    (hr : Run c₁ h c₂) (hask : (c₂.asked? i).bind Request.deleted? = some c) :
    ∃ e, Run c₁ (h ++ [.act i ⟨.deleteRoute c, some (c₂.world.gateway.delete c).1,
      c₂.world, (c₂.world.effect (.deleteRoute c)).2⟩]) e := by
  have hasked := asked?_eq_of_bind hask fun _ => Request.deleted?_eq_some
  obtain ⟨e, hstep⟩ := Step.of_asked hasked (by simp) (by simp)
  exact ⟨e, hr.snoc hstep⟩

end Crew

end PodRoutes
