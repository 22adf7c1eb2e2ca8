import PodRoutes.Proofs.Surroundings.Truthful

/-!
# A world that changes by itself

Between two answers the world may change, within bounds: time passes, errors are queued, nodes come
and go. A run in a world that is left alone (`World.ends_alone`) is a run in one that changes
(`World.ends_run`), and as long as nothing else writes the table the gateway in memory is truthful
(`World.truthful_changing`).
-/

namespace PodRoutes

open Control

/-- In surroundings that allow what the world replies, a run in the world is a run among them. -/
theorem World.ends_of_replies {α : Type} {E : Surroundings World} {I : World → Prop}
    (hreply : ∀ w r, I w → E r w (some (w.reply r).1) (w.reply r).2 ∧ I (w.reply r).2)
    (hlate : ∀ w r deadline, I w →
      E r w none ((w.begin r).advanceTo deadline) ∧ I ((w.begin r).advanceTo deadline))
    (p : Control α) (w : World) (hw : I w) : ∃ t, Ends E p w t (w.run p).1 (w.run p).2 := by
  induction p generalizing w with
  | done a => exact ⟨[], .done a w⟩
  | ask r next ih =>
    obtain ⟨hx, hI⟩ := hreply w r hw
    obtain ⟨t, h⟩ := ih (w.reply r).1 (w.reply r).2 hI
    exact ⟨_, .ask hx h⟩
  | askBy d r next ih =>
    have hby : E r w (w.replyBy d r).1 (w.replyBy d r).2 ∧ I (w.replyBy d r).2 := by
      unfold replyBy
      split
      · exact hreply w r hw
      · exact hlate w r d hw
    obtain ⟨t, h⟩ := ih (w.replyBy d r).1 (w.replyBy d r).2 hby.2
    exact ⟨_, .askBy hby.1 h⟩

/-! ### A world that is left alone -/

/-- The world as the surroundings of a program that runs alone. -/
def World.alone : Surroundings World := fun r v x w =>
  match x with
  | some x => v.reply r = (x, w)
  | none => ∃ deadline, w = (v.begin r).advanceTo deadline

theorem World.ends_alone {α : Type} (p : Control α) (w : World) :
    ∃ t, Ends alone p w t (w.run p).1 (w.run p).2 :=
  ends_of_replies (I := fun _ => True) (fun _ _ _ => ⟨rfl, trivial⟩)
    (fun _ _ deadline _ => ⟨⟨deadline, rfl⟩, trivial⟩) p w trivial

/-! ### A world that changes -/

/-- The world gives its answers, and before each of them it changes as it may. -/
def World.changing (D : World → World → Prop) : Surroundings World := fun r v x w =>
  ∃ u, D v u ∧ Answer.Honest ⟨r, x, u, w⟩

def World.SameGateway (v w : World) : Prop := w.gateway = v.gateway

/-- Queued errors, refused destinations and the switches of the gateway may change. -/
def World.SameTable (v w : World) : Prop := w.gateway.table = v.gateway.table

namespace World

variable {D : World → World → Prop}

theorem SameGateway.sameTable {v w : World} (h : v.SameGateway w) : v.SameTable w :=
  congrArg MemoryGateway.table h

/-- What a request keeps may also be asked of the worlds before the answers. -/
theorem ends_run_keeping {α : Type} {I : World → Prop}
    (hI : ∀ v w, I v → SameGateway v w → D v w ∧ I w) (heffect : ∀ w r, I w → I (w.effect r).2)
    (p : Control α) (w : World) (hw : I w) :
    ∃ t, Ends (changing D) p w t (w.run p).1 (w.run p).2 := by
  refine ends_of_replies (I := I) ?_ ?_ p w hw
  · intro w r hw
    obtain ⟨hD, hbegin⟩ := hI w ((w.begin r).advance (w.wait r)) hw (w.gateway_begin r)
    exact ⟨⟨_, hD, rfl⟩, heffect _ r hbegin⟩
  · intro w r deadline hw
    obtain ⟨hD, hbegin⟩ := hI w ((w.begin r).advanceTo deadline) hw (w.gateway_begin r)
    exact ⟨⟨_, hD, rfl⟩, hbegin⟩

theorem ends_run {α : Type} (hD : ∀ v w, SameGateway v w → D v w) (p : Control α) (w : World) :
    ∃ t, Ends (changing D) p w t (w.run p).1 (w.run p).2 :=
  ends_run_keeping (I := fun _ => True) (fun v w _ h => ⟨hD v w h, trivial⟩)
    (fun _ _ _ => trivial) p w trivial

theorem truthful_changing : Truthful (changing SameTable) fun w => w.gateway.table where
  taken i c v x w r hr hx := by
    obtain ⟨u, hu, hhonest⟩ := hx
    obtain ⟨hreply, hgateway⟩ := hhonest.create_eq
    rw [← hreply, ← hgateway, ← hu]
    rcases u.gateway.create_cases i c with hfailed | ⟨hfree, -⟩
    · exact hfailed
    · rw [hu, hr] at hfree
      cases hfree
  free i c v x w hfree hx := by
    obtain ⟨u, hu, hhonest⟩ := hx
    obtain ⟨hreply, hgateway⟩ := hhonest.create_eq
    rw [← hreply, ← hgateway, ← hu]
    rcases u.gateway.create_cases i c with hfailed | ⟨-, hok, hadded⟩
    · exact Or.inl hfailed
    · refine Or.inr ⟨u.gateway.nextRoute i c, rfl, rfl, hadded, fun o ho => ?_⟩
      rw [hok] at ho
      cases ho
      cases u.gateway.createReturnsNone with
      | true => exact Or.inl rfl
      | false => exact Or.inr rfl
  find c v o w hx := by
    obtain ⟨u, hu, hhonest⟩ := hx
    have heffect : u.effect (.findRoute c) = (.ok o, w) := hhonest
    have hreply : (u.gateway.find c).1 = .ok o := congrArg Prod.fst heffect
    rw [← hu]
    exact MemoryGateway.find_eq_of_ok hreply
  still r v x w hr hx := by
    obtain ⟨u, hu, hhonest⟩ := hx
    have htable : w.gateway.table = u.gateway.table := hhonest.table hr
    rw [htable, hu]

end World

end PodRoutes
