import PodRoutes.Proofs.Surroundings.Changing

/-!
# Gateways whose errors mean what they say

A reliable gateway is truthful, shows the route of every destination that it is asked for, and does
nothing where it reports an error of a create. Over such a gateway a call that fails to ensure a
route leaves the instance without one (`Reliable.meets_ensure`). A gateway in memory is reliable as
long as no error is queued for a lookup (`World.reliable_changing`); creates may still fail.
-/

namespace PodRoutes

open Control

/-- The instance has no route to the destination. -/
def Lacks (instanceId destination : String) (t : Table Route) : Prop :=
  ∀ r, t.get? destination = some r → r.instanceId ≠ instanceId

structure Reliable {σ : Type} (E : Surroundings σ) (table : σ → Table Route) : Prop where
  truthful : Truthful E table
  shows : ∀ c s x s', E (.findRoute c) s (some x) s' → x = .ok ((table s).get? c)
  refuses : ∀ i c s e s', E (.createRoute i c) s (some (.error e)) s' → table s' = table s

namespace Reliable

variable {σ : Type} {E : Surroundings σ} {table : σ → Table Route} {b : Backoff} {i c : String}
  {s : σ}

theorem meets_adopt (hE : Reliable E table) (hlacks : Lacks i c (table s)) (refusal : RouteError) :
    Meets E (fun _ _ => True) (fun s' _ => Lacks i c (table s'))
      (Protocol.adopt i c refusal) s := by
  refine Meets.askThen trivial fun x s' hx => ?_
  have hsame : table s' = table s := hE.truthful.still (.findRoute c) s _ s' rfl hx
  have hafter : Lacks i c (table s') := by
    rw [hsame]
    exact hlacks
  rcases x with e | _ | r
  · exact hafter
  · exact hafter
  · exact hafter

theorem meets_lookUpCreated (hE : Reliable E table) (hentry : ∃ r, (table s).get? c = some r) :
    Meets E (fun _ _ => True) (fun _ x => ∃ r, x = .ok r) (Protocol.lookUpCreated c) s := by
  obtain ⟨r, hr⟩ := hentry
  refine Meets.askThen trivial fun x s' hx => ?_
  have hshown := hE.shows c s x s' hx
  rw [hr] at hshown
  subst hshown
  exact ⟨r, rfl⟩

theorem meets_attempts (hE : Reliable E table) (left : Nat) (delay : Rat) (last : RouteError)
    (hlacks : Lacks i c (table s)) :
    Meets E (fun _ _ => True) (fun s' x => (∃ e, x = .error e) → Lacks i c (table s'))
      (Protocol.attempts b i c left delay last) s := by
  -- by the attempts left: one that fails has changed nothing, so the next has no route either
  induction left generalizing delay last s with
  | zero => exact fun _ => hlacks
  | succ left ih =>
    rw [Protocol.attempts]
    refine Meets.askThen trivial fun x s' hx => ?_
    rcases x with e | _ | r
    · have hafter : Lacks i c (table s') := by
        rw [hE.refuses i c s e s' hx]
        exact hlacks
      show Meets E _ _ (if e.isDuplicate then _ else _) s'
      split
      · exact (hE.meets_adopt hafter e).weaken fun _ _ h _ => h
      · split
        · exact fun _ => hafter
        · refine Meets.bindThen (hE.truthful.meets_rest delay) fun s₂ _ hs₂ => ?_
          rw [← hs₂] at hafter
          exact ih (delay * b.factor) e hafter
    · obtain ⟨-, hok⟩ := hE.truthful.create_cases hx
      obtain ⟨r, hr, -, -⟩ := hok none rfl
      refine (hE.meets_lookUpCreated ⟨r, hr⟩).weaken fun _ x hx he => ?_
      obtain ⟨r, rfl⟩ := hx
      obtain ⟨e, he⟩ := he
      cases he
    · rintro ⟨e, he⟩
      cases he

theorem meets_ensure (hE : Reliable E table) (hc : c ≠ "")
    (hkeyed : ∀ r, (table s).get? c = some r → r.destination = c) :
    Meets E (fun _ _ => True) (fun s' x => (∃ e, x = .error e) → Lacks i c (table s'))
      (Protocol.ensure b i c none) s := by
  refine Meets.locked trivial fun s₁ hlock => Meets.weaken
    (Q := fun s' (x : Outcome EnsuredRoute) => (∃ e, x = .error e) → Lacks i c (table s')) ?_
    fun s₂ x hx => ⟨trivial, fun s₃ hunlock he => ?_⟩
  rotate_left
  · rw [hE.truthful.still .unlock s₂ _ s₃ rfl hunlock]
    exact hx he
  have hlocked : table s₁ = table s := hE.truthful.still .lock s _ s₁ rfl hlock
  rw [Protocol.find_of_ne hc]
  refine Meets.askThen trivial fun x s₂ hx => ?_
  have hsame : table s₂ = table s₁ := hE.truthful.still (.findRoute c) s₁ _ s₂ rfl hx
  have hshown := hE.shows c s₁ x s₂ hx
  rw [hlocked] at hshown hsame
  subst hshown
  show Meets E _ _ (Protocol.ensureAfter b i c ((table s).get? c)) s₂
  cases hr : (table s).get? c with
  | some r =>
    rw [Protocol.ensureAfter_of_destination b i (hkeyed r hr)]
    show (∃ e, (if r.isOwnedBy i then _ else _ : Outcome EnsuredRoute) = .error e) →
      Lacks i c (table s₂)
    rw [hsame]
    split
    · rintro ⟨e, he⟩
      cases he
    · next hforeign =>
      intro _ q hq
      rw [hr] at hq
      cases hq
      simpa [Route.isOwnedBy] using hforeign
  | none =>
    have hlacks : Lacks i c (table s₂) := by
      intro r hr'
      rw [hsame, hr] at hr'
      cases hr'
    refine Meets.bindThen (hE.meets_attempts _ _ _ hlacks) fun s₃ x hx => ?_
    rintro ⟨e, he⟩
    cases x with
    | error e' => exact hx ⟨e', rfl⟩
    | ok r => cases he

end Reliable

/-! ### The gateway in memory -/

namespace World

/-- The table stays, and no error is queued for a lookup. -/
def KeepsShowing (v w : World) : Prop := v.SameTable w ∧ w.gateway.failures.find = []

variable {w : World}

theorem findFailures_effect (hw : w.gateway.failures.find = []) (r : Request) :
    (w.effect r).2.gateway.failures.find = [] := by
  cases r with
  | createRoute i c =>
    show (w.gateway.create i c).2.failures.find = []
    rw [(w.gateway.create_frame i c).1]
    exact hw
  | findRoute c =>
    show (w.gateway.find c).2.failures.find = []
    simp [MemoryGateway.find, hw]
  | listRoutes =>
    show w.gateway.list.2.failures.find = []
    cases hf : w.gateway.failures.list <;> simp [MemoryGateway.list, hf, hw]
  | deleteRoute c =>
    show (w.gateway.delete c).2.failures.find = []
    cases hf : w.gateway.failures.delete <;> simp [MemoryGateway.delete, hf, hw]
  | _ => exact hw

theorem reliable_changing : Reliable (changing KeepsShowing) fun w => w.gateway.table where
  truthful := truthful_changing.restrict fun _ _ _ _ ⟨u, hu, hhonest⟩ => ⟨u, hu.1, hhonest⟩
  shows c v x w hx := by
    obtain ⟨u, ⟨htable, hfind⟩, hhonest⟩ := hx
    have heffect : u.effect (.findRoute c) = (x, w) := hhonest
    have hreply : (u.gateway.find c).1 = x := congrArg Prod.fst heffect
    have hshown : (u.gateway.find c).1 = .ok (u.gateway.table.get? c) := by
      simp [MemoryGateway.find, hfind]
    rw [← htable, ← hreply, hshown]
  refuses i c v e w hx := by
    obtain ⟨u, ⟨htable, -⟩, hhonest⟩ := hx
    obtain ⟨hreply, hgateway⟩ := hhonest.create_eq
    rw [← htable, ← hgateway]
    exact MemoryGateway.table_of_create_error hreply

theorem ends_run_reliable {α : Type} (hw : w.gateway.failures.find = []) (p : Control α) :
    ∃ t, Ends (changing KeepsShowing) p w t (w.run p).1 (w.run p).2 := by
  apply ends_run_keeping (I := fun w => w.gateway.failures.find = [])
  · intro v u hv hu
    have hfind : u.gateway.failures.find = [] := by
      rw [hu]
      exact hv
    exact ⟨⟨hu.sameTable, hfind⟩, hfind⟩
  · exact fun _ r hv => findFailures_effect hv r
  · exact hw

end World

end PodRoutes
