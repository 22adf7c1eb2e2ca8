import PodRoutes.Proofs.Surroundings.Changing

/-!
# Calls for which time does not matter

While nobody else calls the gateway, what a call of the protocol does to it does not depend on how
long its pauses and its waiting are: the call has the result, and leaves the gateway, that it has
and leaves when it runs alone (`Call.exists_locked`).
-/

namespace PodRoutes

open Control

/-! ### Agreement -/

/-- Whatever time passes, the program `p` ends from `v` with the result and the gateway with which
`q` ends alone from `w`, and leaves the lock alone. -/
def EndsAs {α : Type} (w : World) (q p : Control α) (v : World) : Prop :=
  Meets (World.changing World.SameGateway) (fun _ r => r ≠ .lock ∧ r ≠ .unlock)
    (fun v' a => a = (w.run q).1 ∧ v'.gateway = (w.run q).2.gateway) p v

/-- From the same gateway a program always ends as the other one does alone. -/
def Agrees {α : Type} (p q : Control α) : Prop :=
  ∀ v w : World, v.gateway = w.gateway → EndsAs w q p v

/-- A request that concerns neither the gateway nor the lock. -/
def Control.Request.IsAside (r : Request) : Prop :=
  r.isGatewayCall = false ∧ r ≠ .lock ∧ r ≠ .unlock

theorem World.gateway_effect {w : World} {r : Request} (hr : r.isGatewayCall = false) :
    (w.effect r).2.gateway = w.gateway := by
  cases r with
  | createRoute i c => cases hr
  | findRoute c => cases hr
  | listRoutes => cases hr
  | deleteRoute c => cases hr
  | _ => rfl

/-- A call of the gateway is answered, and changes it, as the gateway alone says. -/
theorem World.effect_congr {v w : World} {r : Request} (hr : r.isGatewayCall = true)
    (h : v.gateway = w.gateway) :
    (v.effect r).1 = (w.effect r).1 ∧ (v.effect r).2.gateway = (w.effect r).2.gateway := by
  cases r with
  | createRoute i c =>
    show (v.gateway.create i c).1 = (w.gateway.create i c).1 ∧
      (v.gateway.create i c).2 = (w.gateway.create i c).2
    exact ⟨by rw [h], by rw [h]⟩
  | findRoute c =>
    show (v.gateway.find c).1 = (w.gateway.find c).1 ∧ (v.gateway.find c).2 = (w.gateway.find c).2
    exact ⟨by rw [h], by rw [h]⟩
  | listRoutes =>
    show v.gateway.list.1 = w.gateway.list.1 ∧ v.gateway.list.2 = w.gateway.list.2
    exact ⟨by rw [h], by rw [h]⟩
  | deleteRoute c =>
    show (v.gateway.delete c).1 = (w.gateway.delete c).1 ∧
      (v.gateway.delete c).2 = (w.gateway.delete c).2
    exact ⟨by rw [h], by rw [h]⟩
  | _ => cases hr

theorem Meets.aside {α : Type} {p : Control α} (hp : Only Request.IsAside p) (v : World) :
    Meets (World.changing World.SameGateway) (fun _ r => r ≠ .lock ∧ r ≠ .unlock)
      (fun v' _ => v'.gateway = v.gateway) p v := by
  refine of_only (I := fun v' : World => v'.gateway = v.gateway) hp ?_ (fun _ _ _ hr => hr.2) rfl
  intro r v₁ x v₂ hr hv hx
  obtain ⟨u, hu, hhonest⟩ := hx
  have hgateway : u.gateway = v.gateway := hu.trans hv
  rcases hhonest.after_eq with hafter | hafter
  · obtain rfl : v₂ = u := hafter
    exact hgateway
  · obtain rfl : v₂ = (u.effect r).2 := hafter
    rw [World.gateway_effect hr.1]
    exact hgateway

theorem World.gateway_run_aside {α : Type} {p : Control α} (hp : Only Request.IsAside p)
    (w : World) : (w.run p).2.gateway = w.gateway := by
  obtain ⟨t, hends⟩ := World.ends_run (D := SameGateway) (fun _ _ h => h) p w
  exact (Meets.aside hp w).ends hends

namespace Agrees

variable {α β : Type} {p q : Control α} {f g : α → Control β}

theorem done (a : α) : Agrees (.done a) (.done a) := fun _ _ h => ⟨rfl, h⟩

theorem bind (h : Agrees p q) (hf : ∀ a, Agrees (f a) (g a)) : Agrees (p >>= f) (q >>= g) := by
  intro v w hvw
  have hrun : w.run (q >>= g) = (w.run q).2.run (g (w.run q).1) := Program.run_bind _ q g w
  unfold EndsAs
  rw [hrun]
  refine Meets.bindThen (h v w hvw) fun v' a ha => ?_
  obtain ⟨rfl, hgateway⟩ := ha
  exact hf _ v' (w.run q).2 hgateway

theorem call {r : Request} (hr : r.isGatewayCall = true) :
    Agrees (Program.request (I := interface) r) (Program.request (I := interface) r) := by
  intro v w hvw
  constructor
  · constructor
    · rintro rfl
      cases hr
    · rintro rfl
      cases hr
  · intro x v' hx
    obtain ⟨u, hu, hhonest⟩ := hx
    have heffect : u.effect r = (x, v') := hhonest
    have hsame : u.gateway = ((w.begin r).advance (w.wait r)).gateway := by
      rw [hu, hvw]
      exact (w.gateway_begin r).symm
    obtain ⟨hreply, hgateway⟩ := World.effect_congr hr hsame
    rw [heffect] at hreply hgateway
    exact ⟨hreply, hgateway⟩

theorem aside {p q : Control Unit} (hp : Only Request.IsAside p) (hq : Only Request.IsAside q) :
    Agrees p q := by
  intro v w hvw
  refine (Meets.aside hp v).weaken fun v' a hv' => ⟨rfl, ?_⟩
  rw [hv', World.gateway_run_aside hq w, hvw]

/-- What time it is and how long the calls take does not matter to a run alone. -/
theorem run_congr (h : Agrees p q) {v w : World} (hvw : v.gateway = w.gateway) :
    (v.run p).1 = (w.run q).1 ∧ (v.run p).2.gateway = (w.run q).2.gateway := by
  obtain ⟨t, hends⟩ := World.ends_run (D := World.SameGateway) (fun _ _ hsame => hsame) p v
  exact (h v w hvw).ends hends

end Agrees

/-! ### The protocol -/

namespace Protocol

variable {b : Backoff} {i c : String}

theorem agrees_rest (delay delay' : Rat) : Agrees (b.rest delay) (b.rest delay') := by
  have honly : ∀ delay, Only Request.IsAside (b.rest delay) := fun delay =>
    only_rest (fun _ => ⟨rfl, nofun, nofun⟩) ⟨rfl, nofun, nofun⟩ b delay
  exact Agrees.aside (honly delay) (honly delay')

theorem agrees_adopt (refusal : RouteError) : Agrees (adopt i c refusal) (adopt i c refusal) := by
  refine Agrees.bind (Agrees.call rfl) fun x => ?_
  rcases x with e | _ | r
  · exact Agrees.done _
  · exact Agrees.done _
  · exact Agrees.done _

theorem agrees_lookUpCreated : Agrees (lookUpCreated c) (lookUpCreated c) := by
  refine Agrees.bind (Agrees.call rfl) fun x => ?_
  rcases x with e | _ | r
  · exact Agrees.done _
  · exact Agrees.done _
  · exact Agrees.done _

theorem agrees_attempts (left : Nat) (delay delay' : Rat) (last : RouteError) :
    Agrees (attempts b i c left delay last) (attempts b i c left delay' last) := by
  induction left generalizing delay delay' last with
  | zero => exact Agrees.done _
  | succ left ih =>
    rw [attempts, attempts]
    refine Agrees.bind (Agrees.call rfl) fun x => ?_
    rcases x with e | _ | r
    · show Agrees (if e.isDuplicate then _ else _) (if e.isDuplicate then _ else _)
      split
      · exact agrees_adopt e
      · split
        · exact Agrees.done _
        · exact Agrees.bind (agrees_rest delay delay') fun _ => ih _ _ e
    · exact agrees_lookUpCreated
    · exact Agrees.done _

theorem agrees_find (atHand : Option (List Route)) : Agrees (find c atHand) (find c atHand) := by
  unfold find
  split
  · exact Agrees.done _
  · split
    · exact Agrees.done _
    · exact Agrees.call rfl

theorem agrees_ensureAfter (found : Option Route) :
    Agrees (ensureAfter b i c found) (ensureAfter b i c found) := by
  unfold ensureAfter
  split
  · exact Agrees.done _
  · exact Agrees.bind (agrees_attempts _ _ _ _) fun _ => Agrees.done _

theorem exists_ensure_locked (b : Backoff) (i c : String) (atHand : Option (List Route)) :
    ∃ body, ensure b i c atHand = locked body ∧ Agrees body body := by
  refine ⟨_, rfl, Agrees.bind (agrees_find atHand) fun x => ?_⟩
  cases x with
  | error e => exact Agrees.done _
  | ok found => exact agrees_ensureAfter found

/-- A call that holds the lock while it calls the gateway. -/
def Call.isOrdered : Call → Bool
  | create _ _ | ensure _ _ _ | delete _ => true
  | find _ _ | list => false

theorem locked_map {α β : Type} (p : Control α) (f : α → β) :
    (do return f (← locked p)) = locked (do return f (← p)) := by
  simp only [locked, bind_assoc, pure_bind]

theorem Call.exists_locked (b : Backoff) {call : Call} (h : call.isOrdered = true) :
    ∃ body, call.program b = locked body ∧ Agrees body body := by
  cases call with
  | create i c =>
    refine ⟨_, locked_map (createHeld b i c) _, ?_⟩
    exact Agrees.bind (agrees_attempts _ _ _ _) fun _ => Agrees.done _
  | ensure i c atHand =>
    obtain ⟨body, hbody, hagrees⟩ := exists_ensure_locked b i c atHand
    refine ⟨do return (← body).map .ensured, ?_, hagrees.bind fun _ => Agrees.done _⟩
    rw [Call.program, hbody]
    exact locked_map body _
  | delete c =>
    refine ⟨_, locked_map (deleteRoute c) _, ?_⟩
    exact Agrees.bind (Agrees.call rfl) fun _ => Agrees.done _
  | find c atHand => cases h
  | list => cases h

end Protocol

end PodRoutes
