import PodRoutes.Proofs.Interleaving.Obeys
import PodRoutes.Protocol.Call

/-!
# What the calls of the protocol ask for

A call that gets a route into place creates and looks up only that route, a call that deletes one
only deletes it, and neither lists any routes. Besides, both ask for the lock, and a create for its
pauses.
-/

namespace PodRoutes.Protocol

open Control Only

/-- Getting a route of an instance into place may ask for this. -/
def MayAskToEnsure (instanceId destination : String) : Request → Prop
  | .createRoute i c => i = instanceId ∧ c = destination
  | .findRoute c => c = destination
  | .lock | .unlock | .pause _ | .draw => True
  | _ => False

def Call.MayAsk : Call → Request → Prop
  | create i c, r => MayAskToEnsure i c r
  | ensure i c _, r => MayAskToEnsure i c r
  | find c _, r => r = .findRoute c
  | list, r => r = .listRoutes
  | delete c, r => r = .deleteRoute c ∨ r = .lock ∨ r = .unlock

variable {b : Backoff} {i c : String} {atHand : Option (List Route)}

/-! ### Creating -/

theorem only_rest {R : Request → Prop} (hpause : ∀ millis, R (.pause millis)) (hdraw : R .draw)
    (b : Backoff) (delay : Rat) : Only R (b.rest delay) := by
  unfold Backoff.rest
  split
  · exact ask (hpause delay)
  · exact askThen hdraw fun _ => ask (hpause _)

theorem only_adopt {refusal : RouteError} : Only (MayAskToEnsure i c) (adopt i c refusal) := by
  refine askThen rfl fun x => ?_
  rcases x with e | _ | r
  · exact done _
  · exact done _
  · exact done _

theorem only_lookUpCreated : Only (MayAskToEnsure i c) (lookUpCreated c) := by
  refine askThen rfl fun x => ?_
  rcases x with e | _ | r
  · exact done _
  · exact done _
  · exact done _

theorem only_attempts {left : Nat} {delay : Rat} {last : RouteError} :
    Only (MayAskToEnsure i c) (attempts b i c left delay last) := by
  induction left generalizing delay last with
  | zero => exact done _
  | succ left ih =>
    rw [attempts]
    refine askThen ⟨rfl, rfl⟩ fun x => ?_
    rcases x with e | _ | r
    · show Only (MayAskToEnsure i c) (if e.isDuplicate then _ else _)
      split
      · exact only_adopt
      · split
        · exact done _
        · exact bind (only_rest (fun _ => trivial) trivial b delay) fun _ => ih
    · exact only_lookUpCreated
    · exact done _

theorem only_create : Only (MayAskToEnsure i c) (create b i c) :=
  locked only_attempts trivial trivial

/-! ### Calls -/

theorem only_find : Only (fun r => r = .findRoute c) (find c atHand) := by
  unfold find
  split
  · exact done _
  · split
    · exact done _
    · exact ask rfl

theorem only_ensure : Only (MayAskToEnsure i c) (ensure b i c atHand) := by
  refine locked (bind (only_find.mono ?_) fun x => ?_) trivial trivial
  · rintro r rfl
    exact rfl
  cases x with
  | error e => exact done _
  | ok found =>
    show Only (MayAskToEnsure i c) (ensureAfter b i c found)
    unfold ensureAfter
    split
    · exact done _
    · exact bind only_attempts fun _ => done _

theorem Call.only_program (call : Call) : Only call.MayAsk (call.program b) := by
  cases call with
  | create i c => exact bind only_create fun _ => done _
  | ensure i c atHand => exact bind only_ensure fun _ => done _
  | find c atHand => exact bind only_find fun _ => done _
  | list => exact askThen rfl fun _ => done _
  | delete c =>
    have hdelete : Only (Call.delete c).MayAsk (Protocol.delete c) :=
      locked (ask (.inl rfl)) (.inr (.inl rfl)) (.inr (.inr rfl))
    exact bind hdelete fun _ => done _

end PodRoutes.Protocol
