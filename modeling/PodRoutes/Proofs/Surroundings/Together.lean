import Mathlib.Logic.Function.Basic
import PodRoutes.Proofs.Surroundings.Meets

/-!
# Programs among the same surroundings

Several programs take turns, one request at a time, and nothing is said about who is next. If the
surroundings only answer as each program expects as long as all of them keep to their contracts,
then all of them do (`Together.keeps`).
-/

namespace PodRoutes

open Control

inductive Together {ι σ α : Type} [DecidableEq ι] (E : Surroundings σ) :
    (ι → Control α) → σ → List Exchange → (ι → Control α) → σ → Prop
  | stop (left : ι → Control α) (s : σ) : Together E left s [] left s
  | turn {left left' : ι → Control α} {i : ι} {r : Request} {x : Option (Reply r)} {p : Control α}
      {s s' s'' : σ} {h : List Exchange} (takes : Takes (left i) r x p) (answer : E r s x s')
      (rest : Together E (Function.update left i p) s' h left' s'') :
      Together E left s (⟨r, x⟩ :: h) left' s''

namespace Together

variable {ι σ α : Type} [DecidableEq ι] {E : Surroundings σ} {left left' left'' : ι → Control α}
  {s s' s'' : σ} {h g : List Exchange}

theorem append (hrun : Together E left s h left' s') (hnext : Together E left' s' g left'' s'') :
    Together E left s (h ++ g) left'' s'' := by
  induction hrun with
  | stop left s => exact hnext
  | turn takes answer rest ih => exact .turn takes answer (ih hnext)

/-- One of the programs runs to its end, and the others wait. -/
theorem of_ends {i : ι} {p : Control α} {a : α} (he : Ends E p s h a s') (hp : left i = p) :
    Together E left s h (Function.update left i (.done a)) s' := by
  induction he generalizing left with
  | done a s =>
    rw [← hp, Function.update_eq_self]
    exact .stop left s
  | @ask r next x s s' s'' t a answer rest ih =>
    have htakes : Takes (left i) r (some x) (next x) := hp ▸ .ask r next x
    have hrest := ih (Function.update_self i (next x) left)
    rw [Function.update_idem] at hrest
    exact .turn htakes answer hrest
  | @askBy deadline r next x s s' s'' t a answer rest ih =>
    have htakes : Takes (left i) r x (next x) := by
      rw [hp]
      cases x with
      | none => exact .late deadline r next
      | some x => exact .inTime deadline r next x
    have hrest := ih (Function.update_self i (next x) left)
    rw [Function.update_idem] at hrest
    exact .turn htakes answer hrest

/-- What holds at the start is kept if each answer keeps it, and answers are then as expected. -/
theorem keeps {F : Surroundings Unit} {P : Request → Prop} {C : Exchange → Prop} {I : σ → Prop}
    (hstep : ∀ r s x s', P r → C ⟨r, x⟩ → I s → E r s x s' → F r () x () ∧ I s')
    (hleft : ∀ i, Meets F (fun _ r => P r) (fun _ _ => True) (left i) ()) (hs : I s)
    (hC : ∀ x ∈ h, C x) (hrun : Together E left s h left' s') :
    I s' ∧ ∀ x ∈ h, P x.request ∧ F x.request () x.reply () := by
  induction hrun with
  | stop left s => exact ⟨hs, fun _ hx => absurd hx List.not_mem_nil⟩
  | @turn left left' i r x p s s' s'' h takes answer rest ih =>
    obtain ⟨hx, hrest⟩ := List.forall_mem_cons.1 hC
    have hr : P r := (hleft i).asks takes
    obtain ⟨hexpected, hkept⟩ := hstep r s x s' hr hx hs answer
    have hnext : ∀ j, Meets F (fun _ r => P r) (fun _ _ => True)
        (Function.update left i p j) () := by
      intro j
      by_cases hj : j = i
      · subst hj
        rw [Function.update_self]
        exact (hleft j).takes takes hexpected
      · rw [Function.update_of_ne hj]
        exact hleft j
    obtain ⟨hend, hall⟩ := ih hnext hkept hrest
    exact ⟨hend, List.forall_mem_cons.2 ⟨⟨hr, hexpected⟩, hall⟩⟩

end Together

end PodRoutes
