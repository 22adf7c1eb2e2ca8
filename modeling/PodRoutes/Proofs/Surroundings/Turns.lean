import PodRoutes.Proofs.Interleaving.Authority
import PodRoutes.Proofs.Interleaving.Pending

/-!
# Turns of nodes in passes and attempts

A pass and an attempt create, look up, remember and patch only in the turns of nodes that the store
has shown them. So what every request of such a turn meets, every request of a pass or an attempt
meets (`Turns.meets_duty`), as long as the surroundings do not take back what they have shown. Among
surroundings that note down what they say, a request is met at each place of a run
(`Meets.before_each`).
-/

namespace PodRoutes

open Control

/-- The request is none of those that only the turns of nodes make. -/
def Control.Request.OutsideTurns : Request → Prop
  | .createRoute _ _ | .findRoute _ | .remember _ _ | .patchNode _ _ _ => False
  | _ => True

theorem Control.Request.Removes.outsideTurns {r : Request} (h : r.Removes) : r.OutsideTurns := by
  cases r with
  | createRoute i c => exact h.elim
  | findRoute c => exact h.elim
  | remember name r => exact h.elim
  | patchNode name edit scope => exact h.elim
  | _ => trivial

/-- What has been shown stays so, and the turn of a shown node meets the contract. -/
structure Turns {σ : Type} (E : Surroundings σ) (P : σ → Request → Prop) (shown : σ → Node → Prop)
    (b : Backoff) : Prop where
  got : ∀ {name s n s'}, E (.getNode name) s (some (.ok (some n))) s' → shown s' n
  listed : ∀ {s stored s'}, E .listNodes s (some (.ok stored)) s' → ∀ n ∈ stored, shown s' n
  kept : ∀ {r s x s' n}, E r s x s' → shown s n → shown s' n
  turn : ∀ {s n} atHand, shown s n →
    Meets E P (fun _ _ => True) (Reconcile.syncNode b n atHand) s
  outside : ∀ {s r}, r.OutsideTurns → P s r

namespace Turns

variable {σ : Type} {E : Surroundings σ} {P : σ → Request → Prop} {shown : σ → Node → Prop}
  {b : Backoff} {settings : Settings} {nodes : List Node} {s : σ}

theorem keeps {α : Type} {p : Control α} {Q : σ → α → Prop} (h : Turns E P shown b)
    (hp : Meets E P Q p s) (hnodes : ∀ n ∈ nodes, shown s n) :
    Meets E P (fun s a => Q s a ∧ ∀ n ∈ nodes, shown s n) p s := by
  have hkept : Meets E (fun _ _ => True) (fun s _ => ∀ n ∈ nodes, shown s n) p s := by
    refine Meets.of_only (Only.any p) ?_ (fun _ _ _ _ => trivial) hnodes
    exact fun r s x s' _ hs hx n hn => h.kept hx (hs n hn)
  exact (hp.and hkept).mono (fun _ _ h => h.1) fun _ _ h => h

theorem meets_outside {α : Type} {R : Request → Prop} {p : Control α} (h : Turns E P shown b)
    (hp : Only R p) (hR : ∀ r, R r → r.OutsideTurns) (s : σ) :
    Meets E P (fun _ _ => True) p s :=
  Meets.of_only (I := fun _ => True) hp (fun _ _ _ _ _ _ _ => trivial)
    (fun _ r _ hr => h.outside (hR r hr)) trivial

theorem meets_syncNodes (h : Turns E P shown b) {atHand : List Route}
    (hnodes : ∀ n ∈ nodes, shown s n) :
    Meets E P (fun _ _ => True) (Reconcile.syncNodes settings b atHand nodes) s := by
  induction nodes generalizing s with
  | nil => trivial
  | cons n rest ih =>
    obtain ⟨hn, hrest⟩ := List.forall_mem_cons.1 hnodes
    have hturn : ∀ x s', E .now s (some x) s' → Meets E P (fun _ _ => True)
        (Reconcile.syncNode b n (some atHand)) s' := fun x s' hx => h.turn _ (h.kept hx hn)
    have hwithin := Meets.within (h.outside trivial) hturn (fun _ => h.outside trivial)
      settings.timeout
    exact Meets.bindThen (h.keeps hwithin hrest) fun _ _ hs => ih hs.2

theorem meets_dropConflicts (h : Turns E P shown b) :
    Meets E P (fun s x => ∀ nodes left, x = .ok (nodes, left) → ∀ n ∈ nodes, shown s n)
      Reconcile.dropConflicts s := by
  have hremoves : ∀ r : Request, (r.Removes ∨ ∃ c, r = .evict c) → r.OutsideTurns := by
    rintro r (hr | ⟨c, rfl⟩)
    · exact hr.outsideTurns
    · trivial
  refine Meets.askThen (h.outside trivial) fun x s' hx => ?_
  rcases x with e | stored
  · exact nofun
  have hstored : ∀ n ∈ stored.filter fun n => !n.isExcluded, shown s' n := fun n hn =>
    h.listed hx n (List.mem_filter.1 hn).1
  refine Meets.askThen (h.outside trivial) fun x s'' hx => ?_
  rcases x with e | listed
  · exact nofun
  refine Meets.bindThen (h.keeps (h.meets_outside Only.deleteConflicting hremoves s'')
    fun n hn => h.kept hx (hstored n hn)) ?_
  rintro t left ⟨-, hnodes⟩ nodes left' he
  cases he
  exact hnodes

theorem meets_syncRoutes (h : Turns E P shown b) (s : σ) :
    Meets E P (fun _ _ => True) (Reconcile.syncRoutes settings b) s := by
  have hwithin := Meets.within (E := E) (P := P) (s := s) (h.outside trivial)
    (fun _ s' _ => h.meets_dropConflicts (s := s')) (fun _ => h.outside trivial) settings.timeout
  refine Meets.bindThen hwithin fun t o ho => ?_
  rcases o with _ | (e | ⟨nodes, left⟩)
  · trivial
  · trivial
  · exact Meets.bindThen (h.meets_syncNodes (ho _ rfl nodes left rfl)) fun _ _ _ => trivial

theorem meets_reconcile (h : Turns E P shown b) (name : String) (s : σ) :
    Meets E P (fun _ _ => True) (Reconcile.reconcile settings b name) s := by
  unfold Reconcile.reconcile
  split
  · refine Meets.askThen (h.outside trivial) fun x s' hx => ?_
    rcases x with e | _ | n
    · trivial
    · exact h.meets_outside Only.removeRoute (fun _ hr => hr.outsideTurns) s'
    · refine Meets.bindThen (h.turn none (h.got hx)) fun t x _ => ?_
      cases x with
      | ok u => trivial
      | error e => exact ⟨h.outside trivial, fun _ _ _ => trivial⟩
  · trivial

theorem meets_duty (h : Turns E P shown b) (duty : Duty) (s : σ) :
    Meets E P (fun _ _ => True) (duty.program settings b) s := by
  cases duty with
  | attempt name => exact h.meets_reconcile name s
  | pass =>
    show Meets E P _ (Reconcile.reconcileAll settings b) s
    unfold Reconcile.reconcileAll
    split
    · refine Meets.askThen (h.outside trivial) fun start s' _ => ?_
      exact Meets.bindThen (h.meets_syncRoutes s') fun _ _ _ =>
        ⟨h.outside trivial, fun _ _ _ => trivial⟩
    · trivial

end Turns

/-! ### Surroundings that note down what they say -/

def Surroundings.Notes (E : Surroundings (List Exchange)) : Prop :=
  ∀ r t x t', E r t x t' → t' = t ++ [⟨r, x⟩]

theorem Ends.note {σ α : Type} {E : Surroundings σ} {F : Surroundings (List Exchange)}
    (hF : ∀ r s x s' u, E r s x s' → F r u x (u ++ [⟨r, x⟩])) {p : Control α} {s s' : σ}
    {t : List Exchange} {a : α} (h : Ends E p s t a s') (u : List Exchange) :
    Ends F p u t a (u ++ t) := by
  induction h generalizing u with
  | done a s =>
    rw [List.append_nil]
    exact .done a u
  | @ask r next x s s' s'' t a answer rest ih =>
    rw [← List.singleton_append, ← List.append_assoc]
    exact .ask (hF r s (some x) s' u answer) (ih _)
  | @askBy deadline r next x s s' s'' t a answer rest ih =>
    rw [← List.singleton_append, ← List.append_assoc]
    exact .askBy (hF r s x s' u answer) (ih _)

namespace Meets

variable {α : Type} {E : Surroundings (List Exchange)} {P : List Exchange → Request → Prop}
  {Q : List Exchange → α → Prop} {p : Control α} {t u u' : List Exchange} {a : α}

theorem before_cons {x : Exchange} (hfirst : P u x.request)
    (hrest : ∀ before y after, t = before ++ y :: after → P (u ++ [x] ++ before) y.request) :
    ∀ before y after, x :: t = before ++ y :: after → P (u ++ before) y.request := by
  intro before y after ht
  cases before with
  | nil =>
    cases ht
    simpa using hfirst
  | cons z before =>
    cases ht
    simpa using hrest before y after rfl

theorem before_each (hE : E.Notes) (h : Meets E P Q p u) (he : Ends E p u t a u') :
    ∀ before x after, t = before ++ x :: after → P (u ++ before) x.request := by
  induction he with
  | done a u => simp
  | ask answer rest ih =>
    obtain rfl := hE _ _ _ _ answer
    exact before_cons h.1 (ih (h.2 _ _ answer))
  | askBy answer rest ih =>
    obtain rfl := hE _ _ _ _ answer
    exact before_cons h.1 (ih (h.2 _ _ answer))

end Meets

end PodRoutes
