import Mathlib.Data.List.Chain
import Mathlib.Logic.Relation
import PodRoutes.Web.Basic

/-!
# Runs of a client

A service says how a request may be answered and what that changes, and may leave both open.
Between the requests of a client the service is changed by others. `Web.Ends` is a run of a client
from its start to its result, with what it asked and the service before and after each answer.
`Web.Begins` is one that may stop anywhere, and `Web.Returns` one of a service nobody else changes.
-/

namespace PodRoutes

/-- The same program over another interface, each request carried out by a program there. -/
def Program.over {I J : Interface} {α : Type} (carry : (r : I.Request) → Program J (I.Reply r)) :
    Program I α → Program J α
  | .done a => .done a
  | .ask r next => carry r >>= fun x => (next x).over carry
  | .askBy _ r next => carry r >>= fun x => (next (some x)).over carry

namespace Web

/-- How a service in some state may answer a request, and its state after that. -/
abbrev Service (σ : Type) : Type := (r : Request) → σ → Reply r → σ → Prop

/-- A request with the state in which it was served, the answer and the state after that. A request
that was given up has no answer. -/
structure Turn (σ : Type) where
  request : Request
  before : σ
  reply : Option (Reply request)
  after : σ

variable {σ α β : Type} {S : Service σ} {D : σ → σ → Prop}

inductive Ends (S : Service σ) (D : σ → σ → Prop) :
    Web α → σ → List (Turn σ) → α → σ → Prop
  | done (a : α) (s : σ) : Ends S D (.done a) s [] a s
  | drift {p : Web α} {s s' s'' : σ} {t : List (Turn σ)} {a : α} (others : D s s')
      (rest : Ends S D p s' t a s'') : Ends S D p s t a s''
  | ask {r : Request} {next : Reply r → Web α} {x : Reply r} {s s' s'' : σ} {t : List (Turn σ)}
      {a : α} (answer : S r s x s') (rest : Ends S D (next x) s' t a s'') :
      Ends S D (.ask r next) s (⟨r, s, some x, s'⟩ :: t) a s''
  | inTime {deadline : Nat} {r : Request} {next : Option (Reply r) → Web α} {x : Reply r}
      {s s' s'' : σ} {t : List (Turn σ)} {a : α} (answer : S r s x s')
      (rest : Ends S D (next (some x)) s' t a s'') :
      Ends S D (.askBy deadline r next) s (⟨r, s, some x, s'⟩ :: t) a s''
  | late {deadline : Nat} {r : Request} {next : Option (Reply r) → Web α} {x : Reply r}
      {s s' s'' : σ} {t : List (Turn σ)} {a : α} (answer : S r s x s')
      (rest : Ends S D (next none) s' t a s'') :
      Ends S D (.askBy deadline r next) s (⟨r, s, none, s'⟩ :: t) a s''

open Relation (ReflTransGen)

namespace Ends

variable {p : Web α} {f : α → Web β} {s s' s'' : σ} {t : List (Turn σ)} {a : α} {b : β}

theorem drifts (h : ReflTransGen D s s') (rest : Ends S D p s' t a s'') : Ends S D p s t a s'' := by
  induction h using ReflTransGen.head_induction_on with
  | refl => exact rest
  | head step _ ih => exact .drift step ih

theorem drifts_last (h : Ends S D p s t a s') (hs : ReflTransGen D s' s'') :
    Ends S D p s t a s'' := by
  induction h with
  | done a s => exact drifts hs (.done a _)
  | drift others rest ih => exact .drift others (ih hs)
  | ask answer rest ih => exact .ask answer (ih hs)
  | inTime answer rest ih => exact .inTime answer (ih hs)
  | late answer rest ih => exact .late answer (ih hs)

theorem done_inv {a' : α} (h : Ends S D (.done a') s t a s'') :
    t = [] ∧ a' = a ∧ ReflTransGen D s s'' := by
  generalize hp : (Program.done a' : Web α) = p at h
  induction h with
  | done a s =>
    cases hp
    exact ⟨rfl, rfl, .refl⟩
  | drift others rest ih =>
    obtain ⟨ht, ha, hs⟩ := ih hp
    exact ⟨ht, ha, .head others hs⟩
  | ask | inTime | late => cases hp

/-- A request is served after what others do in the meantime. -/
theorem ask_inv {r : Request} {next : Reply r → Web α} (h : Ends S D (.ask r next) s t a s'') :
    ∃ x s₁ s₂ t', ReflTransGen D s s₁ ∧ S r s₁ x s₂ ∧ Ends S D (next x) s₂ t' a s'' ∧
      t = ⟨r, s₁, some x, s₂⟩ :: t' := by
  generalize hp : (Program.ask r next : Web α) = p at h
  induction h with
  | done => cases hp
  | drift others rest ih =>
    obtain ⟨x, s₁, s₂, t', hdrift, hrest⟩ := ih hp
    exact ⟨x, s₁, s₂, t', .head others hdrift, hrest⟩
  | ask answer rest =>
    cases hp
    exact ⟨_, _, _, _, .refl, answer, rest, rfl⟩
  | inTime | late => cases hp

theorem request_inv {r : Request} {f : Reply r → Web β}
    (h : Ends S D (Program.request (I := interface) r >>= f) s t b s'') :
    ∃ x s₁ s₂ t', ReflTransGen D s s₁ ∧ S r s₁ x s₂ ∧ Ends S D (f x) s₂ t' b s'' ∧
      t = ⟨r, s₁, some x, s₂⟩ :: t' := by
  have hask : Ends S D (.ask r f) s t b s'' := h
  exact hask.ask_inv

theorem askBy_inv {deadline : Nat} {r : Request} {next : Option (Reply r) → Web α}
    (h : Ends S D (.askBy deadline r next) s t a s'') :
    ∃ x y s₁ s₂ t', ReflTransGen D s s₁ ∧ S r s₁ x s₂ ∧ (y = none ∨ y = some x) ∧
      Ends S D (next y) s₂ t' a s'' ∧ t = ⟨r, s₁, y, s₂⟩ :: t' := by
  generalize hp : (Program.askBy deadline r next : Web α) = p at h
  induction h with
  | done => cases hp
  | drift others rest ih =>
    obtain ⟨x, y, s₁, s₂, t', hdrift, hrest⟩ := ih hp
    exact ⟨x, y, s₁, s₂, t', .head others hdrift, hrest⟩
  | ask => cases hp
  | inTime answer rest =>
    cases hp
    exact ⟨_, _, _, _, _, .refl, answer, .inr rfl, rest, rfl⟩
  | late answer rest =>
    cases hp
    exact ⟨_, _, _, _, _, .refl, answer, .inl rfl, rest, rfl⟩

theorem bind_inv (h : Ends S D (p >>= f) s t b s'') :
    ∃ t₁ a s' t₂, Ends S D p s t₁ a s' ∧ Ends S D (f a) s' t₂ b s'' ∧ t = t₁ ++ t₂ := by
  induction p generalizing s t with
  | done a => exact ⟨[], a, s, t, .done a s, h, rfl⟩
  | ask r next ih =>
    obtain ⟨x, s₁, s₂, t', hdrift, answer, rest, rfl⟩ := ask_inv h
    obtain ⟨t₁, a, s', t₂, h₁, h₂, rfl⟩ := ih x rest
    exact ⟨_, a, s', t₂, drifts hdrift (.ask answer h₁), h₂, rfl⟩
  | askBy d r next ih =>
    obtain ⟨x, y, s₁, s₂, t', hdrift, answer, hy, rest, rfl⟩ := askBy_inv h
    obtain ⟨t₁, a, s', t₂, h₁, h₂, rfl⟩ := ih y rest
    rcases hy with rfl | rfl
    · exact ⟨_, a, s', t₂, drifts hdrift (.late answer h₁), h₂, rfl⟩
    · exact ⟨_, a, s', t₂, drifts hdrift (.inTime answer h₁), h₂, rfl⟩

theorem bind {t₁ t₂ : List (Turn σ)} (hp : Ends S D p s t₁ a s') (hf : Ends S D (f a) s' t₂ b s'') :
    Ends S D (p >>= f) s (t₁ ++ t₂) b s'' := by
  induction hp with
  | done => exact hf
  | drift others rest ih => exact .drift others (ih hf)
  | ask answer rest ih => exact .ask answer (ih hf)
  | inTime answer rest ih => exact .inTime answer (ih hf)
  | late answer rest ih => exact .late answer (ih hf)

theorem map {g : α → β} (h : Ends S D p s t a s') :
    Ends S D (do return g (← p)) s t (g a) s' := by
  have hmap := h.bind (f := fun a => Program.done (g a)) (.done (g a) s')
  rwa [List.append_nil] at hmap

theorem map_inv {g : α → β} (h : Ends S D (do return g (← p)) s t b s'') :
    ∃ a, Ends S D p s t a s'' ∧ b = g a := by
  obtain ⟨t₁, a, s', t₂, hp, hdone, rfl⟩ := h.bind_inv
  obtain ⟨rfl, rfl, hdrift⟩ := hdone.done_inv
  rw [List.append_nil]
  exact ⟨a, hp.drifts_last hdrift, rfl⟩

theorem mono {D' : σ → σ → Prop} (h : Ends S D p s t a s') (hD : ∀ s s', D s s' → D' s s') :
    Ends S D' p s t a s' := by
  induction h with
  | done a s => exact .done a s
  | drift others rest ih => exact .drift (hD _ _ others) ih
  | ask answer rest ih => exact .ask answer ih
  | inTime answer rest ih => exact .inTime answer ih
  | late answer rest ih => exact .late answer ih

theorem head_of_alone (h : Ends S Eq p s t a s') : ∀ turn ∈ t.head?, turn.before = s := by
  induction h with
  | done a s => simp
  | drift others rest ih =>
    rw [others]
    exact ih
  | ask | inTime | late => simp

/-- Where nobody else acts, each request is served in the state in which the one before it ended. -/
theorem isChain (h : Ends S Eq p s t a s') :
    t.IsChain fun turn next => next.before = turn.after := by
  induction h with
  | done a s => exact .nil
  | drift others rest ih => exact ih
  | ask answer rest ih => exact List.isChain_cons.2 ⟨rest.head_of_alone, ih⟩
  | inTime answer rest ih => exact List.isChain_cons.2 ⟨rest.head_of_alone, ih⟩
  | late answer rest ih => exact List.isChain_cons.2 ⟨rest.head_of_alone, ih⟩

end Ends

/-! ### Runs without others -/

/-- What a client gets from a service that nobody else changes. -/
def Returns (S : Service σ) (p : Web α) (s : σ) (a : α) (s' : σ) : Prop := ∃ t, Ends S Eq p s t a s'

namespace Returns

variable {p : Web α} {f : α → Web β} {s s' s'' : σ} {a : α} {b : β}

theorem done (a : α) (s : σ) : Returns S (.done a) s a s := ⟨[], .done a s⟩

theorem request {r : Request} {x : Reply r} {f : Reply r → Web α} (answer : S r s x s')
    (rest : Returns S (f x) s' a s'') :
    Returns S (Program.request (I := interface) r >>= f) s a s'' := by
  obtain ⟨t, rest⟩ := rest
  exact ⟨_, .ask answer rest⟩

theorem bind (hp : Returns S p s a s') (hf : Returns S (f a) s' b s'') :
    Returns S (p >>= f) s b s'' := by
  obtain ⟨t₁, hp⟩ := hp
  obtain ⟨t₂, hf⟩ := hf
  exact ⟨t₁ ++ t₂, hp.bind hf⟩

theorem map {g : α → β} (h : Returns S p s a s') : Returns S (do return g (← p)) s (g a) s' := by
  obtain ⟨t, h⟩ := h
  exact ⟨t, h.map⟩

theorem done_inv {a' : α} (h : Returns S (.done a') s a s'') : a' = a ∧ s = s'' := by
  obtain ⟨t, h⟩ := h
  obtain ⟨-, ha, hs⟩ := h.done_inv
  rw [Relation.reflTransGen_eq_self] at hs
  exact ⟨ha, hs⟩

theorem request_inv {r : Request} {f : Reply r → Web α}
    (h : Returns S (Program.request (I := interface) r >>= f) s a s'') :
    ∃ x s', S r s x s' ∧ Returns S (f x) s' a s'' := by
  obtain ⟨t, h⟩ := h
  obtain ⟨x, s₁, s', t', hs, answer, rest, -⟩ := h.request_inv
  rw [Relation.reflTransGen_eq_self] at hs
  cases hs
  exact ⟨x, s', answer, t', rest⟩

theorem bind_inv (h : Returns S (p >>= f) s b s'') :
    ∃ a s', Returns S p s a s' ∧ Returns S (f a) s' b s'' := by
  obtain ⟨t, h⟩ := h
  obtain ⟨t₁, a, s', t₂, hp, hf, -⟩ := h.bind_inv
  exact ⟨a, s', ⟨t₁, hp⟩, ⟨t₂, hf⟩⟩

theorem map_inv {g : α → β} (h : Returns S (do return g (← p)) s b s'') :
    ∃ a, Returns S p s a s'' ∧ b = g a := by
  obtain ⟨a, s', hp, hdone⟩ := h.bind_inv
  obtain ⟨rfl, rfl⟩ := hdone.done_inv
  exact ⟨a, hp, rfl⟩

end Returns

/-! ### Unfinished runs -/

/-- A run of a client that may stop anywhere. -/
inductive Begins (S : Service σ) (D : σ → σ → Prop) : Web α → σ → List (Turn σ) → σ → Prop
  | stop (p : Web α) (s : σ) : Begins S D p s [] s
  | drift {p : Web α} {s s' s'' : σ} {t : List (Turn σ)} (others : D s s')
      (rest : Begins S D p s' t s'') : Begins S D p s t s''
  | ask {r : Request} {next : Reply r → Web α} {x : Reply r} {s s' s'' : σ} {t : List (Turn σ)}
      (answer : S r s x s') (rest : Begins S D (next x) s' t s'') :
      Begins S D (.ask r next) s (⟨r, s, some x, s'⟩ :: t) s''
  | inTime {deadline : Nat} {r : Request} {next : Option (Reply r) → Web α} {x : Reply r}
      {s s' s'' : σ} {t : List (Turn σ)} (answer : S r s x s')
      (rest : Begins S D (next (some x)) s' t s'') :
      Begins S D (.askBy deadline r next) s (⟨r, s, some x, s'⟩ :: t) s''
  | late {deadline : Nat} {r : Request} {next : Option (Reply r) → Web α} {x : Reply r}
      {s s' s'' : σ} {t : List (Turn σ)} (answer : S r s x s')
      (rest : Begins S D (next none) s' t s'') :
      Begins S D (.askBy deadline r next) s (⟨r, s, none, s'⟩ :: t) s''

theorem Ends.begins {p : Web α} {s s' : σ} {t : List (Turn σ)} {a : α} (h : Ends S D p s t a s') :
    Begins S D p s t s' := by
  induction h with
  | done a s => exact .stop _ s
  | drift others rest ih => exact .drift others ih
  | ask answer rest ih => exact .ask answer ih
  | inTime answer rest ih => exact .inTime answer ih
  | late answer rest ih => exact .late answer ih

/-- Every request of a client is of some kind, whatever it is answered. -/
inductive Asks (R : Request → Prop) : Web α → Prop
  | done (a : α) : Asks R (.done a)
  | ask {r : Request} {next : Reply r → Web α} (hr : R r) (rest : ∀ x, Asks R (next x)) :
      Asks R (.ask r next)
  | askBy {deadline : Nat} {r : Request} {next : Option (Reply r) → Web α} (hr : R r)
      (rest : ∀ x, Asks R (next x)) : Asks R (.askBy deadline r next)

namespace Asks

variable {R R' : Request → Prop} {p : Web α} {f : α → Web β}

theorem request {r : Request} {f : Reply r → Web α} (hr : R r) (hf : ∀ x, Asks R (f x)) :
    Asks R (Program.request (I := interface) r >>= f) := .ask hr hf

theorem bind (hp : Asks R p) (hf : ∀ a, Asks R (f a)) : Asks R (p >>= f) := by
  induction hp with
  | done a => exact hf a
  | ask hr rest ih => exact .ask hr ih
  | askBy hr rest ih => exact .askBy hr ih

theorem map {g : α → β} (hp : Asks R p) : Asks R (do return g (← p)) := hp.bind fun _ => .done _

theorem mono (hp : Asks R p) (h : ∀ r, R r → R' r) : Asks R' p := by
  induction hp with
  | done a => exact .done a
  | ask hr rest ih => exact .ask (h _ hr) ih
  | askBy hr rest ih => exact .askBy (h _ hr) ih

end Asks

namespace Begins

variable {p : Web α} {f : α → Web β} {s s' s'' : σ} {t : List (Turn σ)}

theorem done_inv {a : α} (h : Begins S D (.done a) s t s') : t = [] := by
  generalize hp : (Program.done a : Web α) = p at h
  induction h with
  | stop => rfl
  | drift others rest ih => exact ih hp
  | ask | inTime | late => cases hp

/-- The second program has not begun yet, or the first one is over. -/
theorem bind_inv (h : Begins S D (p >>= f) s t s'') :
    Begins S D p s t s'' ∨
      ∃ t₁ a s' t₂, Ends S D p s t₁ a s' ∧ Begins S D (f a) s' t₂ s'' ∧ t = t₁ ++ t₂ := by
  generalize hq : p >>= f = q at h
  induction h generalizing p with
  | stop q s => exact .inl (.stop p s)
  | drift others rest ih =>
    rcases ih hq with hpart | ⟨t₁, a, s', t₂, hp, hf, rfl⟩
    · exact .inl (.drift others hpart)
    · exact .inr ⟨t₁, a, s', t₂, .drift others hp, hf, rfl⟩
  | ask answer rest ih =>
    cases p with
    | done a => exact .inr ⟨[], a, _, _, .done a _, (show f a = _ from hq) ▸ .ask answer rest, rfl⟩
    | ask r next =>
      cases hq
      rcases ih rfl with hpart | ⟨t₁, a, s', t₂, hp, hf, rfl⟩
      · exact .inl (.ask answer hpart)
      · exact .inr ⟨_, a, s', t₂, .ask answer hp, hf, rfl⟩
    | askBy => cases hq
  | inTime answer rest ih =>
    cases p with
    | done a =>
      exact .inr ⟨[], a, _, _, .done a _, (show f a = _ from hq) ▸ .inTime answer rest, rfl⟩
    | ask => cases hq
    | askBy d r next =>
      cases hq
      rcases ih rfl with hpart | ⟨t₁, a, s', t₂, hp, hf, rfl⟩
      · exact .inl (.inTime answer hpart)
      · exact .inr ⟨_, a, s', t₂, .inTime answer hp, hf, rfl⟩
  | late answer rest ih =>
    cases p with
    | done a =>
      exact .inr ⟨[], a, _, _, .done a _, (show f a = _ from hq) ▸ .late answer rest, rfl⟩
    | ask => cases hq
    | askBy d r next =>
      cases hq
      rcases ih rfl with hpart | ⟨t₁, a, s', t₂, hp, hf, rfl⟩
      · exact .inl (.late answer hpart)
      · exact .inr ⟨_, a, s', t₂, .late answer hp, hf, rfl⟩

theorem asks {R : Request → Prop} (h : Begins S D p s t s') (hp : Asks R p) :
    ∀ turn ∈ t, R turn.request := by
  induction h with
  | stop p s => exact fun _ hturn => absurd hturn List.not_mem_nil
  | drift others rest ih => exact ih hp
  | ask answer rest ih =>
    cases hp with
    | ask hr hrest => exact List.forall_mem_cons.2 ⟨hr, ih (hrest _)⟩
  | inTime answer rest ih =>
    cases hp with
    | askBy hr hrest => exact List.forall_mem_cons.2 ⟨hr, ih (hrest _)⟩
  | late answer rest ih =>
    cases hp with
    | askBy hr hrest => exact List.forall_mem_cons.2 ⟨hr, ih (hrest _)⟩

end Begins

end Web

end PodRoutes
