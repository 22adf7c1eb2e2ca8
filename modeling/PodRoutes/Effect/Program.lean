/-!
# Programs that ask their surroundings

A program is a tree of requests. Each request has its own type of replies, and the reply chooses
the rest of the program. A request may be asked up to a deadline; the reply is then missing if it
does not come in time. A handler gives the replies, and `Program.run` follows one branch of the
tree with it.
-/

namespace PodRoutes

/-- What a program may ask, and what it gets in reply. -/
structure Interface where
  Request : Type
  Reply : Request → Type

/-- A program over an interface with a result. -/
inductive Program (I : Interface) (α : Type) : Type where
  | done (result : α)
  | ask (request : I.Request) (next : I.Reply request → Program I α)
  | askBy (deadline : Nat) (request : I.Request) (next : Option (I.Reply request) → Program I α)

namespace Program

variable {I : Interface} {α β γ σ : Type}

/-! ### Composition -/

def bind : Program I α → (α → Program I β) → Program I β
  | done a, f => f a
  | ask r k, f => ask r fun x => (k x).bind f
  | askBy d r k, f => askBy d r fun x => (k x).bind f

instance : Monad (Program I) where
  pure := done
  bind := bind

def request (r : I.Request) : Program I (I.Reply r) := ask r done

@[simp] theorem pure_eq (a : α) : (pure a : Program I α) = done a := rfl

@[simp] theorem done_bind (a : α) (f : α → Program I β) : done a >>= f = f a := rfl

@[simp] theorem ask_bind (r : I.Request) (k : I.Reply r → Program I α) (f : α → Program I β) :
    ask r k >>= f = ask r fun x => k x >>= f := rfl

@[simp] theorem askBy_bind (d : Nat) (r : I.Request) (k : Option (I.Reply r) → Program I α)
    (f : α → Program I β) : askBy d r k >>= f = askBy d r fun x => k x >>= f := rfl

@[simp] theorem request_bind (r : I.Request) (f : I.Reply r → Program I β) :
    request r >>= f = ask r f := rfl

theorem bind_done (p : Program I α) : p >>= done = p := by
  induction p with
  | done a => rfl
  | ask r k ih => exact congrArg (ask r) (funext ih)
  | askBy d r k ih => exact congrArg (askBy d r) (funext ih)

theorem bind_assoc (p : Program I α) (f : α → Program I β) (g : β → Program I γ) :
    p >>= f >>= g = p >>= fun a => f a >>= g := by
  induction p with
  | done a => rfl
  | ask r k ih => exact congrArg (ask r) (funext ih)
  | askBy d r k ih => exact congrArg (askBy d r) (funext ih)

instance : LawfulMonad (Program I) :=
  LawfulMonad.mk' (Program I) (fun p => bind_done p) (fun _ _ => rfl) bind_assoc

/-! ### Running -/

structure Handler (I : Interface) (σ : Type) where
  reply : (r : I.Request) → σ → I.Reply r × σ
  replyBy : (deadline : Nat) → (r : I.Request) → σ → Option (I.Reply r) × σ

/-- The result of a program with the replies of a handler, and the state after it. -/
def run (h : Handler I σ) : Program I α → σ → α × σ
  | done a, s => (a, s)
  | ask r k, s =>
    let (x, s) := h.reply r s
    (k x).run h s
  | askBy d r k, s =>
    let (x, s) := h.replyBy d r s
    (k x).run h s

variable (h : Handler I σ)

@[simp] theorem run_done (a : α) (s : σ) : (done a : Program I α).run h s = (a, s) := rfl

@[simp] theorem run_ask (r : I.Request) (k : I.Reply r → Program I α) (s : σ) :
    (ask r k).run h s = (k (h.reply r s).1).run h (h.reply r s).2 := rfl

@[simp] theorem run_askBy (d : Nat) (r : I.Request) (k : Option (I.Reply r) → Program I α)
    (s : σ) : (askBy d r k).run h s = (k (h.replyBy d r s).1).run h (h.replyBy d r s).2 := rfl

theorem run_bind (p : Program I α) (f : α → Program I β) (s : σ) :
    (p >>= f).run h s = (f (p.run h s).1).run h (p.run h s).2 := by
  induction p generalizing s with
  | done a => rfl
  | ask r k ih => exact ih _ _
  | askBy d r k ih => exact ih _ _

end Program

end PodRoutes
