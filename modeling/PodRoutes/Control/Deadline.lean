import PodRoutes.Control.Basic

/-!
# Deadlines

A program under a deadline asks each of its requests up to that deadline. When a reply is late the
rest of the program is dropped, except that a lock it holds is given back.
-/

namespace PodRoutes.Control

def holdsAfter (held : Bool) : Request → Bool
  | .lock => true
  | .unlock => false
  | _ => held

def cutOff (held : Bool) : Control (Option α) :=
  if held then do unlock; return none else pure none

/-- The program under a deadline; `none` when it is cut off. -/
def bounded (deadline : Nat) : Bool → Control α → Control (Option α)
  | _, .done a => .done (some a)
  | held, .ask r k => .askBy deadline r fun
    | none => cutOff held
    | some x => bounded deadline (holdsAfter held r) (k x)
  | held, .askBy d r k =>
    if d ≤ deadline then .askBy d r fun
      | none => bounded deadline held (k none)
      | some x => bounded deadline (holdsAfter held r) (k (some x))
    else .askBy deadline r fun
      | none => cutOff held
      | some x => bounded deadline (holdsAfter held r) (k (some x))

/-- The program under a limit of milliseconds from its start. -/
def within (limit : Nat) (p : Control α) : Control (Option α) := do
  let start ← now
  bounded (start + limit) false p

end PodRoutes.Control
