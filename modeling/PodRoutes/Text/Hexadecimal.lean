/-!
# Hexadecimal numerals

Digits of either case are read, digits of one case are written. Writing and reading four digits
gives the number back (`number?_fourDigits`).
-/

namespace PodRoutes.Hexadecimal

def digit? (c : Char) : Option Nat :=
  if c.isDigit then some (c.toNat - '0'.toNat)
  else if 'a' ≤ c ∧ c ≤ 'f' then some (c.toNat - 'a'.toNat + 10)
  else if 'A' ≤ c ∧ c ≤ 'F' then some (c.toNat - 'A'.toNat + 10)
  else none

def number? (cs : List Char) : Option Nat :=
  cs.foldlM (fun n c => (digit? c).map (16 * n + ·)) 0

def lowerDigit (n : Nat) : Char := Nat.digitChar (n % 16)

def upperDigit (n : Nat) : Char := (lowerDigit n).toUpper

def fourDigits (n : Nat) : List Char :=
  [lowerDigit (n / 4096), lowerDigit (n / 256), lowerDigit (n / 16), lowerDigit n]

theorem digit?_lowerDigit (n : Nat) : digit? (lowerDigit n) = some (n % 16) := by
  have h : ∀ d : Fin 16, digit? (Nat.digitChar d.val) = some d.val := by decide
  exact h ⟨n % 16, Nat.mod_lt _ (by decide)⟩

theorem number?_fourDigits {n : Nat} (h : n < 65536) : number? (fourDigits n) = some n := by
  simp only [number?, fourDigits, List.foldlM_cons, List.foldlM_nil, digit?_lowerDigit,
    Option.map_some, Option.bind_eq_bind, Option.bind_some, Option.pure_def, Option.some.injEq]
  omega

end PodRoutes.Hexadecimal
