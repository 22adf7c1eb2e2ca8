import PodRoutes.Json.Basic

/-!
# The range of binary floating point

A numeral is taken into a binary floating-point number of 64 bits in two steps: its digits as long
as they fit 64 bits, and the power of ten that is left. Both are rounded to 53 binary digits, a tie
to the even neighbour, and multiplied. A numeral is out of range when that product is too large;
no numeral is too small.
-/

namespace PodRoutes

namespace Double

/-- The nearest number with at most 53 binary digits; a tie goes to the even neighbour. -/
def nearest (n : Nat) : Nat :=
  let spare := n.log2 + 1 - 53
  let unit := 1 <<< spare
  let kept := n >>> spare
  let dropped := n - kept * unit
  if unit < 2 * dropped ∨ (unit = 2 * dropped ∧ kept % 2 = 1) then (kept + 1) * unit
  else kept * unit

/-- The least number that is rounded beyond the greatest finite one: half a unit above it. -/
def limit : Nat := (1 <<< 1024) - (1 <<< 970)

def greatestPower : Nat := 308

def isFinite (significand : Nat) (power : Int) : Bool :=
  significand = 0 || power < 0 ||
    (power ≤ greatestPower &&
      nearest significand * nearest (Decimal.scale power.toNat) < limit)

end Double

namespace Numeral

/-- The number that digits make, going on from a number, as long as it fits 64 bits; and how many
digits are left over. -/
def takeDigits (n : Nat) : List Char → Nat × Nat
  | [] => (n, 0)
  | c :: cs =>
    let next := n * 10 + Decimal.value [c]
    if next < UInt64.size then takeDigits next cs else (n, (c :: cs).length)

/-- The digits that fit 64 bits as a number, and the power of ten left. Digits before the point that
do not fit raise the power; digits after it that do not fit are dropped. -/
def significand (n : Numeral) : Nat × Int :=
  let (whole, raised) := takeDigits 0 (Decimal.write n.whole)
  let (all, dropped) := takeDigits whole n.fraction
  (all, n.exponent.getD 0 + raised - (n.fraction.length - dropped : Nat))

/-- Whether a numeral is in the range of binary floating point of 64 bits. -/
def isFinite (n : Numeral) : Bool := Double.isFinite n.significand.1 n.significand.2

end Numeral

end PodRoutes
