import PodRoutes.Text.Decimal
import PodRoutes.Time.Calendar

/-!
# Points in time

An instant is a second, counted from the start of 1970 in UTC, and the nanoseconds since that
second began. A leap second has no count of its own: it is the second before it going on, so that
its nanoseconds are a thousand million and more. Instants are compared by the second first
(`lt_iff`), hence a leap second lies after all of the second it prolongs and before the next one.
They are written in UTC with the fraction dropped.
-/

namespace PodRoutes

structure Instant where
  /-- The seconds from the start of 1970 in UTC. -/
  second : Int
  nanos : Nat := 0
deriving DecidableEq, Repr

namespace Instant

/-! ### Order -/

instance : LE Instant :=
  ⟨fun a b => a.second < b.second ∨ (a.second = b.second ∧ a.nanos ≤ b.nanos)⟩

instance : LT Instant :=
  ⟨fun a b => a.second < b.second ∨ (a.second = b.second ∧ a.nanos < b.nanos)⟩

instance (a b : Instant) : Decidable (a ≤ b) :=
  inferInstanceAs (Decidable (a.second < b.second ∨ (a.second = b.second ∧ a.nanos ≤ b.nanos)))

instance (a b : Instant) : Decidable (a < b) :=
  inferInstanceAs (Decidable (a.second < b.second ∨ (a.second = b.second ∧ a.nanos < b.nanos)))

theorem le_iff {a b : Instant} :
    a ≤ b ↔ a.second < b.second ∨ (a.second = b.second ∧ a.nanos ≤ b.nanos) := Iff.rfl

theorem lt_iff {a b : Instant} :
    a < b ↔ a.second < b.second ∨ (a.second = b.second ∧ a.nanos < b.nanos) := Iff.rfl

theorem not_lt_iff {a b : Instant} : ¬a < b ↔ b ≤ a := by
  rw [lt_iff, le_iff]
  omega

theorem le_trans {a b c : Instant} (hab : a ≤ b) (hbc : b ≤ c) : a ≤ c := by
  rw [le_iff] at hab hbc ⊢
  omega

/-! ### Later instants -/

def nanosOfSecond : Nat := 1000000000

def addMillis (x : Instant) (ms : Nat) : Instant :=
  let nanos := x.nanos + 1000000 * ms
  ⟨x.second + (nanos / nanosOfSecond : Nat), nanos % nanosOfSecond⟩

theorem addMillis_le_addMillis (x : Instant) {m n : Nat} (h : m ≤ n) :
    x.addMillis m ≤ x.addMillis n := by
  simp only [le_iff, addMillis, nanosOfSecond]
  omega

/-! ### Writing -/

def writeYear (year : Int) : List Char :=
  let digits := Decimal.padded 4 year.natAbs
  if year < 0 then '-' :: digits else if 9999 < year then '+' :: digits else digits

/-- The instant in UTC with whole seconds; a leap second is written as the sixtieth of its
minute where it prolongs the last one. -/
def write (x : Instant) : List Char :=
  let days := x.second.fdiv 86400
  let ofDay := (x.second - days * 86400).toNat
  let (year, month, day) := Calendar.dateOfDays days
  let second := ofDay % 60 + x.nanos / nanosOfSecond
  writeYear year ++ '-' :: Decimal.padded 2 month ++ '-' :: Decimal.padded 2 day ++
    'T' :: Decimal.padded 2 (ofDay / 3600) ++ ':' :: Decimal.padded 2 (ofDay / 60 % 60) ++
    ':' :: Decimal.padded 2 second ++ ['Z']

def text (x : Instant) : String := String.ofList x.write

end Instant

end PodRoutes
