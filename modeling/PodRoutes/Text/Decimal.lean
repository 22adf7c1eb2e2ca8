/-!
# Decimal numerals

Unsigned numbers in base ten, read and written over lists of characters. The writer gives no
leading zeros; the readers say for themselves which spellings they take. The main statement is
that reading undoes writing (`read?_write`).
-/

namespace PodRoutes.Decimal

/-! ### Writing -/

def write (n : Nat) : List Char := Nat.toDigits 10 n

def text (n : Nat) : String := String.ofList (write n)

def padded (width n : Nat) : List Char :=
  List.replicate (width - (write n).length) '0' ++ write n

theorem write_ne_nil (n : Nat) : write n ≠ [] := by
  intro h
  have := @Nat.length_toDigits_pos 10 n
  rw [write] at h
  rw [h] at this
  exact Nat.lt_irrefl 0 this

theorem isDigit_of_mem_write {n : Nat} {c : Char} (h : c ∈ write n) : c.isDigit = true :=
  Nat.isDigit_of_mem_toDigits (by decide) (by decide) h

/-- One, followed by a number of zeros. -/
def scale (zeros : Nat) : Nat := Nat.pow 10 zeros

/-! ### Reading -/

def value (digits : List Char) : Nat := Nat.ofDigitChars 10 digits 0

/-- Reads a nonempty row of ASCII digits; leading zeros are allowed. -/
def read? (cs : List Char) : Option Nat :=
  if cs ≠ [] ∧ cs.all Char.isDigit then some (value cs) else none

/-- Reads a numeral that may have one plus sign in front of it. -/
def readPlus? : List Char → Option Nat
  | '+' :: cs => read? cs
  | cs => read? cs

theorem value_write (n : Nat) : value (write n) = n :=
  Nat.ofDigitChars_toDigits (by decide) (by decide)

theorem read?_write (n : Nat) : read? (write n) = some n := by
  have h : (write n).all Char.isDigit = true :=
    List.all_eq_true.2 fun _ hc => isDigit_of_mem_write hc
  simp [read?, write_ne_nil, h, value_write]

theorem readPlus?_write (n : Nat) : readPlus? (write n) = some n := by
  have h := read?_write n
  have hd : ∀ c ∈ write n, c.isDigit = true := fun _ hc => isDigit_of_mem_write hc
  cases hw : write n with
  | nil => exact absurd hw (write_ne_nil n)
  | cons c cs =>
    have hc : c.isDigit = true := hd c (by simp [hw])
    have hne : c ≠ '+' := by rintro rfl; revert hc; decide
    rw [hw] at h
    simp [readPlus?, h, hne]

theorem write_injective {m n : Nat} (h : write m = write n) : m = n := by
  rw [← value_write m, ← value_write n, h]

end PodRoutes.Decimal
