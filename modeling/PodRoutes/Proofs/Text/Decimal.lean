import Mathlib.Algebra.Group.Nat.Defs
import Mathlib.Data.List.Induction
import PodRoutes.Text.Decimal

/-!
# Numerals of any width

A row of digits is the numeral of its value, filled up with zeros to its length (`padded_value`).
So the readers take exactly such rows (`read?_eq_some_iff`, `readPlus?_eq_some_iff`).
-/

namespace PodRoutes.Decimal

/-! ### Numerals of a given width -/

theorem isDigit_of_mem_padded {width n : Nat} {c : Char} (h : c ∈ padded width n) :
    c.isDigit = true := by
  rcases List.mem_append.1 h with h | h
  · rw [List.eq_of_mem_replicate h]
    decide
  · exact isDigit_of_mem_write h

theorem all_isDigit_padded (width n : Nat) : (padded width n).all Char.isDigit = true :=
  List.all_eq_true.2 fun _ hc => isDigit_of_mem_padded hc

theorem padded_ne_nil (width n : Nat) : padded width n ≠ [] := fun h =>
  write_ne_nil n (List.append_eq_nil_iff.1 h).2

theorem length_padded {width n : Nat} (hw : 0 < width) (hn : n < 10 ^ width) :
    (padded width n).length = width := by
  have hle : (write n).length ≤ width := (Nat.length_toDigits_le_iff (by decide) hw).2 hn
  rw [padded, List.length_append, List.length_replicate]
  omega

theorem value_replicate_append (k : Nat) (cs : List Char) :
    value (List.replicate k '0' ++ cs) = value cs := by
  induction k with
  | zero => rfl
  | succ k ih =>
    rw [List.replicate_succ, List.cons_append, value, Nat.ofDigitChars_cons]
    exact ih

theorem value_padded (width n : Nat) : value (padded width n) = n := by
  rw [padded, value_replicate_append, value_write]

theorem read?_padded (width n : Nat) : read? (padded width n) = some n := by
  rw [read?, if_pos ⟨padded_ne_nil width n, all_isDigit_padded width n⟩, value_padded]

/-! ### Rows of digits -/

theorem value_concat (cs : List Char) (c : Char) :
    value (cs ++ [c]) = 10 * value cs + (c.toNat - 48) := by
  rw [value, Nat.ofDigitChars_append, Nat.ofDigitChars_cons, Nat.ofDigitChars_nil]
  rfl

theorem value_lt {cs : List Char} (h : cs.all Char.isDigit = true) :
    value cs < 10 ^ cs.length := by
  induction cs using List.reverseRecOn with
  | nil => decide
  | append_singleton cs c ih =>
    rw [List.all_append, Bool.and_eq_true] at h
    have hcs := ih h.1
    have hc : 48 ≤ c.toNat ∧ c.toNat ≤ 57 := Char.isDigit_iff_toNat.1 (by simpa using h.2)
    rw [value_concat, List.length_append, List.length_singleton, Nat.pow_succ]
    omega

theorem eq_of_value_eq {cs ds : List Char} (hcs : cs.all Char.isDigit = true)
    (hds : ds.all Char.isDigit = true) (hlength : cs.length = ds.length)
    (hvalue : value cs = value ds) : cs = ds := by
  induction cs using List.reverseRecOn generalizing ds with
  | nil => exact (List.eq_nil_of_length_eq_zero hlength.symm).symm
  | append_singleton cs c ih =>
    obtain ⟨ds, d, rfl⟩ : ∃ es e, ds = es ++ [e] := by
      rcases List.eq_nil_or_concat ds with rfl | ⟨es, e, he⟩
      · simp at hlength
      · exact ⟨es, e, by simpa using he⟩
    rw [List.all_append, Bool.and_eq_true] at hcs hds
    have hc : 48 ≤ c.toNat ∧ c.toNat ≤ 57 := Char.isDigit_iff_toNat.1 (by simpa using hcs.2)
    have hd : 48 ≤ d.toNat ∧ d.toNat ≤ 57 := Char.isDigit_iff_toNat.1 (by simpa using hds.2)
    rw [value_concat, value_concat] at hvalue
    have hfront : cs = ds := ih hcs.1 hds.1 (by simpa using hlength) (by omega)
    have hback : c = d := Char.toNat_inj.1 (by omega)
    rw [hfront, hback]

/-- A row of digits is the numeral of its value, with zeros in front. -/
theorem padded_value {cs : List Char} (hne : cs ≠ []) (h : cs.all Char.isDigit = true) :
    padded cs.length (value cs) = cs := by
  have hlength : (padded cs.length (value cs)).length = cs.length :=
    length_padded (List.length_pos_iff.2 hne) (value_lt h)
  exact eq_of_value_eq (all_isDigit_padded _ _) h hlength (value_padded _ _)

/-- Without a zero in front a row of digits is the plain numeral of its value. -/
theorem write_value {cs : List Char} (hne : cs ≠ []) (h : cs.all Char.isDigit = true)
    (hlead : cs.head? = some '0' → cs.length = 1) : write (value cs) = cs := by
  have hpadded := padded_value hne h
  rw [padded] at hpadded
  cases hzeros : cs.length - (write (value cs)).length with
  | zero => simpa [hzeros] using hpadded
  | succ zeros =>
    have hhead : cs.head? = some '0' := by
      rw [← hpadded, hzeros]
      rfl
    have hpos := List.length_pos_iff.2 (write_ne_nil (value cs))
    have hone := hlead hhead
    omega

theorem all_isDigit_write (n : Nat) : (write n).all Char.isDigit = true :=
  List.all_eq_true.2 fun _ hc => isDigit_of_mem_write hc

/-- Only zero itself is written with a zero in front. -/
theorem length_write_of_head {n : Nat} (h : (write n).head? = some '0') : (write n).length = 1 := by
  have hall := all_isDigit_write n
  have hvalue := value_write n
  cases hwrite : write n with
  | nil => exact absurd hwrite (write_ne_nil n)
  | cons d ds =>
    rw [hwrite] at h hall hvalue
    obtain rfl : d = '0' := by simpa using h
    cases ds with
    | nil => rfl
    | cons c ds =>
      have htail : (c :: ds).all Char.isDigit = true := by simpa using hall
      have hlt : n < 10 ^ (c :: ds).length := by
        rw [← hvalue]
        exact value_lt htail
      have hlength : (write n).length ≤ (c :: ds).length :=
        (Nat.length_toDigits_le_iff (by decide) (Nat.succ_pos _)).2 hlt
      rw [hwrite] at hlength
      exact absurd hlength (Nat.not_succ_le_self _)

/-! ### What the readers take -/

theorem read?_eq_some_iff {cs : List Char} {n : Nat} :
    read? cs = some n ↔ ∃ width, cs = padded width n := by
  constructor
  · intro h
    rw [read?] at h
    split at h
    · next hrow =>
      cases h
      exact ⟨cs.length, (padded_value hrow.1 hrow.2).symm⟩
    · cases h
  · rintro ⟨width, rfl⟩
    exact read?_padded width n

theorem plus_not_mem_padded (width n : Nat) : '+' ∉ padded width n := fun h =>
  absurd (isDigit_of_mem_padded h) (by decide)

theorem readPlus?_of_not_mem {cs : List Char} (h : '+' ∉ cs) : readPlus? cs = read? cs := by
  cases cs with
  | nil => rfl
  | cons c cs =>
    have hc : c ≠ '+' := by
      rintro rfl
      exact h (List.mem_cons_self ..)
    simp [readPlus?, hc]

theorem readPlus?_eq_some_iff {cs : List Char} {n : Nat} :
    readPlus? cs = some n ↔ ∃ width, cs = padded width n ∨ cs = '+' :: padded width n := by
  constructor
  · intro h
    rw [readPlus?.eq_def] at h
    split at h
    · obtain ⟨width, rfl⟩ := read?_eq_some_iff.1 h
      exact ⟨width, .inr rfl⟩
    · obtain ⟨width, rfl⟩ := read?_eq_some_iff.1 h
      exact ⟨width, .inl rfl⟩
  · rintro ⟨width, rfl | rfl⟩
    · rw [readPlus?_of_not_mem (plus_not_mem_padded width n), read?_padded]
    · exact read?_padded width n

end PodRoutes.Decimal
