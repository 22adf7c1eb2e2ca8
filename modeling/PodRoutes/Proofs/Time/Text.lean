import Mathlib.Algebra.Group.Nat.Defs
import PodRoutes.Proofs.Text.Decimal
import PodRoutes.Proofs.Time.Calendar
import PodRoutes.Time.Reader

/-!
# Reading undoes writing

An instant that is written and read again is the same one with its fraction dropped
(`Instant.parse?_text`). This needs a date that is kept and a leap second at the end of a minute,
which all instants have that were read (`Instant.kept_of_parse?`).
-/

namespace PodRoutes

namespace Instant.Reader

/-! ### Numbers and marks -/

theorem isBlank_of_isDigit {c : Char} (h : c.isDigit = true) : Blank.isBlank c = false := by
  simp only [Char.isDigit, Bool.and_eq_true, decide_eq_true_eq, UInt32.le_iff_toNat_le] at h
  have hlow : 48 ≤ c.toNat := h.1
  have hhigh : c.toNat ≤ 57 := h.2
  rw [Bool.eq_false_iff]
  intro hblank
  simp only [Blank.isBlank, Blank.ranges, List.any_cons, List.any_nil, Bool.or_eq_true,
    Bool.and_eq_true, decide_eq_true_eq, Bool.false_eq_true, or_false] at hblank
  omega

theorem skipBlanks_cons {c : Char} (h : Blank.isBlank c = false) (cs : List Char) :
    skipBlanks (c :: cs) = c :: cs := by
  rw [skipBlanks, List.dropWhile_cons_of_neg (by simp [h])]

theorem skipBlanks_append {ds : List Char} (hne : ds ≠ []) (hds : ∀ c ∈ ds, c.isDigit = true)
    (rest : List Char) : skipBlanks (ds ++ rest) = ds ++ rest := by
  cases ds with
  | nil => exact absurd rfl hne
  | cons c cs => exact skipBlanks_cons (isBlank_of_isDigit (hds c (List.mem_cons_self ..))) _

/-- Digits are read to the end of their row, unless as many as may be are read before. -/
theorem digits?_append {most n : Nat} {ds rest : List Char} (hds : Decimal.read? ds = some n)
    (hall : ∀ c ∈ ds, c.isDigit = true) (hmost : ds.length ≤ most)
    (hstop : ds.length = most ∨ ∀ c ∈ rest.head?, c.isDigit = false) :
    digits? most (ds ++ rest) = some (n, rest) := by
  have htake : ((ds ++ rest).take most).takeWhile Char.isDigit = ds := by
    rw [List.take_append, List.take_of_length_le hmost, List.takeWhile_append_of_pos hall]
    rcases hstop with hfull | hend
    · rw [hfull, Nat.sub_self, List.take_zero, List.takeWhile_nil, List.append_nil]
    · cases rest with
      | nil => simp
      | cons c cs =>
        cases hleft : most - ds.length with
        | zero => simp
        | succ left => simp [hend c rfl]
  rw [digits?, htake, hds, List.drop_left]
  rfl

theorem number?_padded {low high n : Nat} (hlow : low ≤ n) (hhigh : n ≤ high) (hn : n < 100)
    (rest : List Char) : number? low high (Decimal.padded 2 n ++ rest) = some (n, rest) := by
  have hdigits : ∀ c ∈ Decimal.padded 2 n, c.isDigit = true :=
    fun _ hc => Decimal.isDigit_of_mem_padded hc
  have hlength : (Decimal.padded 2 n).length = 2 := Decimal.length_padded (by decide) hn
  have hne : Decimal.padded 2 n ≠ [] := by
    intro h
    rw [h] at hlength
    cases hlength
  rw [number?, skipBlanks_append hne hdigits,
    digits?_append (Decimal.read?_padded 2 n) hdigits (Nat.le_of_eq hlength) (.inl hlength)]
  simp [Option.filter, hlow, hhigh]

theorem mark?_cons {mark : Char} (h : Blank.isBlank mark = false) (cs : List Char) :
    mark? mark (mark :: cs) = some cs := by
  rw [mark?, skipBlanks_cons h]
  exact if_pos rfl

/-! ### Date -/

theorem year?_of_digit {c : Char} (hc : c.isDigit = true) (cs : List Char) :
    year? (c :: cs) = (digits? 4 (c :: cs)).map fun r => ((r.1 : Int), r.2) := by
  rw [year?, skipBlanks_cons (isBlank_of_isDigit hc)]
  split
  · rename_i hminus
    cases hminus
    exact absurd hc (by decide)
  · rename_i hplus
    cases hplus
    exact absurd hc (by decide)
  · rfl

theorem year?_writeYear (year : Int) (rest : List Char) :
    year? (writeYear year ++ '-' :: rest) = some (year, '-' :: rest) := by
  have hall : ∀ c ∈ Decimal.padded 4 year.natAbs, c.isDigit = true :=
    fun _ hc => Decimal.isDigit_of_mem_padded hc
  have hstop : ∀ c ∈ ('-' :: rest).head?, c.isDigit = false := by
    rintro c hc
    cases hc
    decide
  have hread : ∀ most, (Decimal.padded 4 year.natAbs).length ≤ most →
      digits? most (Decimal.padded 4 year.natAbs ++ '-' :: rest) =
        some (year.natAbs, '-' :: rest) :=
    fun most hmost => digits?_append (Decimal.read?_padded ..) hall hmost (.inr hstop)
  have hlength : (Decimal.padded 4 year.natAbs).length ≤
      (Decimal.padded 4 year.natAbs ++ '-' :: rest).length := by
    rw [List.length_append]
    exact Nat.le_add_right _ _
  rw [writeYear]
  by_cases hneg : year < 0
  · have hyear : -(year.natAbs : Int) = year := by omega
    rw [if_pos hneg, List.cons_append, year?, skipBlanks_cons (by decide)]
    simp only [hread _ hlength, Option.map_some, hyear]
  have hyear : (year.natAbs : Int) = year := by omega
  rw [if_neg hneg]
  by_cases hlong : 9999 < year
  · rw [if_pos hlong, List.cons_append, year?, skipBlanks_cons (by decide)]
    simp only [hread _ hlength, Option.map_some, hyear]
  · have hfour : (Decimal.padded 4 year.natAbs).length = 4 :=
      Decimal.length_padded (by decide) (by omega)
    have hfirst := hread 4 (Nat.le_of_eq hfour)
    rw [if_neg hlong]
    cases hds : Decimal.padded 4 year.natAbs with
    | nil => simp [hds] at hfour
    | cons c cs =>
      rw [hds] at hfirst hall
      rw [List.cons_append] at hfirst ⊢
      rw [year?_of_digit (hall c (List.mem_cons_self ..)), hfirst, Option.map_some, hyear]

/-- The date of a kept day is read back, whatever follows it. -/
theorem date?_write {days : Int} (h : Calendar.isKeptDay days = true) (rest : List Char) :
    date? (writeYear (Calendar.dateOfDays days).1 ++
      '-' :: (Decimal.padded 2 (Calendar.dateOfDays days).2.1 ++
        '-' :: (Decimal.padded 2 (Calendar.dateOfDays days).2.2 ++ rest))) = some (days, rest) := by
  obtain ⟨hm1, hm12⟩ := Calendar.dateOfDays_month days
  obtain ⟨hd1, hd⟩ := Calendar.dateOfDays_day days
  have hshort : Calendar.daysInMonth (Calendar.dateOfDays days).1
      (Calendar.dateOfDays days).2.1 ≤ 31 := Calendar.daysInMonth_le ..
  simp only [date?, year?_writeYear, mark?_cons (show Blank.isBlank '-' = false by decide),
    number?_padded hm1 hm12 (by omega), number?_padded hd1 hd (by omega), Option.bind_eq_bind,
    Option.bind_some, if_pos (Calendar.dateOfDays_year h), Calendar.daysOfDate_dateOfDays]

/-! ### Time of day -/

/-- The time of a second of the day is read back; a leap second has to end a minute. -/
theorem time?_write {ofDay nanos : Nat} (hday : ofDay < 86400) (hnanos : nanos < 2 * nanosOfSecond)
    (hleap : nanosOfSecond ≤ nanos → ofDay % 60 = 59) :
    time? (Decimal.padded 2 (ofDay / 3600) ++ ':' :: (Decimal.padded 2 (ofDay / 60 % 60) ++
      ':' :: (Decimal.padded 2 (ofDay % 60 + nanos / nanosOfSecond) ++ ['Z']))) =
      some (⟨ofDay, nanos / nanosOfSecond * nanosOfSecond⟩, ['Z']) := by
  have hover : nanos / nanosOfSecond = 0 ∨ nanos / nanosOfSecond = 1 ∧ ofDay % 60 = 59 := by
    rcases Nat.lt_or_ge nanos nanosOfSecond with h | h
    · exact .inl (Nat.div_eq_of_lt h)
    · exact .inr ⟨Nat.div_eq_of_lt_le (by simpa using h) (by simpa using hnanos), hleap h⟩
  have hcolon : Blank.isBlank ':' = false := by decide
  have hfraction : fraction? ['Z'] = some (0, ['Z']) := rfl
  have hsecond : ofDay % 60 + nanos / nanosOfSecond ≤ 60 := by omega
  simp only [time?, mark?_cons hcolon, number?_padded (Nat.zero_le _)
    (show ofDay / 3600 ≤ 23 by omega) (by omega), number?_padded (Nat.zero_le _)
    (show ofDay / 60 % 60 ≤ 59 by omega) (by omega), number?_padded (Nat.zero_le _) hsecond
    (by omega), hfraction, Option.bind_eq_bind, Option.bind_some]
  rcases hover with hzero | ⟨hone, hlast⟩
  · have hnot : ¬(ofDay % 60 + 0 = 60) := by omega
    have hwhole : ((ofDay / 3600 : Nat) : Int) * 3600 + ((ofDay / 60 % 60 : Nat) : Int) * 60 +
        ((ofDay % 60 + 0 : Nat) : Int) = ofDay := by omega
    rw [hzero, if_neg hnot, hwhole, Nat.zero_mul]
  · have hsixty : ofDay % 60 + 1 = 60 := by omega
    have hwhole : ((ofDay / 3600 : Nat) : Int) * 3600 + ((ofDay / 60 % 60 : Nat) : Int) * 60 +
        59 = ofDay := by omega
    rw [hone, if_pos hsixty, hwhole, Nat.one_mul, Nat.add_zero]

end Instant.Reader

/-! ### Instants -/

namespace Instant

open Reader

/-- The instant with its fraction dropped. -/
def wholeSeconds (x : Instant) : Instant :=
  ⟨x.second, x.nanos / nanosOfSecond * nanosOfSecond⟩

theorem text_wholeSeconds (x : Instant) : x.wholeSeconds.text = x.text := by
  have hnanos : x.nanos / nanosOfSecond * nanosOfSecond / nanosOfSecond =
      x.nanos / nanosOfSecond := Nat.mul_div_cancel _ (by decide)
  simp only [text, write, wholeSeconds, hnanos]

/-- An instant on a day that dates are kept for, in which a leap second ends a minute. -/
structure Kept (x : Instant) : Prop where
  day : Calendar.isKeptDay (x.second.fdiv 86400) = true
  nanos : x.nanos < 2 * nanosOfSecond
  leap : nanosOfSecond ≤ x.nanos → x.second % 60 = 59

theorem write_eq (x : Instant) {days : Int} {ofDay : Nat} (hdays : x.second.fdiv 86400 = days)
    (hofDay : (x.second - days * 86400).toNat = ofDay) :
    x.write = writeYear (Calendar.dateOfDays days).1 ++
      '-' :: (Decimal.padded 2 (Calendar.dateOfDays days).2.1 ++
        '-' :: (Decimal.padded 2 (Calendar.dateOfDays days).2.2 ++
          'T' :: (Decimal.padded 2 (ofDay / 3600) ++ ':' :: (Decimal.padded 2 (ofDay / 60 % 60) ++
            ':' :: (Decimal.padded 2 (ofDay % 60 + x.nanos / nanosOfSecond) ++ ['Z']))))) := by
  rw [write, hdays, hofDay]
  simp only [List.append_assoc, List.cons_append]

theorem parse?_text {x : Instant} (h : x.Kept) : parse? x.text = some x.wholeSeconds := by
  obtain ⟨days, hdays⟩ : ∃ days, x.second.fdiv 86400 = days := ⟨_, rfl⟩
  obtain ⟨ofDay, hofDay⟩ : ∃ ofDay, (x.second - days * 86400).toNat = ofDay := ⟨_, rfl⟩
  have hdiv : days = x.second / 86400 := by rw [← hdays, Int.fdiv_eq_ediv_of_nonneg _ (by decide)]
  have hday : ofDay < 86400 := by omega
  have hkept : Calendar.isKeptDay days = true := hdays ▸ h.day
  have hleap : nanosOfSecond ≤ x.nanos → ofDay % 60 = 59 := by
    intro hn
    have hlast := h.leap hn
    omega
  have hsecond : days * 86400 + (ofDay : Int) - 0 = x.second := by omega
  have hzone : offset? (skipBlanks ['Z']) = some (0, []) := rfl
  simp only [parse?, text, String.toList_ofList, write_eq x hdays hofDay, date?_write hkept,
    Option.bind_eq_bind, Option.bind_some, afterSeparator?, true_or, if_true,
    time?_write hday h.nanos hleap, hzone, hsecond, hdays, hkept]
  rfl

/-! ### What is read -/

theorem Reader.fractionNanos_lt {digits : List Char} (h : digits.all Char.isDigit = true) :
    fractionNanos digits < nanosOfSecond := by
  have hall : ((digits ++ List.replicate 9 '0').take 9).all Char.isDigit = true := by
    refine List.all_eq_true.2 fun c hc => ?_
    rcases List.mem_append.1 (List.mem_of_mem_take hc) with hc | hc
    · exact List.all_eq_true.1 h c hc
    · rw [List.eq_of_mem_replicate hc]
      decide
  have hlength : ((digits ++ List.replicate 9 '0').take 9).length = 9 := by simp
  have hlt := Decimal.value_lt hall
  rw [hlength] at hlt
  exact hlt

theorem Reader.fraction?_lt {cs rest : List Char} {nanos : Nat}
    (h : fraction? cs = some (nanos, rest)) : nanos < nanosOfSecond := by
  unfold fraction? at h
  split at h
  · simp only at h
    split at h
    · cases h
    · cases h
      exact fractionNanos_lt List.all_takeWhile
  · cases h
    decide

/-- A time of day is one that is kept, on whatever day. -/
theorem Reader.time?_kept {cs rest : List Char} {t : Instant} (h : time? cs = some (t, rest)) :
    t.nanos < 2 * nanosOfSecond ∧ (nanosOfSecond ≤ t.nanos → t.second % 60 = 59) := by
  simp only [time?, Option.bind_eq_bind, Option.bind_eq_some_iff] at h
  obtain ⟨⟨hour, cs₁⟩, -, cs₂, -, ⟨minute, cs₃⟩, -, cs₄, -, ⟨second, cs₅⟩, -, ⟨nanos, cs₆⟩,
    hfraction, h⟩ := h
  have hlt := fraction?_lt hfraction
  split at h
  · cases h
    refine ⟨by dsimp only; omega, fun _ => ?_⟩
    dsimp only
    omega
  · cases h
    exact ⟨by dsimp only; omega, fun hle => absurd hlt (Nat.not_lt.2 hle)⟩

theorem Reader.offset?_mod {cs rest : List Char} {offset : Int}
    (h : offset? cs = some (offset, rest)) : offset % 60 = 0 := by
  have hdistance : ∀ {cs rest : List Char} {seconds : Nat},
      distance? cs = some (seconds, rest) → seconds % 60 = 0 := by
    intro cs rest seconds h
    simp only [distance?, Option.bind_eq_bind, Option.bind_eq_some_iff] at h
    obtain ⟨⟨hours, cs₁⟩, -, ⟨minutes, cs₂⟩, -, h⟩ := h
    cases h
    omega
  unfold offset? at h
  split at h
  · cases h
    rfl
  · cases h
    rfl
  · cases h
    rfl
  · simp only [Option.bind_eq_bind, Option.bind_eq_some_iff] at h
    obtain ⟨behind, -, ⟨seconds, cs₁⟩, hseconds, h⟩ := h
    have hmod := hdistance hseconds
    cases h
    split <;> omega
  · cases h

theorem kept_of_parse? {s : String} {x : Instant} (h : parse? s = some x) : x.Kept := by
  simp only [parse?, Option.bind_eq_bind, Option.bind_eq_some_iff] at h
  obtain ⟨⟨days, cs₁⟩, -, cs₂, -, ⟨time, cs₃⟩, htime, ⟨offset, cs₄⟩, hoffset, h⟩ := h
  obtain ⟨hnanos, hleap⟩ := Reader.time?_kept htime
  have hminute := Reader.offset?_mod hoffset
  split at h
  · rename_i hkept
    cases h
    refine ⟨hkept.1, hnanos, fun hle => ?_⟩
    have hlast := hleap hle
    dsimp only
    omega
  · cases h

end Instant

end PodRoutes
