import PodRoutes.Text.Blank
import PodRoutes.Time.Instant

/-!
# Reading points in time

An instant is read from a date, a time and an offset, such as `2020-01-01T00:00:00.5+01:00`. The
reader is lenient: numbers may be short, blanks may stand before a number, a dash or a colon and at
both ends, and `UTC` stands for no offset. A second of 60 is a leap second, in any minute; the
offset moves whole minutes and so leaves it one.
-/

namespace PodRoutes.Instant.Reader

/-! ### Numbers and marks -/

def skipBlanks (cs : List Char) : List Char := cs.dropWhile Blank.isBlank

/-- The number in the digits at the start of a text, at least one and at most so many, and what
follows them. -/
def digits? (most : Nat) (cs : List Char) : Option (Nat × List Char) :=
  let digits := (cs.take most).takeWhile Char.isDigit
  (Decimal.read? digits).map (·, cs.drop digits.length)

def number? (low high : Nat) (cs : List Char) : Option (Nat × List Char) :=
  (digits? 2 (skipBlanks cs)).filter fun r => low ≤ r.1 ∧ r.1 ≤ high

def mark? (mark : Char) (cs : List Char) : Option (List Char) :=
  match skipBlanks cs with
  | c :: rest => if c = mark then some rest else none
  | [] => none

/-! ### Date -/

def year? (cs : List Char) : Option (Int × List Char) :=
  match skipBlanks cs with
  | '-' :: rest => (digits? rest.length rest).map fun r => (-(r.1 : Int), r.2)
  | '+' :: rest => (digits? rest.length rest).map fun r => ((r.1 : Int), r.2)
  | rest => (digits? 4 rest).map fun r => ((r.1 : Int), r.2)

def date? (cs : List Char) : Option (Int × List Char) := do
  let (year, cs) ← year? cs
  let (month, cs) ← number? 1 12 (← mark? '-' cs)
  let (day, cs) ← number? 1 (Calendar.daysInMonth year month) (← mark? '-' cs)
  if Calendar.firstYear ≤ year ∧ year ≤ Calendar.lastYear then
    some (Calendar.daysOfDate year month day, cs)
  else none

/-! ### Time of day -/

/-- The nanoseconds that the digits after a point stand for; digits after the ninth do not count. -/
def fractionNanos (digits : List Char) : Nat :=
  Decimal.value ((digits ++ List.replicate 9 '0').take 9)

def fraction? : List Char → Option (Nat × List Char)
  | '.' :: cs =>
    let digits := cs.takeWhile Char.isDigit
    if digits.isEmpty then none else some (fractionNanos digits, cs.dropWhile Char.isDigit)
  | cs => some (0, cs)

/-- A time of day as an instant of the first day. -/
def time? (cs : List Char) : Option (Instant × List Char) := do
  let (hour, cs) ← number? 0 23 cs
  let (minute, cs) ← number? 0 59 (← mark? ':' cs)
  let (second, cs) ← number? 0 60 (← mark? ':' cs)
  let (nanos, cs) ← fraction? cs
  let whole : Int := hour * 3600 + minute * 60
  if second = 60 then some (⟨whole + 59, nanosOfSecond + nanos⟩, cs)
  else some (⟨whole + second, nanos⟩, cs)

/-! ### Offset -/

def behind? : Char → Option Bool
  | '+' => some false
  | '-' => some true
  | '−' => some true
  | _ => none

def twoDigits? (high : Nat) : List Char → Option (Nat × List Char)
  | a :: b :: rest => do
    let n ← (Decimal.read? [a, b]).filter (· ≤ high)
    some (n, rest)
  | _ => none

/-- The hours and minutes of an offset, with colons and blanks between them, in seconds. -/
def distance? (cs : List Char) : Option (Nat × List Char) := do
  let (hours, cs) ← twoDigits? 23 cs
  let (minutes, cs) ← twoDigits? 59 (cs.dropWhile fun c => c = ':' || Blank.isBlank c)
  some (hours * 3600 + minutes * 60, cs)

def afterUtc? : List Char → Option (List Char)
  | a :: b :: c :: rest => if [a, b, c].map Char.toUpper = ['U', 'T', 'C'] then some rest else none
  | _ => none

def offset? (cs : List Char) : Option (Int × List Char) :=
  match afterUtc? cs, cs with
  | some rest, _ => some (0, rest)
  | none, 'Z' :: rest => some (0, rest)
  | none, 'z' :: rest => some (0, rest)
  | none, sign :: rest => do
    let behind ← behind? sign
    let (seconds, rest) ← distance? rest
    some (if behind then -(seconds : Int) else seconds, rest)
  | none, [] => none

/-! ### Instants -/

def afterSeparator? : List Char → Option (List Char)
  | c :: rest => if c = 'T' ∨ c = 't' ∨ c = ' ' then some rest else none
  | [] => none

end PodRoutes.Instant.Reader

namespace PodRoutes.Instant

open Reader

def parse? (s : String) : Option Instant := do
  let (days, cs) ← date? s.toList
  let (time, cs) ← time? (← afterSeparator? cs)
  let (offset, cs) ← offset? (skipBlanks cs)
  let second := days * 86400 + time.second - offset
  if Calendar.isKeptDay (second.fdiv 86400) ∧ skipBlanks cs = [] then some ⟨second, time.nanos⟩
  else none

end PodRoutes.Instant
