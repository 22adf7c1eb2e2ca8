import PodRoutes.Json.Basic

/-!
# Reading JSON

The reader is strict: one document, with nothing but blanks around it. String literals are read in
two steps, first into pieces (characters and surrogate halves), then halves are paired; a literal
with an unpaired half is good syntax and reads as `none`. The length of the text bounds the
recursion.
-/

namespace PodRoutes.Json

/-! ### Blanks and digits -/

def isBlank (c : Char) : Bool := c = ' ' || c = '\t' || c = '\n' || c = '\r'

def skipBlanks : List Char → List Char
  | [] => []
  | c :: cs => if isBlank c then skipBlanks cs else c :: cs

def spanDigits : List Char → List Char × List Char
  | [] => ([], [])
  | c :: cs =>
    if c.isDigit then
      let (digits, rest) := spanDigits cs
      (c :: digits, rest)
    else ([], c :: cs)

/-! ### String literals -/

/-- A piece of a string literal: a character, or a surrogate half that an escape names. -/
inductive Piece where
  | char (c : Char)
  | half (unit : Nat)
deriving DecidableEq

def Piece.ofUnit (n : Nat) : Piece :=
  if 0xD800 ≤ n ∧ n < 0xE000 then .half n else .char (Char.ofNat n)

def escaped? : Char → Option Char
  | '"' => some '"'
  | '\\' => some '\\'
  | '/' => some '/'
  | 'b' => some '\x08'
  | 'f' => some '\x0c'
  | 'n' => some '\n'
  | 'r' => some '\r'
  | 't' => some '\t'
  | _ => none

def pieces : List Char → Option (List Piece × List Char)
  | [] => none
  | '"' :: rest => some ([], rest)
  | '\\' :: 'u' :: a :: b :: c :: d :: rest => do
    let n ← Hexadecimal.number? [a, b, c, d]
    let (ps, after) ← pieces rest
    some (.ofUnit n :: ps, after)
  | '\\' :: e :: rest => do
    let c ← escaped? e
    let (ps, after) ← pieces rest
    some (.char c :: ps, after)
  | c :: rest =>
    if c = '\\' ∨ c.toNat < 32 then none else do
      let (ps, after) ← pieces rest
      some (.char c :: ps, after)

def pair? (high low : Nat) : Option Char :=
  if high < 0xDC00 ∧ 0xDC00 ≤ low then
    some (Char.ofNat (0x10000 + (high - 0xD800) * 0x400 + (low - 0xDC00)))
  else none

def assemble : List Piece → Option (List Char)
  | [] => some []
  | .char c :: ps => (assemble ps).map (c :: ·)
  | .half high :: .half low :: ps => do
    let c ← pair? high low
    (assemble ps).map (c :: ·)
  | .half _ :: _ => none

/-- The text of a literal whose opening quote has been read, and what follows it. -/
def literal (cs : List Char) : Option (Option String × List Char) := do
  let (ps, rest) ← pieces cs
  some ((assemble ps).map String.ofList, rest)

/-! ### Numbers -/

def fraction : List Char → Option (List Char × List Char)
  | '.' :: cs =>
    let (digits, rest) := spanDigits cs
    if digits.isEmpty then none else some (digits, rest)
  | cs => some ([], cs)

def exponentDigits (negative : Bool) (cs : List Char) : Option (Option Int × List Char) :=
  let (digits, rest) := spanDigits cs
  if digits.isEmpty then none else
    let e : Int := Decimal.value digits
    some (some (if negative then -e else e), rest)

def exponent : List Char → Option (Option Int × List Char)
  | [] => some (none, [])
  | c :: cs =>
    if c = 'e' ∨ c = 'E' then
      match cs with
      | '+' :: rest => exponentDigits false rest
      | '-' :: rest => exponentDigits true rest
      | _ => exponentDigits false cs
    else some (none, c :: cs)

/-- A number without its sign: no leading zeros, digits on both sides of a point. -/
def unsigned (negative : Bool) (cs : List Char) : Option (Json × List Char) := do
  let (whole, rest) := spanDigits cs
  if whole.isEmpty ∨ (whole.head? = some '0' ∧ whole.length ≠ 1) then none else
    let (digits, rest) ← fraction rest
    let (power, rest) ← exponent rest
    some (.number ⟨negative, Decimal.value whole, digits, power⟩, rest)

/-! ### Documents -/

mutual

def value : Nat → List Char → Option (Json × List Char)
  | 0, _ => none
  | fuel + 1, cs =>
    match skipBlanks cs with
    | 'n' :: 'u' :: 'l' :: 'l' :: rest => some (.null, rest)
    | 't' :: 'r' :: 'u' :: 'e' :: rest => some (.bool true, rest)
    | 'f' :: 'a' :: 'l' :: 's' :: 'e' :: rest => some (.bool false, rest)
    | '"' :: rest => (literal rest).map fun (s, after) => (.string s, after)
    | '[' :: rest =>
      match skipBlanks rest with
      | ']' :: after => some (.array [], after)
      | more => (items fuel more).map fun (vs, after) => (.array vs, after)
    | '{' :: rest =>
      match skipBlanks rest with
      | '}' :: after => some (.object [], after)
      | more => (members fuel more).map fun (ms, after) => (.object ms, after)
    | '-' :: rest => unsigned true rest
    | rest => unsigned false rest

def items : Nat → List Char → Option (List Json × List Char)
  | 0, _ => none
  | fuel + 1, cs => do
    let (v, rest) ← value fuel cs
    match skipBlanks rest with
    | ']' :: after => some ([v], after)
    | ',' :: more => do
      let (vs, after) ← items fuel more
      some (v :: vs, after)
    | _ => none

def members : Nat → List Char → Option (List (Option String × Json) × List Char)
  | 0, _ => none
  | fuel + 1, cs =>
    match skipBlanks cs with
    | '"' :: rest => do
      let (key, rest) ← literal rest
      match skipBlanks rest with
      | ':' :: rest => do
        let (v, rest) ← value fuel rest
        match skipBlanks rest with
        | '}' :: after => some ([(key, v)], after)
        | ',' :: more => do
          let (ms, after) ← members fuel more
          some ((key, v) :: ms, after)
        | _ => none
      | _ => none
    | _ => none

end

def parse? (s : String) : Option Json :=
  let cs := s.toList
  match value (2 * cs.length + 2) cs with
  | some (v, rest) => if (skipBlanks rest).isEmpty then some v else none
  | none => none

end PodRoutes.Json
