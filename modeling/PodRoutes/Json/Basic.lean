import PodRoutes.Text.Decimal
import PodRoutes.Text.Hexadecimal

/-!
# JSON documents

A document keeps what its readers have to tell apart: the spelling of numbers, repeated keys of an
object in their order, and string literals with an unpaired surrogate escape, which are good
syntax but stand for no text. The writer is compact and escapes only what it must.
-/

namespace PodRoutes

structure Numeral where
  negative : Bool
  whole : Nat
  fraction : List Char
  exponent : Option Int
deriving DecidableEq, Repr

namespace Numeral

def ofNat (n : Nat) : Numeral := ⟨false, n, [], none⟩

/-- The number written as a plain unsigned integer, if it is written so. -/
def toNat? (n : Numeral) : Option Nat :=
  if n.negative ∨ n.fraction ≠ [] ∨ n.exponent ≠ none then none else some n.whole

def toRat (n : Numeral) : Rat :=
  let unit := Decimal.scale n.fraction.length
  let magnitude := ((n.whole * unit + Decimal.value n.fraction : Nat) : Rat) / (unit : Rat)
  let scaled := match n.exponent.getD 0 with
    | .ofNat e => magnitude * (Decimal.scale e : Rat)
    | .negSucc e => magnitude / (Decimal.scale (e + 1) : Rat)
  if n.negative then -scaled else scaled

def write (n : Numeral) : List Char :=
  let sign := if n.negative then ['-'] else []
  let fraction := if n.fraction.isEmpty then [] else '.' :: n.fraction
  let exponent := match n.exponent with
    | none => []
    | some (.ofNat e) => 'e' :: Decimal.write e
    | some (.negSucc e) => 'e' :: '-' :: Decimal.write (e + 1)
  sign ++ Decimal.write n.whole ++ fraction ++ exponent

end Numeral

/-- A document. A string or key is `none` when its literal holds an unpaired surrogate escape. -/
inductive Json where
  | null
  | bool (value : Bool)
  | number (numeral : Numeral)
  | string (value : Option String)
  | array (items : List Json)
  | object (members : List (Option String × Json))
deriving Inhabited, Repr

namespace Json

/-! ### Equality -/

mutual

def same : Json → Json → Bool
  | .null, .null => true
  | .bool a, .bool b => a = b
  | .number a, .number b => a = b
  | .string a, .string b => a = b
  | .array as, .array bs => sameItems as bs
  | .object as, .object bs => sameMembers as bs
  | _, _ => false

def sameItems : List Json → List Json → Bool
  | [], [] => true
  | a :: as, b :: bs => same a b && sameItems as bs
  | _, _ => false

def sameMembers : List (Option String × Json) → List (Option String × Json) → Bool
  | [], [] => true
  | (key, a) :: as, (key', b) :: bs => key = key' && same a b && sameMembers as bs
  | _, _ => false

end

mutual

theorem same_iff : ∀ a b : Json, same a b = true ↔ a = b
  | .null, b => by cases b <;> simp [same]
  | .bool _, b => by cases b <;> simp [same]
  | .number _, b => by cases b <;> simp [same]
  | .string _, b => by cases b <;> simp [same]
  | .array as, b => by cases b <;> simp [same, sameItems_iff as]
  | .object as, b => by cases b <;> simp [same, sameMembers_iff as]

theorem sameItems_iff : ∀ as bs : List Json, sameItems as bs = true ↔ as = bs
  | [], bs => by cases bs <;> simp [sameItems]
  | a :: as, bs => by cases bs <;> simp [sameItems, same_iff a, sameItems_iff as]

theorem sameMembers_iff :
    ∀ as bs : List (Option String × Json), sameMembers as bs = true ↔ as = bs
  | [], bs => by cases bs <;> simp [sameMembers]
  | (key, a) :: as, bs => by
    cases bs <;> simp [sameMembers, same_iff a, sameMembers_iff as, Prod.ext_iff]

end

instance : DecidableEq Json := fun a b => decidable_of_iff (same a b = true) (same_iff a b)

/-! ### Building -/

def text (s : String) : Json := .string (some s)

def nat (n : Nat) : Json := .number (.ofNat n)

def integer (n : Int) : Json := .number { Numeral.ofNat n.natAbs with negative := n < 0 }

def record (members : List (String × Json)) : Json :=
  .object (members.map fun m => (some m.1, m.2))

/-- The object with those members that are present. -/
def present (members : List (String × Option Json)) : Json :=
  record (members.filterMap fun m => m.2.map fun v => (m.1, v))

def ofOption (f : α → Json) : Option α → Json
  | none => .null
  | some a => f a

/-! ### Writing -/

def escape (c : Char) : List Char :=
  if c = '"' then ['\\', '"']
  else if c = '\\' then ['\\', '\\']
  else if c = '\x08' then ['\\', 'b']
  else if c = '\x0c' then ['\\', 'f']
  else if c = '\n' then ['\\', 'n']
  else if c = '\r' then ['\\', 'r']
  else if c = '\t' then ['\\', 't']
  else if c.toNat < 32 then '\\' :: 'u' :: Hexadecimal.fourDigits c.toNat
  else [c]

def escapeAll : List Char → List Char
  | [] => []
  | c :: cs => escape c ++ escapeAll cs

def writeString : Option String → List Char
  | some s => '"' :: (escapeAll s.toList ++ ['"'])
  | none => "\"\\ud800\"".toList

mutual

def write : Json → List Char
  | .null => "null".toList
  | .bool true => "true".toList
  | .bool false => "false".toList
  | .number n => n.write
  | .string s => writeString s
  | .array items => '[' :: (writeItems items ++ [']'])
  | .object members => '{' :: (writeMembers members ++ ['}'])

def writeItems : List Json → List Char
  | [] => []
  | [item] => write item
  | item :: rest => write item ++ ',' :: writeItems rest

def writeMembers : List (Option String × Json) → List Char
  | [] => []
  | [(key, value)] => writeString key ++ ':' :: write value
  | (key, value) :: rest => writeString key ++ ':' :: (write value ++ ',' :: writeMembers rest)

end

def render (j : Json) : String := String.ofList j.write

end Json

end PodRoutes
