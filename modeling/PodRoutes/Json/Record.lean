import PodRoutes.Json.Reader
import PodRoutes.Table

/-!
# Records in JSON

A record is written as an object with its declared fields in any order, or as an array of their
values in the declared order. Other members of an object are ignored, a declared field given twice
is refused, and so are more array items than fields. `null` stands for no value of a field only
where the field's own reader takes it.
-/

namespace PodRoutes.Json

/-! ### Single values -/

def text? : Json → Option String
  | .string s => s
  | _ => none

def nat64? : Json → Option Nat
  | .number n => n.toNat?.filter (· < UInt64.size)
  | _ => none

/-- The value of an integer that fits 64 bits with sign; a negative zero is no integer. -/
def int64? : Json → Option Int
  | .number n =>
    match { n with negative := false }.toNat? with
    | some m =>
      if n.negative then (if 0 < m ∧ m ≤ Int64.size / 2 then some (-(m : Int)) else none)
      else if m < Int64.size / 2 then some m else none
    | none => none
  | _ => none

def bool? : Json → Option Bool
  | .bool b => some b
  | _ => none

def nullable? (read : Json → Option α) : Json → Option (Option α)
  | .null => some none
  | j => (read j).map some

def list? (read : Json → Option α) : Json → Option (List α)
  | .array items => items.mapM read
  | _ => none

def keyed? (member : Option String × Json) : Option (String × Json) :=
  member.1.map (·, member.2)

def members? : Json → Option (List (String × Json))
  | .object ms => ms.mapM keyed?
  | _ => none

/-- An object as a map from keys to values; of a repeated key the last value counts. -/
def table? (read : Json → Option α) (j : Json) : Option (Table α) := do
  let ms ← j.members?
  let entries ← ms.mapM fun m => (read m.2).map (m.1, ·)
  some (Table.ofList entries)

/-! ### Records -/

/-- The value given for a field under one of its spellings, unless it is given twice. -/
def field? (spellings : List String) (ms : List (String × Json)) : Option (Option Json) :=
  match ms.filter fun m => spellings.contains m.1 with
  | [] => some none
  | [m] => some (some m.2)
  | _ => none

def fields? (declared : List (List String)) (j : Json) : Option (List (Option Json)) :=
  match j with
  | .array items =>
    if items.length ≤ declared.length then
      some (items.map some ++ List.replicate (declared.length - items.length) none)
    else none
  | _ => do
    let ms ← j.members?
    declared.mapM fun spellings => field? spellings ms

def required? (read : Json → Option α) (given : Option Json) : Option α := given.bind read

def defaulted? (default : α) (read : Json → Option α) : Option Json → Option α
  | none => some default
  | some j => read j

/-! ### Objects with optional members -/

def optional? (name : String) (read : Json → Option α) (ms : List (String × Json)) :
    Option (Option α) := do
  let given ← (ms.filter fun m => m.1 = name).mapM fun m => nullable? read m.2
  some given.getLast?.join

end PodRoutes.Json
