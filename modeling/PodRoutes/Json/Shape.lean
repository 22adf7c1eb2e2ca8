import PodRoutes.Json.Record
import PodRoutes.Time.Reader

/-!
# Values in the shape of a type

A typed client reads a value in the shape of its type and writes it from what it has read. Members
that the type does not declare are passed over, `null` is the same as nothing and of a repeated key
the last value counts. A member that values of the type always have is written where it was missing.
-/

namespace PodRoutes

def Instant.ofJson? (j : Json) : Option Instant := j.text?.bind Instant.parse?

def Instant.toJson (x : Instant) : Json := .text x.text

def Table.toJson (t : Table String) : Json := .record (t.entries.map fun e => (e.1, .text e.2))

namespace Json

inductive Shape where
  | text
  | flag
  /-- An integer that fits so many bits with sign. -/
  | integer (bits : Nat)
  | time
  /-- An object of any keys with texts for their values. -/
  | texts
  | list (item : Shape)
  /-- An object with declared members: the name, what stands for a missing value, and the shape. -/
  | record (fields : List (String × Option Json × Shape))

namespace Shape

abbrev Field : Type := String × Option Json × Shape

def optional (name : String) (shape : Shape) : Field := (name, none, shape)

def requiredText (name : String) : Field := (name, some (Json.text ""), .text)

def requiredInteger (name : String) (bits : Nat) : Field :=
  (name, some (Json.integer 0), .integer bits)

mutual

/-- What is read of a value, as it is written again. -/
def normal? : Shape → Json → Option Json
  | .text, j => j.text?.map Json.text
  | .flag, j => j.bool?.map Json.bool
  | .integer bits, j =>
    (j.int64?.filter fun n => (BitVec.ofInt bits n).toInt = n).map Json.integer
  | .time, j => (Instant.ofJson? j).map Instant.toJson
  | .texts, j => (table? text? j).map Table.toJson
  | .list item, j => (list? item.normal? j).map Json.array
  | .record fields, j => do return Json.record (← fieldsIn? fields (← j.members?))

/-- The declared members that have a value, in their declared order. -/
def fieldsIn? : List Field → List (String × Json) → Option (List (String × Json))
  | [], _ => some []
  | (name, default, shape) :: rest, ms => do
    let given ← optional? name shape.normal? ms
    let others ← fieldsIn? rest ms
    return ((given <|> default).map fun v => (name, v)).toList ++ others

end

end Shape

end Json

end PodRoutes
