import PodRoutes.Json.Double

/-!
# Documents that can be kept

A document whose form is not known in advance is kept whole until it is. For that all its texts
have to be texts, its numbers have to be in range and it may only be nested to a given depth. A
document that is passed over does not have to be keepable.
-/

namespace PodRoutes.Json

mutual

/-- Whether a document can be kept, nested to at most the given depth. -/
def isKeepable (depth : Nat) : Json → Bool
  | .null => true
  | .bool _ => true
  | .number n => n.isFinite
  | .string s => s.isSome
  | .array items => 0 < depth && areItemsKeepable (depth - 1) items
  | .object members => 0 < depth && areMembersKeepable (depth - 1) members

def areItemsKeepable (depth : Nat) : List Json → Bool
  | [] => true
  | item :: rest => isKeepable depth item && areItemsKeepable depth rest

def areMembersKeepable (depth : Nat) : List (Option String × Json) → Bool
  | [] => true
  | (key, value) :: rest =>
    key.isSome && isKeepable depth value && areMembersKeepable depth rest

end

end PodRoutes.Json
