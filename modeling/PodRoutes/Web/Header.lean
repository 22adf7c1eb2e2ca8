import PodRoutes.RouteError
import PodRoutes.Table

/-!
# Headers

Names of headers are tokens, compared without case; values hold no control characters except the
tabulator.
-/

namespace PodRoutes.Web.Header

def isTokenChar (c : Char) : Bool :=
  ('0' ≤ c && c ≤ '9') || ('a' ≤ c && c ≤ 'z') || ('A' ≤ c && c ≤ 'Z') ||
    "!#$%&'*+-.^_`|~".toList.contains c

def isName (s : String) : Bool := s ≠ "" && s.toList.all isTokenChar

def isValueChar (c : Char) : Bool := c = '\t' || (32 ≤ c.toNat && c.toNat ≠ 127)

def isValue (s : String) : Bool := s.toList.all isValueChar

def lower (s : String) : String := String.ofList (s.toList.map Char.toLower)

/-- Sets a header, in place of one of the same name. -/
def set (headers : Table String) (name value : String) : Table String :=
  headers.insert (lower name) value

def setValue (headers : Table String) (name value : String) : Except ConfigProblem (Table String) :=
  if isValue value then .ok (set headers name value) else .error .headerValue

def setAll (headers : Table String) :
    List (String × String) → Except ConfigProblem (Table String)
  | [] => .ok headers
  | (name, value) :: rest =>
    if isName name then
      match setValue headers name value with
      | .ok headers => setAll headers rest
      | .error problem => .error problem
    else .error (.headerName name)

end PodRoutes.Web.Header
