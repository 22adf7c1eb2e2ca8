import PodRoutes.Text.Hexadecimal

/-!
# Percent escapes and form parameters

Bytes of UTF-8 are written as a percent sign with two upper-case digits. In a form a blank becomes a
plus sign, and all but letters, digits and four marks is escaped.
-/

namespace PodRoutes.Web

def escapeByte (b : UInt8) : List Char :=
  ['%', Hexadecimal.upperDigit (b.toNat / 16), Hexadecimal.upperDigit b.toNat]

def bytesOf (c : Char) : List UInt8 := (String.singleton c).toUTF8.toList

def escapeChar (c : Char) : List Char := (bytesOf c).flatMap escapeByte

/-- The text with those characters escaped that a test picks out. -/
def percentEncode (escaped : Char → Bool) (cs : List Char) : List Char :=
  cs.flatMap fun c => if escaped c then escapeChar c else [c]

namespace Form

def isPlain (c : Char) : Bool := c.isAlphanum || "*-._".toList.contains c

def encode (s : String) : List Char :=
  s.toList.flatMap fun c => if c = ' ' then ['+'] else if isPlain c then [c] else escapeChar c

def writePair (p : String × String) : List Char := encode p.1 ++ '=' :: encode p.2

def write : List (String × String) → List Char
  | [] => []
  | [p] => writePair p
  | p :: rest => writePair p ++ '&' :: write rest

end Form

end PodRoutes.Web
