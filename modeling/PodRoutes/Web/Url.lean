import PodRoutes.Network.Ipv6
import PodRoutes.RouteError
import PodRoutes.Text.Utf8
import PodRoutes.Web.Form

/-!
# Addresses of HTTP services

An HTTP URL is read leniently and written in one form: the host in lower case, numbers as an IPv4
host in dotted form, the port left out where it is the usual one, dot segments resolved, and
characters escaped that may not stand in their part. Host names outside ASCII are refused.
-/

namespace PodRoutes.Web

structure Url where
  secure : Bool
  user : String := ""
  password : String := ""
  host : List Char
  /-- The port, unless it is the usual one. -/
  port : Option Nat := none
  path : List Char
  query : Option (List Char) := none
deriving DecidableEq

namespace Url

/-! ### Escapes -/

def percentDecode : List Char → List UInt8
  | '%' :: a :: b :: rest =>
    match Hexadecimal.digit? a, Hexadecimal.digit? b with
    | some x, some y => UInt8.ofNat (16 * x + y) :: percentDecode rest
    | _, _ => bytesOf '%' ++ percentDecode (a :: b :: rest)
  | c :: rest => bytesOf c ++ percentDecode rest
  | [] => []
termination_by cs => cs.length

def isControl (c : Char) : Bool := c.toNat < 0x20 || 0x7E < c.toNat

def escapedInPath (c : Char) : Bool := isControl c || " \"#<>?`\x7b\x7d".toList.contains c

def escapedInQuery (c : Char) : Bool := isControl c || " \"#<>'".toList.contains c

/-! ### Hosts -/

/-- Reads a part of an IPv4 host: hexadecimal after `0x`, octal after `0`, else decimal. -/
def hostNumber? : List Char → Option Nat
  | [] => none
  | '0' :: 'x' :: digits => if digits.isEmpty then some 0 else Hexadecimal.number? digits
  | '0' :: d :: digits =>
    if (d :: digits).all fun c => '0' ≤ c && c ≤ '7' then
      some (Nat.ofDigitChars 8 (d :: digits) 0)
    else none
  | digits => Decimal.read? digits

/-- The parts of a host between dots, without an empty last one. -/
def hostParts (host : List Char) : List (List Char) :=
  let parts := Fields.fields '.' host
  if parts.length ≠ 1 ∧ parts.getLast? = some [] then parts.dropLast else parts

/-- Whether the last part of a host is a number, so that the host has to be an IPv4 address. -/
def endsInNumber (host : List Char) : Bool :=
  match (hostParts host).getLast? with
  | some part => (part ≠ [] && part.all Char.isDigit) ||
      ("0x".toList.isPrefixOf part && (hostNumber? part).isSome)
  | none => false

/-- The address of up to four numbers, of which the last one fills the bytes that are left. -/
def addressOfNumbers? (numbers : List Nat) : Option Address :=
  match numbers.getLast? with
  | none => none
  | some last =>
    let high := numbers.dropLast
    let free := 8 * (4 - high.length)
    let value := (high.foldl (fun n b => 256 * n + b) 0) <<< free + last
    if h : value < 4294967296 then
      if numbers.length ≤ 4 ∧ high.all (· < 256) ∧ last < 1 <<< free then
        some ⟨value, h⟩
      else none
    else none

def isForbidden (c : Char) : Bool :=
  c.toNat ≤ 0x20 || 0x7F ≤ c.toNat || "#/:<>?@[\\]^|%".toList.contains c

def host? (cs : List Char) : Option (List Char) :=
  match cs with
  | '[' :: rest =>
    if rest.getLast? = some ']' then
      (Ipv6.parse? rest.dropLast).map fun x => '[' :: (x.writeShort ++ [']'])
    else none
  | _ =>
    let name := (Utf8.decode (percentDecode cs)).toList.map Char.toLower
    if name.isEmpty || name.any isForbidden then none
    else if endsInNumber name then do
      let numbers ← (hostParts name).mapM hostNumber?
      (addressOfNumbers? numbers).map Address.write
    else some name

/-! ### Reading -/

def usualPort (secure : Bool) : Nat := if secure then 443 else 80

/-- Reads a port; `none` inside for the usual one or none at all. -/
def port? (secure : Bool) (cs : List Char) : Option (Option Nat) :=
  if cs.isEmpty then some none else do
    let n ← Decimal.read? cs
    if n < 65536 then some (if n = usualPort secure then none else some n) else none

def userInfo (authority : List Char) : (String × String) × List Char :=
  match authority.reverse.dropWhile (· ≠ '@') with
  | [] => (("", ""), authority)
  | _ :: reversed =>
    let (user, password) := Fields.cut ':' reversed.reverse
    let decode (cs : List Char) := Utf8.decode (percentDecode cs)
    ((decode user, decode (password.getD [])), (authority.reverse.takeWhile (· ≠ '@')).reverse)

/-- The host and the port, cut at the colon after the host. -/
def hostAndPort (cs : List Char) : List Char × List Char :=
  let bracketed := cs.takeWhile (· ≠ ']')
  if cs.head? = some '[' ∧ bracketed.length < cs.length then
    let after := cs.drop (bracketed.length + 1)
    (bracketed ++ [']'], if after.head? = some ':' then after.drop 1 else after)
  else
    let (host, port) := Fields.cut ':' cs
    (host, port.getD [])

def isDot (segment : List Char) : Bool :=
  [".", "%2e"].contains (String.ofList (segment.map Char.toLower))

def isDoubleDot (segment : List Char) : Bool :=
  ["..", ".%2e", "%2e.", "%2e%2e"].contains (String.ofList (segment.map Char.toLower))

/-- Resolves dot segments; the segments so far are in reverse. -/
def resolve : List (List Char) → List (List Char) → List (List Char)
  | done, [] => done.reverse
  | done, segment :: rest =>
    if isDoubleDot segment then
      resolve (if rest.isEmpty then [] :: done.drop 1 else done.drop 1) rest
    else if isDot segment then resolve (if rest.isEmpty then [] :: done else done) rest
    else resolve (percentEncode escapedInPath segment :: done) rest

def pathOf (cs : List Char) : List Char :=
  let slashed := cs.map fun c => if c = '\\' then '/' else c
  '/' :: Fields.join '/' (resolve [] (Fields.fields '/' (slashed.drop 1)))

def endsAuthority (c : Char) : Bool := c = '/' || c = '\\' || c = '?' || c = '#'

def scheme? (cs : List Char) : Option (Bool × List Char) :=
  if "http:".toList.isPrefixOf cs then some (false, cs.drop 5)
  else if "https:".toList.isPrefixOf cs then some (true, cs.drop 6)
  else none

/-- The text without blanks and control characters around it, and without tabs and line breaks. -/
def tidy (cs : List Char) : List Char :=
  let edge (c : Char) : Bool := c.toNat ≤ 0x20
  let trimmed := ((cs.dropWhile edge).reverse.dropWhile edge).reverse
  trimmed.filter fun c => !"\t\n\r".toList.contains c

def parse (s : String) : Except TransportFault Url :=
  match scheme? (tidy s.toList) with
  | none => .error .badUrl
  | some (secure, rest) =>
    let rest := rest.dropWhile fun c => c = '/' || c = '\\'
    let authority := rest.takeWhile fun c => !endsAuthority c
    let (sent, _) := Fields.cut '#' (rest.dropWhile fun c => !endsAuthority c)
    let (pathPart, queryPart) := Fields.cut '?' sent
    let ((user, password), server) := userInfo authority
    let (hostPart, portPart) := hostAndPort server
    if hostPart.isEmpty then .error .emptyHost
    else match host? hostPart, port? secure portPart with
      | some host, some port =>
        .ok { secure, user, password, host, port, path := pathOf pathPart
              query := queryPart.map (percentEncode escapedInQuery) }
      | _, _ => .error .badUrl

/-! ### Writing -/

def addParameters (u : Url) (parameters : List (String × String)) : Url :=
  let own := u.query.getD []
  { u with query := some (if own.isEmpty then Form.write parameters
      else own ++ '&' :: Form.write parameters) }

/-- The URL as it is sent, without user and password. -/
def write (u : Url) : List Char :=
  (if u.secure then "https://" else "http://").toList ++ u.host ++
    (match u.port with
      | some p => ':' :: Decimal.write p
      | none => []) ++
    u.path ++
    (match u.query with
      | some q => '?' :: q
      | none => [])

def text (u : Url) : String := String.ofList u.write

end Url

end PodRoutes.Web
