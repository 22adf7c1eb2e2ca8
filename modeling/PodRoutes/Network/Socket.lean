import PodRoutes.Network.Ipv6

/-!
# Addresses with a port

An IPv4 address with a port after a colon, or an IPv6 address in brackets, with an optional zone
number, and a port.
-/

namespace PodRoutes

inductive Socket where
  | v4 (address : Address) (port : Nat)
  | v6 (address : Ipv6) (zone : Nat) (port : Nat)
deriving DecidableEq

namespace Socket

def numberBelow? (limit : Nat) (cs : List Char) : Option Nat :=
  (Decimal.read? cs).filter (· < limit)

def zoned? (cs : List Char) : Option (Ipv6 × Nat) := do
  let (before, zone) := Fields.cut '%' cs
  let x ← Ipv6.parse? before
  match zone with
  | none => some (x, 0)
  | some digits => some (x, ← numberBelow? UInt32.size digits)

def parse? (s : String) : Option Socket :=
  match s.toList with
  | '[' :: rest => do
    let (inside, after) := Fields.cut ']' rest
    match after with
    | some (':' :: digits) => do
      let (x, zone) ← zoned? inside
      some (.v6 x zone (← numberBelow? UInt16.size digits))
    | _ => none
  | cs => do
    let (before, after) := Fields.cut ':' cs
    some (.v4 (← Address.parse? before) (← numberBelow? UInt16.size (← after)))

/-- The canonical form; the zone is left out where it is zero. -/
def write : Socket → List Char
  | v4 x port => x.write ++ ':' :: Decimal.write port
  | v6 x zone port =>
    '[' :: (x.write ++ (if zone = 0 then [] else '%' :: Decimal.write zone) ++
      ']' :: ':' :: Decimal.write port)

def text (s : Socket) : String := String.ofList s.write

end Socket

end PodRoutes
