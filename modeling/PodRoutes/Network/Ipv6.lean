import PodRoutes.Network.Basic
import PodRoutes.Text.Hexadecimal

/-!
# IPv6 addresses

An address is eight groups of sixteen bits. Its textual form has groups of one to four hexadecimal
digits, one `::` for one or more groups of zeros, and may end in a dotted IPv4 address that stands
for the last two groups. The canonical form shortens the first longest run of at least two zero
groups.
-/

namespace PodRoutes

structure Ipv6 where
  groups : List (Fin 65536)
  length_groups : groups.length = 8
deriving DecidableEq

namespace Ipv6

/-! ### Reading -/

def group? (cs : List Char) : Option (Fin 65536) := do
  if cs.isEmpty || 4 < cs.length then none else
    let n ← Hexadecimal.number? cs
    if h : n < 65536 then some ⟨n, h⟩ else none

def ofAddress (x : Address) : List (Fin 65536) :=
  [⟨x.value / 65536 % 65536, Nat.mod_lt _ (by decide)⟩,
    ⟨x.value % 65536, Nat.mod_lt _ (by decide)⟩]

/-- Reads groups; where it is allowed the last part may be a dotted IPv4 address. -/
def groups? (dotted : Bool) : List (List Char) → Option (List (Fin 65536))
  | [] => some []
  | [part] =>
    match dotted, Address.parse? part with
    | true, some x => some (ofAddress x)
    | _, _ => (group? part).map ([·])
  | part :: rest => do some ((← group? part) :: (← groups? dotted rest))

def side? (dotted : Bool) (cs : List Char) : Option (List (Fin 65536)) :=
  if cs.isEmpty then some [] else groups? dotted (Fields.fields ':' cs)

def cutDouble : List Char → List Char × Option (List Char)
  | [] => ([], none)
  | ':' :: ':' :: cs => ([], some cs)
  | c :: cs =>
    let (before, after) := cutDouble cs
    (c :: before, after)

def ofGroups? (groups : List (Fin 65536)) : Option Ipv6 :=
  if h : groups.length = 8 then some ⟨groups, h⟩ else none

def parse? (cs : List Char) : Option Ipv6 :=
  match cutDouble cs with
  | (_, none) => do ofGroups? (← groups? true (Fields.fields ':' cs))
  | (before, some after) => do
    let high ← side? false before
    let low ← side? true after
    if high.length + low.length < 8 then
      ofGroups? (high ++ List.replicate (8 - high.length - low.length) 0 ++ low)
    else none

/-! ### Writing -/

def hexNumeral (n : Nat) : List Char := Nat.toDigits 16 n

def zeros (groups : List (Fin 65536)) : Nat := (groups.takeWhile (· = 0)).length

/-- The position and length of the first longest run of zeros. -/
def longestZeros : List (Fin 65536) → Nat × Nat
  | [] => (0, 0)
  | g :: rest =>
    let here := zeros (g :: rest)
    let (position, length) := longestZeros rest
    if length ≤ here then (0, here) else (position + 1, length)

def writeGroups (groups : List (Fin 65536)) : List Char :=
  Fields.join ':' (groups.map fun g => hexNumeral g.val)

/-- The IPv4 address that a mapped address `::ffff:a.b.c.d` stands for. -/
def mapped? (x : Ipv6) : Option Address :=
  match x.groups with
  | [0, 0, 0, 0, 0, 65535, high, low] => some ⟨high.val * 65536 + low.val, by omega⟩
  | _ => none

/-- The groups with the first longest run of at least two zeros shortened. -/
def writeShort (x : Ipv6) : List Char :=
  let (position, length) := longestZeros x.groups
  if 2 ≤ length then
    writeGroups (x.groups.take position) ++ ':' :: ':' ::
      writeGroups (x.groups.drop (position + length))
  else writeGroups x.groups

/-- The canonical form of an address; a mapped address ends in its dotted form. -/
def write (x : Ipv6) : List Char :=
  match x.mapped? with
  | some v4 => "::ffff:".toList ++ v4.write
  | none => x.writeShort

end Ipv6

/-! ### Networks of either family -/

inductive Cidr where
  | v4 (network : Network)
  | v6 (address : Ipv6) (length : Nat)
deriving DecidableEq

def Ipv6.network? (s : String) : Option Cidr :=
  let (before, after) := Fields.cut '/' s.toList
  if (after.getD []).contains '/' then none else do
    let x ← Ipv6.parse? before
    match after with
    | none => some (.v6 x 128)
    | some cs => some (.v6 x (← Network.lengthUpTo? 128 cs))

def Cidr.parse? (s : String) : Option Cidr :=
  match Network.parse s with
  | .ok n => some (.v4 n)
  | .error _ => Ipv6.network? s

end PodRoutes
