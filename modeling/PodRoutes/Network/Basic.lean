import PodRoutes.Network.Address

/-!
# IPv4 networks

A network is an address with a number of leading bits that its members share. It is written as
`address/length`; the reader also takes an address alone, a length with a plus sign or leading
zeros, and a dotted netmask. `Network.canonical` clears the bits after the length, and the text of
a canonical network reads back to it (`Network.parse_text`).
-/

namespace PodRoutes

/-- An address together with the number of its leading bits that make up the network. -/
structure Network where
  address : Address
  length : Nat
  length_le : length ≤ 32
deriving DecidableEq

inductive NetworkFault where
  | slashes (text : String)
  | address (text : String)
  | length
deriving DecidableEq

def NetworkFault.message : NetworkFault → String
  | slashes text => "invalid cidr format: CIDR must contain a single '/': " ++ text
  | address text => "invalid address: " ++ text
  | length => "invalid prefix"

namespace Network

/-! ### Members -/

def size (n : Network) : Nat := 1 <<< (32 - n.length)

theorem size_pos (n : Network) : 0 < n.size := by
  rw [size, Nat.one_shiftLeft]
  exact Nat.two_pow_pos _

theorem size_mul (n : Network) : (1 <<< n.length) * n.size = 4294967296 := by
  rw [size, Nat.one_shiftLeft, Nat.one_shiftLeft, ← Nat.pow_add, Nat.add_sub_cancel' n.length_le]

def contains (n : Network) (x : Address) : Bool :=
  x.value / n.size = n.address.value / n.size

theorem base_add_size_le (n : Network) :
    n.address.value / n.size * n.size + n.size ≤ 4294967296 := by
  have h : n.address.value / n.size < 1 <<< n.length := by
    rw [Nat.div_lt_iff_lt_mul n.size_pos, size_mul]
    exact n.address.value_lt
  have := Nat.mul_le_mul_right n.size h
  rw [size_mul, Nat.succ_mul] at this
  exact this

def first (n : Network) : Address :=
  ⟨n.address.value / n.size * n.size, by have := n.base_add_size_le; have := n.size_pos; omega⟩

def last (n : Network) : Address :=
  ⟨n.address.value / n.size * n.size + n.size - 1, by
    have := n.base_add_size_le; have := n.size_pos; omega⟩

def canonical (n : Network) : Network := { n with address := n.first }

theorem contains_iff {n : Network} {x : Address} :
    n.contains x = true ↔ n.first.value ≤ x.value ∧ x.value ≤ n.last.value := by
  have hp := n.size_pos
  have hx := Nat.div_add_mod x.value n.size
  have hm := Nat.mod_lt x.value hp
  simp only [contains, decide_eq_true_eq, first, last]
  generalize n.address.value / n.size = q
  constructor
  · intro h
    rw [h, Nat.mul_comm] at hx
    omega
  · rintro ⟨h1, h2⟩
    have h3 : q ≤ x.value / n.size := (Nat.le_div_iff_mul_le hp).2 h1
    have h4 : x.value / n.size < q + 1 := by
      rw [Nat.div_lt_iff_lt_mul hp, Nat.succ_mul]
      omega
    omega

@[simp] theorem length_canonical (n : Network) : n.canonical.length = n.length := rfl

@[simp] theorem size_canonical (n : Network) : n.canonical.size = n.size := rfl

@[simp] theorem first_canonical (n : Network) : n.canonical.first = n.first := by
  apply Address.ext_value
  change n.address.value / n.size * n.size / n.size * n.size = _
  rw [Nat.mul_div_cancel _ n.size_pos]
  rfl

@[simp] theorem canonical_canonical (n : Network) : n.canonical.canonical = n.canonical := by
  rw [canonical, first_canonical]
  rfl

@[simp] theorem contains_canonical (n : Network) (x : Address) :
    n.canonical.contains x = n.contains x := by
  have h : n.canonical.address.value / n.size = n.address.value / n.size :=
    Nat.mul_div_cancel _ n.size_pos
  simp only [contains, size_canonical, h]

/-! ### Text -/

def write (n : Network) : List Char := n.address.write ++ '/' :: Decimal.write n.length

def text (n : Network) : String := String.ofList n.write

def lengthUpTo? (limit : Nat) (cs : List Char) : Option Nat :=
  (Decimal.readPlus? cs).filter (· ≤ limit)

/-- The number of leading ones of a netmask, if only zeros follow them. -/
def lengthOfMask? (mask : Address) : Option Nat :=
  (List.range 33).find? fun l => mask.value + 1 <<< (32 - l) = 4294967296

/-- Reads the part after the slash: a dotted netmask, or else a number of leading bits. -/
def length? (cs : List Char) : Option Nat :=
  match Address.parse? cs with
  | some mask => lengthOfMask? mask
  | none => lengthUpTo? 32 cs

/-- Reads a network. The number of slashes is looked at first, then the address, then the length;
an address alone is a network of that address only. -/
def parse (s : String) : Except NetworkFault Network :=
  let (before, after) := Fields.cut '/' s.toList
  if (after.getD []).contains '/' then .error (.slashes s) else
    match Address.parse? before with
    | none => .error (.address (String.ofList before))
    | some x =>
      match after with
      | none => .ok ⟨x, 32, Nat.le_refl 32⟩
      | some cs =>
        match length? cs with
        | none => .error .length
        | some l => if h : l ≤ 32 then .ok ⟨x, l, h⟩ else .error .length

def parseCanonical (s : String) : Except NetworkFault Network :=
  (parse s).map canonical

theorem parse?_address_write (l : Nat) : Address.parse? (Decimal.write l) = none := by
  rw [Address.parse?, Fields.fields_eq_of_not_mem (Address.dot_not_mem_write l)]

theorem length?_write {l : Nat} (h : l ≤ 32) : length? (Decimal.write l) = some l := by
  simp [length?, parse?_address_write, lengthUpTo?, Decimal.readPlus?_write, Option.filter, h]

theorem parse_text (n : Network) : parse n.text = .ok n := by
  have hs : '/' ∉ Decimal.write n.length := fun h =>
    absurd (Decimal.isDigit_of_mem_write h) (by decide)
  simp [parse, text, write, Fields.cut_append_cons _ (Address.slash_not_mem_write _),
    Address.parse?_write, length?_write n.length_le, n.length_le, hs]

theorem text_injective {m n : Network} (h : m.text = n.text) : m = n := by
  have := parse_text m
  rw [h, parse_text n] at this
  exact (Except.ok.inj this).symm

end Network

end PodRoutes
