import PodRoutes.Text.Decimal
import PodRoutes.Text.Fields

/-!
# IPv4 addresses

An address is a number of 32 bits. Its dotted form is four canonical numerals up to 255, and
reading the dotted form of an address gives the address back (`Address.parse?_write`).
-/

namespace PodRoutes

structure Address where
  value : Nat
  value_lt : value < 4294967296
deriving DecidableEq

namespace Address

theorem ext_value {a b : Address} (h : a.value = b.value) : a = b := by
  cases a; cases b; simp_all

def any : Address := ⟨0, by decide⟩

/-! ### Octets -/

def ofOctets (a b c d : Fin 256) : Address :=
  ⟨a.val <<< 24 + b.val <<< 16 + c.val <<< 8 + d.val, by omega⟩

def octet (x : Address) (shift : Nat) : Nat := x.value >>> shift % 256

theorem octet_lt (x : Address) (shift : Nat) : x.octet shift < 256 := Nat.mod_lt _ (by decide)

/-! ### Dotted form -/

def write (x : Address) : List Char :=
  Fields.join '.' [Decimal.write (x.octet 24), Decimal.write (x.octet 16),
    Decimal.write (x.octet 8), Decimal.write (x.octet 0)]

def text (x : Address) : String := String.ofList x.write

/-- Reads the canonical numeral of a number up to 255: no sign, no leading zero. -/
def octet? (cs : List Char) : Option (Fin 256) := do
  let n ← Decimal.read? cs
  if h : n < 256 then
    if Decimal.write n = cs then some ⟨n, h⟩ else none
  else none

/-- Reads four canonical octets with single dots between them. -/
def parse? (cs : List Char) : Option Address :=
  match Fields.fields '.' cs with
  | [a, b, c, d] => do some (ofOctets (← octet? a) (← octet? b) (← octet? c) (← octet? d))
  | _ => none

theorem octet?_write {n : Nat} (h : n < 256) : octet? (Decimal.write n) = some ⟨n, h⟩ := by
  simp [octet?, Decimal.read?_write, h]

theorem dot_not_mem_write (n : Nat) : '.' ∉ Decimal.write n := fun h =>
  absurd (Decimal.isDigit_of_mem_write h) (by decide)

theorem slash_not_mem_write (x : Address) : '/' ∉ x.write := by
  intro h
  have hd : ∀ n, '/' ∉ Decimal.write n := fun n h =>
    absurd (Decimal.isDigit_of_mem_write h) (by decide)
  simp [write, Fields.join, hd] at h

theorem parse?_write (x : Address) : parse? x.write = some x := by
  have hf : Fields.fields '.' x.write =
      [Decimal.write (x.octet 24), Decimal.write (x.octet 16), Decimal.write (x.octet 8),
        Decimal.write (x.octet 0)] := by
    simp only [write, Fields.join]
    rw [Fields.fields_append_cons _ (dot_not_mem_write _),
      Fields.fields_append_cons _ (dot_not_mem_write _),
      Fields.fields_append_cons _ (dot_not_mem_write _),
      Fields.fields_eq_of_not_mem (dot_not_mem_write _)]
  simp only [parse?, hf, octet?_write (octet_lt x _), Option.bind_eq_bind, Option.bind_some,
    Option.some.injEq]
  apply ext_value
  have := x.value_lt
  simp only [ofOctets, octet]
  omega

end Address

end PodRoutes
