/-!
# Reading UTF-8

Bytes are read as text with a replacement character for every maximal part that is not well formed:
a byte that cannot begin a character, or a character that breaks off, up to the byte that breaks it.
-/

namespace PodRoutes.Utf8

def replacement : Char := '\uFFFD'

/-- What the first byte of a character says: its length, its leading bits, and the bounds of the
second byte. -/
def leading? (b : Nat) : Option (Nat × Nat × Nat × Nat) :=
  if 0xC2 ≤ b ∧ b ≤ 0xDF then some (1, b - 0xC0, 0x80, 0xBF)
  else if b = 0xE0 then some (2, 0, 0xA0, 0xBF)
  else if b = 0xED then some (2, 0xD, 0x80, 0x9F)
  else if 0xE1 ≤ b ∧ b ≤ 0xEF then some (2, b - 0xE0, 0x80, 0xBF)
  else if b = 0xF0 then some (3, 0, 0x90, 0xBF)
  else if 0xF1 ≤ b ∧ b ≤ 0xF3 then some (3, b - 0xF0, 0x80, 0xBF)
  else if b = 0xF4 then some (3, 4, 0x80, 0x8F)
  else none

/-- The characters of a row of bytes. In between, `missing` more bytes belong to a character with
the leading bits `bits`, and the next of them has to lie between two bounds. -/
def scan : (missing bits low high : Nat) → List UInt8 → List Char
  | 0, _, _, _, [] => []
  | _ + 1, _, _, _, [] => [replacement]
  | 0, _, _, _, b :: rest =>
    let n := b.toNat
    if n < 0x80 then Char.ofNat n :: scan 0 0 0 0 rest
    else match leading? n with
      | some (missing, bits, low, high) => scan missing bits low high rest
      | none => replacement :: scan 0 0 0 0 rest
  | missing + 1, bits, low, high, b :: rest =>
    let n := b.toNat
    if low ≤ n ∧ n ≤ high then
      let bits := bits * 64 + (n - 0x80)
      if missing = 0 then Char.ofNat bits :: scan 0 0 0 0 rest
      else scan missing bits 0x80 0xBF rest
    else if n < 0x80 then replacement :: Char.ofNat n :: scan 0 0 0 0 rest
    else match leading? n with
      | some (missing, bits, low, high) => replacement :: scan missing bits low high rest
      | none => replacement :: replacement :: scan 0 0 0 0 rest

/-- The text that a row of bytes stands for, with replacements where it stands for none. -/
def decode (bytes : List UInt8) : String := String.ofList (scan 0 0 0 0 bytes)

end PodRoutes.Utf8
