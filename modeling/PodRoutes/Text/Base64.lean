/-!
# Base 64
-/

namespace PodRoutes.Base64

def letters : List Char :=
  "ABCDEFGHIJKLMNOPQRSTUVWXYZabcdefghijklmnopqrstuvwxyz0123456789+/".toList

def letter (n shift : Nat) : Char := letters.getD (n >>> shift % 64) '='

/-- Bytes as letters, three bytes to four letters, filled up at the end. -/
def encode : List UInt8 → List Char
  | [] => []
  | [a] =>
    let n := a.toNat * 65536
    [letter n 18, letter n 12, '=', '=']
  | [a, b] =>
    let n := a.toNat * 65536 + b.toNat * 256
    [letter n 18, letter n 12, letter n 6, '=']
  | a :: b :: c :: rest =>
    let n := a.toNat * 65536 + b.toNat * 256 + c.toNat
    letter n 18 :: letter n 12 :: letter n 6 :: letter n 0 :: encode rest

end PodRoutes.Base64
