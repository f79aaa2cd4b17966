import SparseProduct.Block

/-!
# Bytes as hexadecimal text

Every byte is written with two lower-case digits, the more significant one first.
-/

namespace SparseProduct

namespace Bytes

def hexDigit (n : Nat) : Char := if n < 10 then Char.ofNat (48 + n) else Char.ofNat (87 + n)

def hexValue? (c : Char) : Option Nat :=
  if '0' ≤ c ∧ c ≤ '9' then some (c.toNat - 48)
  else if 'a' ≤ c ∧ c ≤ 'f' then some (c.toNat - 87)
  else none

def hexDigits : List UInt8 → List Char
  | [] => []
  | byte :: bytes =>
      hexDigit (byte.toNat / 16) :: hexDigit (byte.toNat % 16) :: hexDigits bytes

/-- Reads digits two at a time; an odd one, or a character that is no digit, is refused. -/
def ofHexDigits? : List Char → Option (List UInt8)
  | [] => some []
  | high :: low :: rest => do
      let high ← hexValue? high
      let low ← hexValue? low
      return UInt8.ofNat (16 * high + low) :: (← ofHexDigits? rest)
  | [_] => none

def hexText (bytes : Bytes) : String := String.ofList (hexDigits bytes.toList)

def ofHexText? (text : String) : Option Bytes := (ofHexDigits? text.toList).map List.toArray

/-- The bytes cut into pieces of one size, the last of which may be short. -/
def pieces (bytes : Bytes) (size : Nat) : List Bytes :=
  if size = 0 then []
  else
    let whole := bytes.blocks size
    let used := bytes.size / size * size
    if used < bytes.size then whole ++ [bytes.extract used bytes.size] else whole

end Bytes

end SparseProduct
