/-!
# Decimal text of floating-point numbers

A finite number is `m * 2 ^ q`. Its decimal digits are the fewest that read back as the same number: of
all decimals with that many digits that lie in the interval of reals which round to it, the nearest one,
and of two equally near ones the larger. The interval includes its ends when `m` is even. Below, all
reals are fractions `numerator / scale` over one common denominator, so every comparison is exact.
-/

namespace SparseProduct

namespace Decimal

/-- The number `digits * 10 ^ exponent`. -/
structure Scientific where
  digits : Nat
  exponent : Int
deriving DecidableEq, Repr

/-- The reals that round to one number, as numerators over `scale`. -/
structure Rounding where
  low : Nat
  value : Nat
  high : Nat
  scale : Nat
  closed : Bool

namespace Rounding

/-- The interval around `m * 2 ^ q`. Below a power of two the numbers are twice as dense. -/
def of (m : Nat) (q : Int) (denseBelow : Bool) : Rounding :=
  let factor := Nat.pow 2 (q - 2).toNat
  { low := (4 * m - if denseBelow then 1 else 2) * factor
    value := 4 * m * factor
    high := (4 * m + 2) * factor
    scale := Nat.pow 2 (2 - q).toNat
    closed := m % 2 = 0 }

def admits (r : Rounding) (digits : Nat) (exponent : Int) : Bool :=
  let x := digits * Nat.pow 10 exponent.toNat * r.scale
  let unit := Nat.pow 10 (-exponent).toNat
  if r.closed then r.low * unit ≤ x && x ≤ r.high * unit
  else r.low * unit < x && x < r.high * unit

/-- The nearest admitted number on the grid of multiples of `10 ^ exponent`, if there is one. Of two that
are equally near it is the larger. -/
def nearest? (r : Rounding) (exponent : Int) : Option Nat :=
  let numerator := r.value * Nat.pow 10 (-exponent).toNat
  let unit := r.scale * Nat.pow 10 exponent.toNat
  let below := numerator / unit
  let rest := numerator % unit
  match r.admits below exponent, r.admits (below + 1) exponent with
  | true, true => some (if 2 * rest < unit then below else below + 1)
  | true, false => some below
  | false, true => some (below + 1)
  | false, false => none

def finer (r : Rounding) : (count : Nat) → (exponent : Int) → Scientific
  | 0, exponent =>
      ⟨r.value * Nat.pow 10 (-exponent).toNat / (r.scale * Nat.pow 10 exponent.toNat), exponent⟩
  | count + 1, exponent =>
      match r.nearest? exponent with
      | some digits => ⟨digits, exponent⟩
      | none => r.finer count (exponent - 1)

end Rounding

/-- The fewest digits that read back as `m * 2 ^ q`. The first grid tried is coarser than any number of
the format. -/
def shortest (m : Nat) (q : Int) (denseBelow : Bool) : Scientific :=
  (Rounding.of m q denseBelow).finer 800 400

def positional (digits : List Char) (places : Int) : String :=
  if places ≤ 0 then
    "0." ++ String.ofList (List.replicate (-places).toNat '0' ++ digits)
  else if digits.length ≤ places.toNat then
    String.ofList (digits ++ List.replicate (places.toNat - digits.length) '0') ++ ".0"
  else
    String.ofList (digits.take places.toNat) ++ "." ++ String.ofList (digits.drop places.toNat)

def scientific (digits : List Char) (places : Int) : String :=
  let rest := digits.drop 1
  String.ofList (digits.take 1) ++ (if rest.isEmpty then "" else "." ++ String.ofList rest) ++ "e"
    ++ toString (places - 1)

/-- A number from `10 ^ -4` up to, but not including, `10 ^ 16` is written positionally, with at least
one digit after the mark. -/
def text (x : Scientific) : String :=
  let digits := (toString x.digits).toList
  let places := digits.length + x.exponent
  if -4 < places ∧ places ≤ 16 then positional digits places else scientific digits places

/-- The text of the number with the given sign, exponent field and fraction field, in a binary format
with `fractionBits` bits of fraction and `exponentBits` bits of exponent. -/
def ofFields (fractionBits exponentBits : Nat) (negative : Bool) (exponent fraction : Nat) : String :=
  let sign := if negative then "-" else ""
  let bias : Int := (Nat.pow 2 (exponentBits - 1) : Int) - 1 + fractionBits
  if exponent = Nat.pow 2 exponentBits - 1 then
    if fraction = 0 then sign ++ "inf" else "NaN"
  else if exponent = 0 then
    if fraction = 0 then sign ++ "0.0" else sign ++ text (shortest fraction (1 - bias) false)
  else
    sign ++ text (shortest (Nat.pow 2 fractionBits + fraction) (exponent - bias)
      (fraction = 0 && 1 < exponent))

def ofBits (fractionBits exponentBits bits : Nat) : String :=
  ofFields fractionBits exponentBits (bits / Nat.pow 2 (fractionBits + exponentBits) % 2 = 1)
    (bits / Nat.pow 2 fractionBits % Nat.pow 2 exponentBits) (bits % Nat.pow 2 fractionBits)

end Decimal

end SparseProduct
