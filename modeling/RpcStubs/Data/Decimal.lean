namespace RpcStubs.Data

/-!
# Decimal numbers as doubles

A decimal number is a sign, a mantissa and a power of ten. Two questions are asked of the
double nearest to it: whether it is finite, and whether it is a whole number.
-/

/-- The number `mantissa · 10 ^ exponent` with its sign. -/
structure Decimal where
  negative : Bool
  mantissa : Nat
  exponent : Int
deriving Repr, DecidableEq

namespace Decimal

/-- How many digits the mantissa has. -/
def digitCount (decimal : Decimal) : Nat :=
  (toString decimal.mantissa).length

/-- The least size that rounds to no finite double. -/
def overflow : Nat := Nat.pow 2 1024 - Nat.pow 2 970

/-- Whether the nearest double is finite. -/
def isFinite (decimal : Decimal) : Bool :=
  let magnitude := decimal.digitCount + decimal.exponent
  if decimal.mantissa = 0 || magnitude < 300 then
    true
  else if 310 < magnitude then
    false
  else if 0 ≤ decimal.exponent then
    decimal.mantissa * Nat.pow 10 decimal.exponent.toNat < overflow
  else
    decimal.mantissa < overflow * Nat.pow 10 (-decimal.exponent).toNat

/-- The quotient rounded to the nearest whole number, a tie to the even one. -/
def roundedQuotient (numerator denominator : Nat) : Nat :=
  let floor := numerator / denominator
  let twice := 2 * (numerator % denominator)
  if twice < denominator || (twice = denominator && floor % 2 = 0) then floor else floor + 1

/--
Whether the nearest double is a whole number.

Doubles of size `2 ^ 53` and more are whole. A smaller one is a multiple of a power of two
that depends on its size; it is whole when the rounded multiple is a multiple of one.
-/
def isWhole (decimal : Decimal) : Bool :=
  let places := (-decimal.exponent).toNat
  if decimal.mantissa = 0 || places = 0 || decimal.digitCount + 400 < places then
    true
  else
    let scale := Nat.pow 10 places
    if Nat.pow 2 53 * scale ≤ decimal.mantissa then
      true
    else
      let magnitude := (decimal.mantissa * Nat.pow 2 1100 / scale).log2
      let fractionBits := min (1152 - magnitude) 1074
      roundedQuotient (decimal.mantissa * Nat.pow 2 fractionBits) scale % Nat.pow 2 fractionBits = 0

end Decimal

end RpcStubs.Data
