/-
Decimal numbers and the two ways the library writes them: `positional`
spells every place and always has a point, `scientific` has one digit before
the point and an exponent, and no point if there is nothing behind it.
-/
namespace DetectorHeader

/-- The number `coefficient · 10 ^ exponent`. -/
structure Decimal where
  coefficient : Nat
  exponent : Int
  deriving DecidableEq

namespace Decimal

/-- The value is `numerator / denominator`. -/
def numerator (d : Decimal) : Nat :=
  d.coefficient * Nat.pow 10 d.exponent.toNat

/-- The value is `numerator / denominator`. -/
def denominator (d : Decimal) : Nat := Nat.pow 10 (-d.exponent).toNat

/-- The digits of the coefficient, most significant first. -/
def digits (d : Decimal) : List Char := Nat.toDigits 10 d.coefficient

/-- The exponent of the leading digit, as scientific notation writes it. -/
def leadingExponent (d : Decimal) : Int :=
  d.exponent + (d.digits.length - 1 : Nat)

/-- All digits with a point among them, at least one digit on either side. -/
def positional (d : Decimal) : List Char :=
  let places := (-d.exponent).toNat
  let ds := d.digits ++ List.replicate d.exponent.toNat '0'
  let ds := List.replicate (places + 1 - ds.length) '0' ++ ds
  let whole := ds.take (ds.length - places)
  let fraction := ds.drop (ds.length - places)
  whole ++ '.' :: if fraction.isEmpty then ['0'] else fraction

/-- The leading digit, a point and the other digits if there are any, and
the exponent. -/
def scientific (d : Decimal) : List Char :=
  let fraction := d.digits.drop 1
  d.digits.take 1 ++ (if fraction.isEmpty then [] else '.' :: fraction)
    ++ 'e' :: (toString d.leadingExponent).toList

end Decimal

end DetectorHeader
