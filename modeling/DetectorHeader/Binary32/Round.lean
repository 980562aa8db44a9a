/-
Rounding to single precision, to the nearest value and on a tie to the even
one. There is one rounding, of a fraction of natural numbers
(`nearestMagnitude`), and every inexact operation is the exact result handed
to it: an integer, a double-precision number, a product, a decimal.

The magnitude bits of single precision count its values in order, so
rounding is: choose the binade, divide by its spacing, round the quotient to
an integer, and add it to the bits at which the binade starts. A quotient
that rounds up to the next binade, and one that overflows to infinity, need
no case of their own.
-/
import DetectorHeader.Binary32.Basic

namespace DetectorHeader

/-- `n / d` rounded to the nearest integer, a half to the even one. -/
def divNearestEven (n d : Nat) : Nat :=
  let q := n / d
  let r := n % d
  if 2 * r < d ∨ (2 * r = d ∧ q % 2 = 0) then q else q + 1

namespace Binary32

/-- The magnitude bits of the single-precision value nearest to `n / d`,
infinity from half a spacing above the greatest finite value on. -/
def nearestMagnitude (n d : Nat) : Nat :=
  let n := n * unitsPerOne
  let binade := (n / d).log2 - 23
  min (binade * binadeSize + divNearestEven n (d * Nat.pow 2 binade))
    infinityBits

/-- The value nearest to `± n / d`. -/
def nearest (negative : Bool) (n d : Nat) : Binary32 :=
  ofMagnitude negative (nearestMagnitude n d)

/-- The value nearest to an integer. -/
def ofInt (i : Int) : Binary32 :=
  nearest (i < 0) i.natAbs 1

/-- The value nearest to a double-precision number. -/
def ofBinary64 (x : Binary64) : Binary32 :=
  if x.exponent = 0x7FF then
    if x.fraction = 0 then ofMagnitude x.isNegative infinityBits else nan
  else nearest x.isNegative x.units Binary64.unitsPerOne

/-- The product, rounded once. Zero times infinity has none. -/
def mul (x y : Binary32) : Binary32 :=
  let negative := x.isNegative != y.isNegative
  if x.isNaN || y.isNaN then nan
  else if x.isInfinite || y.isInfinite then
    if x.isZero || y.isZero then nan else ofMagnitude negative infinityBits
  else nearest negative (x.units * y.units) (unitsPerOne * unitsPerOne)

end Binary32

end DetectorHeader
