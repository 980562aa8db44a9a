/-
Single-precision numbers as bit patterns. A scale is carried from a model to
the header without arithmetic, so what has to be exact is its bits, NaN
payloads and the sign of zero included: a `Binary32` is its bits.

Every finite value is an integer number of units of 2⁻¹⁴⁹, the smallest
subnormal. `units` is that integer, and with it the value of a finite
pattern is `± units / unitsPerOne`, an exact fraction of natural numbers.
All arithmetic of the library on scales goes through it.
-/
namespace DetectorHeader

/-- A single-precision number, given by its bits. Two of them are equal when
their bits are: `-0.0` differs from `0.0`, and a NaN is equal to itself. -/
structure Binary32 where
  bits : UInt32
  deriving DecidableEq

/-- A double-precision number, given by its bits. -/
structure Binary64 where
  bits : UInt64
  deriving DecidableEq

namespace Binary64

/-- How many values are in a binade, 2⁵². -/
def binadeSize : Nat := 0x10000000000000

/-- The sign bit. -/
def isNegative (x : Binary64) : Bool := 0x8000000000000000 ≤ x.bits.toNat

/-- The bits of the exponent; all of them are set in what is not finite. -/
def exponent (x : Binary64) : Nat := x.bits.toNat / binadeSize % 0x800

/-- The bits of the fraction. -/
def fraction (x : Binary64) : Nat := x.bits.toNat % binadeSize

/-- How many units make one. -/
def unitsPerOne : Nat := Nat.pow 2 1074

/-- The magnitude of a finite value in units of 2⁻¹⁰⁷⁴, the smallest
subnormal. -/
def units (x : Binary64) : Nat :=
  if x.exponent = 0 then x.fraction
  else (binadeSize + x.fraction) * Nat.pow 2 (x.exponent - 1)

end Binary64

namespace Binary32

/-- The weight of the sign bit, 2³¹. -/
def signWeight : Nat := 0x80000000

/-- How many values are in a binade, 2²³. -/
def binadeSize : Nat := 0x800000

/-- The bits of the magnitude: all but the sign. -/
def magnitudeBits (x : Binary32) : Nat := x.bits.toNat % signWeight

/-- The sign bit. -/
def isNegative (x : Binary32) : Bool := signWeight ≤ x.bits.toNat

/-- The magnitude bits of infinity. Below are the finite values in order,
above are the NaNs. -/
def infinityBits : Nat := 0xFF * binadeSize

def isNaN (x : Binary32) : Bool := infinityBits < x.magnitudeBits

def isInfinite (x : Binary32) : Bool := x.magnitudeBits = infinityBits

def isFinite (x : Binary32) : Bool := x.magnitudeBits < infinityBits

/-- Zero of either sign. -/
def isZero (x : Binary32) : Bool := x.magnitudeBits = 0

/-- The value with the given sign and magnitude bits. -/
def ofMagnitude (negative : Bool) (magnitude : Nat) : Binary32 :=
  ⟨UInt32.ofNat (magnitude + if negative then signWeight else 0)⟩

/-- Positive zero. -/
def zero : Binary32 := ⟨0⟩

/-- The quiet NaN that arithmetic gives. -/
def nan : Binary32 := ofMagnitude false (infinityBits + binadeSize / 2)

/-- How many units make one. -/
def unitsPerOne : Nat := Nat.pow 2 149

/-- The magnitude of a finite value in units of 2⁻¹⁴⁹: the significand, with
its leading one if the value is normal, moved up by the exponent. -/
def units (x : Binary32) : Nat :=
  let exponent := x.magnitudeBits / binadeSize
  let fraction := x.magnitudeBits % binadeSize
  if exponent = 0 then fraction
  else (binadeSize + fraction) * Nat.pow 2 (exponent - 1)

end Binary32

end DetectorHeader
