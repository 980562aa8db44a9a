/-
The shortest decimal that reads back. Decimal numbers with a given exponent
form a grid, coarser for a greater exponent; a coarser grid means fewer
digits. `shortest` looks at the two neighbours of the value on one grid after
the other, the coarsest first, and takes the first that rounds back to the
value: of two on one grid the nearer, and of two equally near the greater.

A point of a grid that rounds to the value at all has a neighbour of the
value between it and the value, so looking at the neighbours is enough.
-/
import DetectorHeader.Binary32.Round
import DetectorHeader.Decimal

namespace DetectorHeader.Binary32

/-- Whether a decimal rounds to the magnitude of `x`. -/
def readsBack (x : Binary32) (d : Decimal) : Bool :=
  nearestMagnitude d.numerator d.denominator = x.magnitudeBits

/-- The one of two decimals that reads back, the nearer one if both do. -/
def choose? (below above : Decimal)
    (belowReadsBack aboveReadsBack belowIsNearer : Bool) : Option Decimal :=
  match belowReadsBack, aboveReadsBack with
  | true, true => some (if belowIsNearer then below else above)
  | true, false => some below
  | false, true => some above
  | false, false => none

/-- The neighbour of the magnitude of `x` that reads back, on the grid of
decimals with the given exponent. -/
def neighbour? (x : Binary32) (exponent : Int) : Option Decimal :=
  let n := x.units * Nat.pow 10 (-exponent).toNat
  let d := unitsPerOne * Nat.pow 10 exponent.toNat
  let below : Decimal := ⟨n / d, exponent⟩
  let above : Decimal := ⟨n / d + 1, exponent⟩
  choose? below above (x.readsBack below) (x.readsBack above)
    (2 * (n % d) < d)

/-- All the digits of the magnitude of a finite `x`: a unit is 5¹⁴⁹ · 10⁻¹⁴⁹. -/
def exact (x : Binary32) : Decimal := ⟨x.units * Nat.pow 5 149, -149⟩

/-- The greatest exponent of a decimal that can read back. -/
def coarsestExponent : Int := 38

/-- Grids tried: the finest has exponent -52, and spacing far below the
smallest subnormal. -/
def gridCount : Nat := 91

/-- The decimal of fewest digits that rounds to the magnitude of a finite
`x`, the nearest to `x` among those. -/
def shortest (x : Binary32) : Decimal :=
  if x.isZero then ⟨0, 0⟩
  else
    let hit := (List.range gridCount).findSome? fun (i : Nat) =>
      x.neighbour? (coarsestExponent - i)
    hit.getD x.exact

/-- `-` for a set sign bit. -/
def signText (x : Binary32) : List Char := if x.isNegative then ['-'] else []

/-- The name of a value that is not finite. -/
def specialName (x : Binary32) : List Char :=
  if x.isNaN then "NaN".toList else x.signText ++ "inf".toList

/-- Written for a reader of logs: positional from 10⁻⁴ on and below 10¹⁶,
scientific outside. -/
def display (x : Binary32) : String :=
  if x.isFinite then
    let d := x.shortest
    let short := x.isZero || (-4 ≤ d.leadingExponent && d.leadingExponent < 16)
    String.ofList (x.signText ++ if short then d.positional else d.scientific)
  else String.ofList x.specialName

end DetectorHeader.Binary32
