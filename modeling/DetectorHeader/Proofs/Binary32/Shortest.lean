/-
The shortest decimal of a finite value is rounded back to it
(`shortest_roundsTo`). Whichever grid it was found on, it was tried; and where
none was found it has all the digits, and is the value itself.
-/
import DetectorHeader.Binary32.Shortest
import DetectorHeader.Proofs.Binary32.Nearest
import DetectorHeader.Proofs.Decimal

namespace DetectorHeader.Binary32

variable {x : Binary32} {d : Decimal}

/-- A decimal that was tried with success is rounded to the value. -/
theorem roundsTo_of_readsBack (h : x.readsBack d = true) :
    RoundsTo d.value x.magnitudeBits := by
  unfold readsBack at h
  have hrounds := nearestMagnitude_roundsTo d.numerator d.denominator_pos
  rwa [decide_eq_true_iff.mp h, ← d.value_eq_div] at hrounds

/-- What is chosen is the one or the other neighbour, and will do. -/
theorem eq_of_choose? {below above : Decimal} {b a belowIsNearer : Bool}
    (h : choose? below above b a belowIsNearer = some d) :
    (b = true ∧ d = below) ∨ (a = true ∧ d = above) := by
  cases b with
  | true =>
      cases a with
      | true =>
          cases belowIsNearer with
          | true => exact .inl ⟨rfl, (Option.some.inj h).symm⟩
          | false => exact .inr ⟨rfl, (Option.some.inj h).symm⟩
      | false => exact .inl ⟨rfl, (Option.some.inj h).symm⟩
  | false =>
      cases a with
      | true => exact .inr ⟨rfl, (Option.some.inj h).symm⟩
      | false => cases h

/-- What is found on a grid is read back as the number. -/
theorem readsBack_of_neighbour? {exponent : Int}
    (h : x.neighbour? exponent = some d) : x.readsBack d = true := by
  rcases eq_of_choose? h with ⟨hreads, rfl⟩ | ⟨hreads, rfl⟩
  · exact hreads
  · exact hreads

/-- With all its digits a decimal has the value itself. -/
theorem exact_value (x : Binary32) :
    x.exact.value = magnitude x.magnitudeBits := by
  have hcoefficient : (x.exact.coefficient : ℚ)
      = unitsOf x.magnitudeBits * 5 ^ 149 := by
    rw [← units_eq_unitsOf]
    exact_mod_cast rfl
  have hunits : (unitsPerOne : ℚ) = 2 ^ 149 := by
    exact_mod_cast rfl
  have hpower : (10 : ℚ) ^ (-149 : Int) = 1 / (2 ^ 149 * 5 ^ 149) := by
    rw [← mul_pow]
    norm_num
  show (x.exact.coefficient : ℚ) * 10 ^ (-149 : Int) = _
  rw [hcoefficient, hpower, magnitude, hunits]
  field_simp

/-- The shortest decimal of a finite number rounds to it. -/
theorem shortest_roundsTo (hx : x.isFinite = true) :
    RoundsTo x.shortest.value x.magnitudeBits := by
  have hle : x.magnitudeBits ≤ infinityBits := (of_decide_eq_true hx).le
  unfold shortest
  split
  case isTrue hzero =>
      have hbits : x.magnitudeBits = 0 := of_decide_eq_true hzero
      have hvalue : Decimal.value ⟨0, 0⟩ = magnitude 0 := by
        simp [Decimal.value, magnitude, unitsOf]
      rw [hbits, hvalue]
      exact .exact (Nat.zero_le _)
  case isFalse =>
      dsimp only
      cases hhit : (List.range gridCount).findSome? _ with
      | some d =>
          obtain ⟨i, -, hi⟩ := List.exists_of_findSome?_eq_some hhit
          exact roundsTo_of_readsBack (readsBack_of_neighbour? hi)
      | none =>
          show RoundsTo x.exact.value _
          rw [exact_value]
          exact .exact hle

end DetectorHeader.Binary32
