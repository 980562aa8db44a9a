/-
The shortest decimal of a finite value has the fewest digits
(`shortest_coefficient_lt`).

The numbers that are rounded to one value are an interval
(`RoundsTo.between`), and the value itself is one of them. So if any point of
a grid is rounded to the value, then a neighbour of the value is, and the grid
that the shortest decimal is found on is the coarsest one with such a point
(`exponent_le_shortest`). A decimal of fewer digits would be less than a power
of ten that is not greater than the shortest decimal. That power would be
rounded to the value as well, and is on a coarser grid.
-/
import DetectorHeader.Proofs.Binary32.Shortest

namespace DetectorHeader.Binary32

variable {x : Binary32} {d : Decimal} {m c : Nat} {e : Int}

-- =============================================================== the interval

/-- Up to the middle of two numbers the lower one is nearer. -/
theorem nearer_lower_iff {q a b : ℚ} (h : a < b) :
    |q - a| ≤ |q - b| ↔ 2 * q ≤ a + b := by
  have hsquares : (q - b) ^ 2 - (q - a) ^ 2 = (b - a) * (a + b - 2 * q) := by
    ring
  rw [← sq_le_sq, ← sub_nonneg, hsquares,
    mul_nonneg_iff_of_pos_left (sub_pos.mpr h), sub_nonneg]

/-- From the middle of two numbers on the upper one is nearer. -/
theorem nearer_upper_iff {q a b : ℚ} (h : a < b) :
    |q - b| ≤ |q - a| ↔ a + b ≤ 2 * q := by
  have hsquares : (q - a) ^ 2 - (q - b) ^ 2 = (b - a) * (2 * q - (a + b)) := by
    ring
  rw [← sq_le_sq, ← sub_nonneg, hsquares,
    mul_nonneg_iff_of_pos_left (sub_pos.mpr h), sub_nonneg]

namespace RoundsTo

/-- What is between two numbers that are rounded alike is rounded as they
are. -/
theorem between {q r s : ℚ} (hq : RoundsTo q m) (hs : RoundsTo s m)
    (hqr : q ≤ r) (hrs : r ≤ s) : RoundsTo r m := by
  refine ⟨hq.le_infinity, fun k hk => ?_, fun k hk hne htie => ?_⟩
  · rcases lt_trichotomy m k with hlt | rfl | hlt
    · have hgap := magnitude_strictMono hlt
      have hnear := (nearer_lower_iff hgap).mp (hs.nearest k hk)
      rw [nearer_lower_iff hgap]
      linarith
    · exact le_rfl
    · have hgap := magnitude_strictMono hlt
      have hnear := (nearer_upper_iff hgap).mp (hq.nearest k hk)
      rw [nearer_upper_iff hgap]
      linarith
  · -- in the middle there is no room between the number and the outer one
    rcases lt_or_gt_of_ne hne with hlt | hlt
    · have hgap := magnitude_strictMono hlt
      have hmiddle := (nearer_lower_iff hgap).mp htie.le
      have hnear := (nearer_upper_iff hgap).mp (hq.nearest k hk)
      obtain rfl : q = r := by linarith
      exact hq.even_of_tie k hk hne htie
    · have hgap := magnitude_strictMono hlt
      have hmiddle := (nearer_upper_iff hgap).mp htie.le
      have hnear := (nearer_lower_iff hgap).mp (hs.nearest k hk)
      obtain rfl : s = r := by linarith
      exact hs.even_of_tie k hk hne htie

/-- What is less than half a unit away is rounded to the value. -/
theorem of_close {q : ℚ} (hm : m ≤ infinityBits)
    (h : 2 * unitsPerOne * |q - magnitude m| < 1) : RoundsTo q m := by
  have hunits : (0 : ℚ) < unitsPerOne := Nat.cast_pos.mpr unitsPerOne_pos
  have hfar : ∀ k, k ≠ m → |q - magnitude m| < |q - magnitude k| := by
    intro k hne
    have hapart : (1 : ℚ) ≤ |(unitsOf m : ℚ) - unitsOf k| := by
      have hunitsOf : (unitsOf m : ℤ) - unitsOf k ≠ 0 := by
        rw [sub_ne_zero]
        exact_mod_cast unitsOf_strictMono.injective.ne hne.symm
      exact_mod_cast Int.one_le_abs hunitsOf
    have hscaled : unitsPerOne * |magnitude m - magnitude k|
        = |(unitsOf m : ℚ) - unitsOf k| := by
      rw [magnitude, magnitude, ← sub_div, abs_div, abs_of_pos hunits,
        mul_div_cancel₀ _ hunits.ne']
    have htriangle := abs_sub_le (magnitude m) q (magnitude k)
    rw [abs_sub_comm (magnitude m) q] at htriangle
    have hsum := mul_le_mul_of_nonneg_left htriangle hunits.le
    have hless : unitsPerOne * |q - magnitude m|
        < unitsPerOne * |q - magnitude k| := by
      linarith
    exact lt_of_mul_lt_mul_left hless hunits.le
  refine ⟨hm, fun k _ => ?_, fun k _ hne htie => ?_⟩
  · by_cases hk : k = m
    · rw [hk]
    · exact (hfar k hk).le
  · exact absurd htie (hfar k hne).ne'

end RoundsTo

-- ============================================================= the neighbours

/-- The number of the last point of a grid that is not above the magnitude of
`x`. -/
def gridFloor (x : Binary32) (exponent : Int) : Nat :=
  x.units * Nat.pow 10 (-exponent).toNat
    / (unitsPerOne * Nat.pow 10 exponent.toNat)

/-- A magnitude is between two neighbours on every grid of decimals. -/
theorem magnitude_on_grid (x : Binary32) (e : Int) :
    Decimal.value ⟨x.gridFloor e, e⟩ ≤ magnitude x.magnitudeBits
      ∧ magnitude x.magnitudeBits < Decimal.value ⟨x.gridFloor e + 1, e⟩ := by
  have hspacing : 0 < unitsPerOne * 10 ^ e.toNat :=
    Nat.mul_pos unitsPerOne_pos (Nat.pow_pos (by decide))
  have hdivision : x.units * 10 ^ (-e).toNat
      = unitsPerOne * 10 ^ e.toNat * x.gridFloor e
        + x.units * 10 ^ (-e).toNat % (unitsPerOne * 10 ^ e.toNat) :=
    (Nat.div_add_mod _ _).symm
  have hremainder := Nat.mod_lt (x.units * 10 ^ (-e).toNat) hspacing
  have hlow : unitsPerOne * 10 ^ e.toNat * x.gridFloor e
      ≤ x.units * 10 ^ (-e).toNat := by
    omega
  have hhigh : x.units * 10 ^ (-e).toNat
      < unitsPerOne * 10 ^ e.toNat * (x.gridFloor e + 1) := by
    rw [Nat.mul_succ]
    omega
  have hunits : (0 : ℚ) < unitsPerOne := Nat.cast_pos.mpr unitsPerOne_pos
  unfold magnitude Decimal.value
  rw [← units_eq_unitsOf, Decimal.ten_zpow]
  constructor
  · rw [le_div_iff₀ hunits, ← mul_div_assoc, div_mul_eq_mul_div,
      div_le_iff₀ (by positivity)]
    have hcast : (unitsPerOne * 10 ^ e.toNat * x.gridFloor e : ℚ)
        ≤ x.units * 10 ^ (-e).toNat := by
      exact_mod_cast hlow
    linarith
  · rw [div_lt_iff₀ hunits, ← mul_div_assoc, div_mul_eq_mul_div,
      lt_div_iff₀ (by positivity)]
    have hcast : (x.units * 10 ^ (-e).toNat : ℚ)
        < unitsPerOne * 10 ^ e.toNat * (x.gridFloor e + 1 : ℕ) := by
      exact_mod_cast hhigh
    linarith

/-- A decimal that rounds to the magnitude is taken for it. -/
theorem readsBack_of_roundsTo (h : RoundsTo d.value x.magnitudeBits) :
    x.readsBack d = true := by
  have hrounds := nearestMagnitude_roundsTo d.numerator d.denominator_pos
  rw [← d.value_eq_div] at hrounds
  exact decide_eq_true (hrounds.unique h)

/-- One of two neighbours is chosen if one of them will do. -/
theorem exists_choose? {below above : Decimal} {b a belowIsNearer : Bool}
    (h : b = true ∨ a = true) :
    ∃ d, choose? below above b a belowIsNearer = some d := by
  cases b with
  | true => cases a <;> exact ⟨_, rfl⟩
  | false =>
      cases a with
      | true => exact ⟨_, rfl⟩
      | false => simp at h

/-- What is found on a grid has the exponent of the grid. -/
theorem exponent_of_neighbour? (h : x.neighbour? e = some d) :
    d.exponent = e := by
  rcases eq_of_choose? h with ⟨-, rfl⟩ | ⟨-, rfl⟩
  · rfl
  · rfl

/-- Where a point of a grid is rounded to the value, the neighbour on its side
is as well. -/
theorem exists_neighbour? (hx : x.isFinite = true)
    (h : RoundsTo (Decimal.value ⟨c, e⟩) x.magnitudeBits) :
    ∃ d, x.neighbour? e = some d := by
  have hfinite : x.magnitudeBits ≤ infinityBits := (of_decide_eq_true hx).le
  obtain ⟨hlow, hhigh⟩ := x.magnitude_on_grid e
  have hmono : ∀ {a b : Nat}, a ≤ b →
      Decimal.value ⟨a, e⟩ ≤ Decimal.value ⟨b, e⟩ := by
    intro a b hab
    unfold Decimal.value
    gcongr
  apply exists_choose?
  rcases Nat.lt_or_ge (x.gridFloor e) c with hc | hc
  · refine .inr (readsBack_of_roundsTo ?_)
    exact (RoundsTo.exact hfinite).between h hhigh.le (hmono hc)
  · refine .inl (readsBack_of_roundsTo ?_)
    exact h.between (.exact hfinite) (hmono hc) hlow

-- =================================================================== the grids

/-- Of the results at some of the first numbers the one at the least number is
found. -/
theorem exponent_of_findSome? {f : Nat → Option Decimal} {top : Int}
    (hf : ∀ i d, f i = some d → d.exponent = top - i) {n i : Nat} (hi : i < n)
    (h : ∃ d, f i = some d) (other : Decimal) :
    top - i ≤ (((List.range n).findSome? f).getD other).exponent := by
  obtain ⟨d, hd⟩ := h
  cases hhit : (List.range n).findSome? f with
  | none =>
      have hnone := List.findSome?_eq_none_iff.mp hhit i (List.mem_range.mpr hi)
      cases hd.symm.trans hnone
  | some first =>
      obtain ⟨before, k, after, hsplit, hk, hbefore⟩ :=
        List.findSome?_eq_some_iff.mp hhit
      rw [List.range_eq_range'] at hsplit
      obtain ⟨l, -, rfl, hafter⟩ := List.range'_eq_append_iff.mp hsplit
      obtain ⟨rfl, -⟩ := List.range'_eq_cons_iff.mp hafter.symm
      rw [Option.getD_some, hf _ _ hk]
      by_contra hlater
      have hmem : i ∈ List.range' 0 l := by
        rw [List.mem_range'_1]
        omega
      cases hd.symm.trans (hbefore i hmem)

/-- What is not zero is looked for on one grid after the other, the coarsest
first. -/
theorem shortest_of_ne_zero (hzero : x.isZero = false) :
    x.shortest = ((List.range gridCount).findSome? fun i : Nat =>
      x.neighbour? (coarsestExponent - i)).getD x.exact :=
  if_neg (ne_true_of_eq_false hzero)

/-- A value that is not zero is not what zero is rounded to. -/
theorem pos_of_roundsTo (hzero : x.isZero = false)
    (h : RoundsTo (Decimal.value ⟨c, e⟩) x.magnitudeBits) : 0 < c := by
  rw [Nat.pos_iff_ne_zero]
  rintro rfl
  have hvalue : Decimal.value ⟨0, e⟩ = magnitude 0 := by
    simp [Decimal.value, magnitude, unitsOf]
  rw [hvalue] at h
  have hbits := h.unique (.exact (Nat.zero_le _))
  rw [Binary32.isZero, hbits] at hzero
  cases hzero

/-- On a grid coarser than all that are tried, everything but zero is beyond
infinity. -/
theorem le_coarsestExponent (hx : x.isFinite = true) (hzero : x.isZero = false)
    (h : RoundsTo (Decimal.value ⟨c, e⟩) x.magnitudeBits) :
    e ≤ coarsestExponent := by
  by_contra hcoarse
  have hc : (1 : ℚ) ≤ c := by
    exact_mod_cast pos_of_roundsTo hzero h
  -- The bits of infinity are where the magnitude 2¹²⁸ would be.
  have hinfinity : magnitude infinityBits = 2 ^ 128 := by
    have hunits : (unitsPerOne : ℚ) = 2 ^ 149 := by
      exact_mod_cast rfl
    have hvalue : unitsOf infinityBits = binadeSize * 2 ^ 254 :=
      unitsOf_binade (b := 254) (.inr le_rfl) (by decide)
    have hsize : (binadeSize : ℚ) = 2 ^ 23 := by
      exact_mod_cast rfl
    rw [magnitude, hvalue, hunits]
    push_cast
    rw [hsize]
    norm_num
  have hspacing : (10 : ℚ) ^ 39 ≤ 10 ^ e :=
    zpow_le_zpow_right₀ (a := (10 : ℚ)) (m := 39) (by norm_num) (by
      unfold coarsestExponent at hcoarse
      omega)
  have hbeyond : magnitude infinityBits ≤ Decimal.value ⟨c, e⟩ := by
    rw [hinfinity]
    show (2 : ℚ) ^ 128 ≤ c * 10 ^ e
    calc (2 : ℚ) ^ 128 ≤ 10 ^ 39 := by norm_num
      _ ≤ 10 ^ e := hspacing
      _ ≤ c * 10 ^ e := le_mul_of_one_le_left (by positivity) hc
  have hbits := h.unique (.overflow hbeyond)
  exact (of_decide_eq_true hx).ne hbits

/-- The finest grid that is tried. -/
def finestExponent : Int := coarsestExponent - (gridCount - 1 : Nat)

/-- On the finest grid the neighbours are near enough. -/
theorem finest_roundsTo (hx : x.isFinite = true) :
    RoundsTo (Decimal.value ⟨x.gridFloor finestExponent, finestExponent⟩)
      x.magnitudeBits := by
  obtain ⟨hlow, hhigh⟩ := x.magnitude_on_grid finestExponent
  have hunits : (unitsPerOne : ℚ) = 2 ^ 149 := by
    exact_mod_cast rfl
  have hspacing : Decimal.value ⟨x.gridFloor finestExponent + 1, finestExponent⟩
      = Decimal.value ⟨x.gridFloor finestExponent, finestExponent⟩
        + 10 ^ (-52 : Int) := by
    show ((x.gridFloor finestExponent + 1 : ℕ) : ℚ) * 10 ^ (-52 : Int)
      = x.gridFloor finestExponent * 10 ^ (-52 : Int) + 10 ^ (-52 : Int)
    push_cast
    ring
  -- The steps of the finest grid are less than half of the least distance
  -- between two magnitudes.
  have hsmall : 2 * 2 ^ 149 * (10 : ℚ) ^ (-52 : Int) < 1 := by
    norm_num
  refine .of_close (of_decide_eq_true hx).le ?_
  rw [abs_sub_comm, abs_of_nonneg (sub_nonneg.mpr hlow), hunits]
  rw [hspacing] at hhigh
  have hdistance : magnitude x.magnitudeBits
      - Decimal.value ⟨x.gridFloor finestExponent, finestExponent⟩
      < 10 ^ (-52 : Int) := by
    linarith
  calc 2 * 2 ^ 149 * (magnitude x.magnitudeBits
        - Decimal.value ⟨x.gridFloor finestExponent, finestExponent⟩)
      ≤ 2 * 2 ^ 149 * 10 ^ (-52 : Int) := by gcongr
    _ < 1 := hsmall

/-- Where one of the grids has a hit, the shortest decimal is on that grid or a
coarser one. -/
theorem le_exponent_of_hit (hzero : x.isZero = false)
    (hlow : finestExponent ≤ e) (hhigh : e ≤ coarsestExponent)
    (h : ∃ d, x.neighbour? e = some d) : e ≤ x.shortest.exponent := by
  obtain ⟨i, hi, rfl⟩ :
      ∃ i : Nat, i < gridCount ∧ coarsestExponent - i = e := by
    have hcount : gridCount = 91 := rfl
    have hfinest : finestExponent = coarsestExponent - 90 := rfl
    refine ⟨(coarsestExponent - e).toNat, ?_, ?_⟩ <;> omega
  rw [shortest_of_ne_zero hzero]
  exact exponent_of_findSome? (fun _ _ => exponent_of_neighbour?) hi h _

/-- No point of a coarser grid than that of the shortest decimal is rounded to
the value. -/
theorem exponent_le_shortest (hx : x.isFinite = true) (hzero : x.isZero = false)
    (h : RoundsTo (Decimal.value ⟨c, e⟩) x.magnitudeBits) :
    e ≤ x.shortest.exponent := by
  have hcoarsest := le_coarsestExponent hx hzero h
  -- A grid that is finer than all that are tried is finer than the one with the
  -- hit, as the finest of these has one.
  by_cases hfine : finestExponent ≤ e
  · exact le_exponent_of_hit hzero hfine hcoarsest (exists_neighbour? hx h)
  · have hfinest := le_exponent_of_hit hzero le_rfl (by decide)
      (exists_neighbour? hx (finest_roundsTo hx))
    omega

-- ================================================================== the digits

/-- A decimal that is rounded to the value has as many digits as the shortest
one, or more. -/
theorem shortest_coefficient_lt (hx : x.isFinite = true)
    (h : RoundsTo d.value x.magnitudeBits) {k : Nat}
    (hd : d.coefficient < 10 ^ k) : x.shortest.coefficient < 10 ^ k := by
  cases hzero : x.isZero with
  | true =>
      have hshortest : x.shortest = ⟨0, 0⟩ := by
        unfold shortest
        exact if_pos hzero
      rw [hshortest]
      exact Nat.pow_pos (by decide)
  | false =>
      by_contra hlong
      have hexponent := exponent_le_shortest hx hzero (c := d.coefficient) h
      -- the power of ten between the two decimals
      have hpower : Decimal.value ⟨1, x.shortest.exponent + k⟩
          = 10 ^ k * (10 : ℚ) ^ x.shortest.exponent := by
        show ((1 : ℕ) : ℚ) * 10 ^ (x.shortest.exponent + k) = _
        rw [zpow_add₀ (by norm_num), zpow_natCast, Nat.cast_one, one_mul,
          mul_comm]
      have hbelow : d.value ≤ Decimal.value ⟨1, x.shortest.exponent + k⟩ := by
        rw [hpower]
        show (d.coefficient : ℚ) * 10 ^ d.exponent ≤ _
        have hcoefficient : (d.coefficient : ℚ) ≤ 10 ^ k := by
          exact_mod_cast hd.le
        have hspacing : (10 : ℚ) ^ d.exponent ≤ 10 ^ x.shortest.exponent :=
          zpow_le_zpow_right₀ (by norm_num) hexponent
        gcongr
      have habove : Decimal.value ⟨1, x.shortest.exponent + k⟩
          ≤ x.shortest.value := by
        rw [hpower]
        show _ ≤ (x.shortest.coefficient : ℚ) * 10 ^ x.shortest.exponent
        have hcoefficient : (10 : ℚ) ^ k ≤ x.shortest.coefficient := by
          exact_mod_cast not_lt.mp hlong
        gcongr
      have hrounds := h.between (shortest_roundsTo hx) hbelow habove
      have hcoarser := exponent_le_shortest hx hzero hrounds
      obtain rfl : k = 0 := by omega
      have hpos := pos_of_roundsTo hzero (c := d.coefficient) h
      omega

end DetectorHeader.Binary32
