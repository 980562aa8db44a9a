/-
Rounding finds the nearest value, and on a tie the even one
(`nearestMagnitude_roundsTo`).

What it should find is said over the rationals, by distance alone
(`RoundsTo`), and only one value can be meant (`RoundsTo.unique`). As the
magnitude bits count the values in order, a number that is not too great lies
between the values of two successive bits, and only these two have to be
compared (`RoundsTo.down`, `RoundsTo.up`). The binade that the rounding chooses
has both of them on its grid (`unitsOf_binade`), also where the upper one
starts the next binade.
-/
import DetectorHeader.Binary32.Round
import Mathlib

namespace DetectorHeader.Binary32

-- ============================================================== magnitudes

/-- The magnitude that has the given bits, in units. Infinity counts as the
power of two that comes after the greatest finite value. -/
def unitsOf (m : Nat) : Nat :=
  if m / binadeSize = 0 then m % binadeSize
  else (binadeSize + m % binadeSize) * 2 ^ (m / binadeSize - 1)

/-- The magnitude that has the given bits. -/
def magnitude (m : Nat) : ℚ := unitsOf m / unitsPerOne

theorem units_eq_unitsOf (x : Binary32) : x.units = unitsOf x.magnitudeBits :=
  rfl

/-- The unit is a part of one. -/
theorem unitsPerOne_pos : 0 < unitsPerOne := Nat.pow_pos (by decide)

/-- From a binade to the start of the next, the magnitudes are the multiples
of its spacing. The subnormals go with the first binade. -/
theorem unitsOf_binade {b j : Nat} (hlow : b = 0 ∨ binadeSize ≤ j)
    (hhigh : j ≤ 2 * binadeSize) :
    unitsOf (b * binadeSize + j) = j * 2 ^ b := by
  have hsize : binadeSize = 8388608 := rfl
  unfold unitsOf
  rw [hsize] at hlow hhigh ⊢
  rcases Nat.lt_or_ge j 8388608 with hj | hj
  · obtain rfl : b = 0 := by omega
    rw [if_pos (by omega)]
    omega
  · rw [if_neg (by omega)]
    rcases Nat.lt_or_ge j (2 * 8388608) with hj' | hj'
    · have hexponent : (b * 8388608 + j) / 8388608 - 1 = b := by omega
      have hfraction : 8388608 + (b * 8388608 + j) % 8388608 = j := by omega
      rw [hexponent, hfraction]
    · have hexponent : (b * 8388608 + j) / 8388608 - 1 = b + 1 := by omega
      have hfraction : 8388608 + (b * 8388608 + j) % 8388608 = 8388608 := by
        omega
      obtain rfl : j = 8388608 * 2 := by omega
      rw [hexponent, hfraction, Nat.pow_succ]
      ring

/-- Magnitudes are in the order of their bit patterns. -/
theorem unitsOf_strictMono : StrictMono unitsOf := by
  refine strictMono_nat_of_lt_succ fun m => ?_
  have hsize : binadeSize = 8388608 := rfl
  obtain ⟨b, j, hm, hlow, hhigh⟩ : ∃ b j, m = b * binadeSize + j
      ∧ (b = 0 ∨ binadeSize ≤ j) ∧ j < 2 * binadeSize := by
    refine ⟨m / binadeSize - 1, m - (m / binadeSize - 1) * binadeSize, ?_⟩
    rw [hsize]
    omega
  rw [hm, Nat.add_assoc, unitsOf_binade hlow hhigh.le,
    unitsOf_binade (hlow.imp_right (Nat.le_succ_of_le ·)) hhigh]
  exact Nat.mul_lt_mul_of_pos_right (Nat.lt_succ_self j)
    (Nat.pow_pos (by decide))

/-- And so they are as rational numbers. -/
theorem magnitude_strictMono : StrictMono magnitude := by
  intro m k h
  have hunits : (unitsOf m : ℚ) < unitsOf k :=
    Nat.cast_lt.mpr (unitsOf_strictMono h)
  exact div_lt_div_of_pos_right hunits (Nat.cast_pos.mpr unitsPerOne_pos)

-- ================================================================ rounding

/-- The bits of the magnitude nearest to `q`, of two that are equally near
the even one. -/
structure RoundsTo (q : ℚ) (m : Nat) : Prop where
  le_infinity : m ≤ infinityBits
  nearest : ∀ k ≤ infinityBits, |q - magnitude m| ≤ |q - magnitude k|
  even_of_tie : ∀ k ≤ infinityBits, k ≠ m →
    |q - magnitude k| = |q - magnitude m| → m % 2 = 0

namespace RoundsTo

variable {q : ℚ} {m m' lo : Nat}

/-- A magnitude between two that are equally near is nearer. -/
private theorem nearer_of_between {a b c : ℚ} (hab : a < b) (hbc : b < c)
    (h : |q - a| = |q - c|) : |q - b| < |q - a| := by
  have hac : q - a ≠ q - c := by linarith
  have hmiddle : q - a = -(q - c) := (abs_eq_abs.mp h).resolve_left hac
  rw [abs_of_nonneg (a := q - a) (by linarith), abs_lt]
  constructor
  · linarith
  · linarith

/-- Nothing rounds to each of two magnitudes that are apart. -/
private theorem not_lt_of_roundsTo (h : RoundsTo q m) (h' : RoundsTo q m') :
    ¬ m < m' := by
  intro hlt
  have htie : |q - magnitude m| = |q - magnitude m'| :=
    le_antisymm (h.nearest m' h'.le_infinity) (h'.nearest m h.le_infinity)
  have heven := h.even_of_tie m' h'.le_infinity hlt.ne' htie.symm
  have heven' := h'.even_of_tie m h.le_infinity hlt.ne htie
  -- both are even, so there is one between them
  have hbetween : m + 1 < m' := by omega
  have hnearer := nearer_of_between (magnitude_strictMono (Nat.lt_succ_self m))
    (magnitude_strictMono hbetween) htie
  exact (h.nearest (m + 1) (hbetween.le.trans h'.le_infinity)).not_gt hnearer

/-- Rounding has one result. -/
theorem unique (h : RoundsTo q m) (h' : RoundsTo q m') : m = m' :=
  le_antisymm (not_lt.mp (not_lt_of_roundsTo h' h))
    (not_lt.mp (not_lt_of_roundsTo h h'))

/-- A magnitude is rounded to itself. -/
theorem exact (hm : m ≤ infinityBits) : RoundsTo (magnitude m) m where
  le_infinity := hm
  nearest k _ := by
    rw [sub_self, abs_zero]
    exact abs_nonneg _
  even_of_tie k _ hne htie := by
    rw [sub_self, abs_zero, abs_eq_zero, sub_eq_zero] at htie
    exact absurd (magnitude_strictMono.injective htie).symm hne

/-- The distance to a magnitude that is not above. -/
theorem distance_of_le {k : Nat} (h : magnitude m ≤ q) (hk : k ≤ m) :
    |q - magnitude k| = q - magnitude k :=
  abs_of_nonneg (sub_nonneg.mpr
    ((magnitude_strictMono.monotone hk).trans h))

/-- The distance to a magnitude that is not below. -/
theorem distance_of_ge {k : Nat} (h : q ≤ magnitude m) (hk : m ≤ k) :
    |q - magnitude k| = magnitude k - q := by
  rw [abs_sub_comm]
  exact abs_of_nonneg (sub_nonneg.mpr
    (h.trans (magnitude_strictMono.monotone hk)))

/-- Nothing finite is nearer to what is beyond infinity. -/
theorem overflow (h : magnitude infinityBits ≤ q) :
    RoundsTo q infinityBits := by
  refine ⟨le_rfl, fun k hk => ?_, fun _ _ _ _ => rfl⟩
  rw [distance_of_le h le_rfl, distance_of_le h hk]
  exact sub_le_sub_left (magnitude_strictMono.monotone hk) q

section

variable (hlow : magnitude lo ≤ q) (hhigh : q ≤ magnitude (lo + 1))
include hlow hhigh

/-- No magnitude is nearer than the nearer one of two successive ones. -/
theorem le_distance {distance : ℚ} (hlower : distance ≤ q - magnitude lo)
    (hupper : distance ≤ magnitude (lo + 1) - q) (k : Nat) :
    distance ≤ |q - magnitude k| := by
  rcases Nat.lt_or_ge lo k with hk | hk
  · rw [distance_of_ge hhigh hk]
    exact hupper.trans
      (sub_le_sub_right (magnitude_strictMono.monotone hk) q)
  · rw [distance_of_le hlow hk]
    exact hlower.trans (sub_le_sub_left (magnitude_strictMono.monotone hk) q)

/-- The lower one of two successive magnitudes is nearer, or it is even. -/
theorem down (hle : lo ≤ infinityBits)
    (hnear : q - magnitude lo ≤ magnitude (lo + 1) - q)
    (htie : q - magnitude lo = magnitude (lo + 1) - q → lo % 2 = 0) :
    RoundsTo q lo := by
  have hself := distance_of_le hlow le_rfl
  refine ⟨hle, fun k _ => ?_, fun k _ hne heq => ?_⟩
  · rw [hself]
    exact le_distance hlow hhigh le_rfl hnear k
  · rw [hself] at heq
    rcases Nat.lt_or_ge lo k with hk | hk
    · have hnext := magnitude_strictMono.monotone (Nat.succ_le_of_lt hk)
      rw [distance_of_ge hhigh hk] at heq
      exact htie (by linarith)
    · have hbefore := magnitude_strictMono (lt_of_le_of_ne hk hne)
      rw [distance_of_le hlow hk] at heq
      linarith

/-- The upper one of two successive magnitudes is nearer, or it is even. -/
theorem up (hle : lo + 1 ≤ infinityBits)
    (hnear : magnitude (lo + 1) - q ≤ q - magnitude lo)
    (htie : magnitude (lo + 1) - q = q - magnitude lo → (lo + 1) % 2 = 0) :
    RoundsTo q (lo + 1) := by
  have hself := distance_of_ge hhigh le_rfl
  refine ⟨hle, fun k _ => ?_, fun k _ hne heq => ?_⟩
  · rw [hself]
    exact le_distance hlow hhigh hnear le_rfl k
  · rw [hself] at heq
    rcases Nat.lt_or_ge lo k with hk | hk
    · have hafter := magnitude_strictMono (lt_of_le_of_ne hk hne.symm)
      rw [distance_of_ge hhigh hk] at heq
      linarith
    · have hbefore := magnitude_strictMono.monotone hk
      rw [distance_of_le hlow hk] at heq
      exact htie (by linarith)

end

section

variable {r spacing : Nat} {c : ℚ} (hc : 0 < c) (hrange : r < spacing)
  (hbelow : q - magnitude lo = r / c)
  (habove : magnitude (lo + 1) - q = (spacing - r) / c)
include hc hrange hbelow habove

/-- With a remainder left the quotient is between two neighbours. -/
theorem between_of_remainder :
    magnitude lo ≤ q ∧ q ≤ magnitude (lo + 1) := by
  have hrange' : (r : ℚ) ≤ spacing := by exact_mod_cast hrange.le
  constructor
  · rw [← sub_nonneg, hbelow]
    positivity
  · rw [← sub_nonneg, habove]
    exact div_nonneg (sub_nonneg.mpr hrange') hc.le

/-- The lower magnitude counts where the remainder is the smaller part of the
spacing. -/
theorem of_small_remainder (hle : lo ≤ infinityBits)
    (hr : 2 * r < spacing ∨ 2 * r = spacing ∧ lo % 2 = 0) :
    RoundsTo q lo := by
  obtain ⟨hlow, hhigh⟩ := between_of_remainder hc hrange hbelow habove
  refine .down hlow hhigh hle ?_ fun htie => ?_
  · rw [hbelow, habove, div_le_div_iff_of_pos_right hc, le_sub_iff_add_le]
    exact_mod_cast (by omega : r + r ≤ spacing)
  · rw [hbelow, habove, div_left_inj' hc.ne', eq_sub_iff_add_eq] at htie
    have htie' : r + r = spacing := by exact_mod_cast htie
    omega

/-- The upper magnitude counts where the remainder is the greater part of the
spacing. -/
theorem of_great_remainder (hle : lo + 1 ≤ infinityBits)
    (hr : spacing < 2 * r ∨ 2 * r = spacing ∧ lo % 2 = 1) :
    RoundsTo q (lo + 1) := by
  obtain ⟨hlow, hhigh⟩ := between_of_remainder hc hrange hbelow habove
  refine .up hlow hhigh hle ?_ fun htie => ?_
  · rw [hbelow, habove, div_le_div_iff_of_pos_right hc, sub_le_iff_le_add]
    exact_mod_cast (by omega : spacing ≤ r + r)
  · rw [hbelow, habove, div_left_inj' hc.ne', sub_eq_iff_eq_add] at htie
    have htie' : spacing = r + r := by exact_mod_cast htie
    omega

end

end RoundsTo

-- ============================================================= the binade

/-- The binade that the rounding chooses holds the quotient, or it is the
first. -/
theorem quotient_in_binade (n d : Nat) :
    let b := (n / d).log2 - 23
    (b = 0 ∨ binadeSize ≤ n / (d * 2 ^ b))
      ∧ n / (d * 2 ^ b) < 2 * binadeSize := by
  intro b
  have hsize : binadeSize = 2 ^ 23 := rfl
  rw [← Nat.div_div_eq_div_mul, hsize, ← Nat.pow_succ']
  have hhigh : n / d < 2 ^ ((n / d).log2 + 1) := Nat.lt_log2_self
  rcases Nat.lt_or_ge 23 (n / d).log2 with hlog | hlog
  · have hb : (n / d).log2 = 23 + b := by omega
    have hlow : 2 ^ (n / d).log2 ≤ n / d :=
      Nat.log2_self_le fun hzero => by
        rw [hzero] at hlog
        exact absurd hlog (by decide)
    rw [hb] at hlow hhigh
    refine ⟨.inr ?_, ?_⟩
    · rwa [Nat.le_div_iff_mul_le (Nat.pow_pos (by decide)), ← Nat.pow_add]
    · rwa [Nat.div_lt_iff_lt_mul (Nat.pow_pos (by decide)), ← Nat.pow_add,
        show 24 + b = 23 + b + 1 by omega]
  · have hb : b = 0 := by omega
    rw [hb, Nat.pow_zero, Nat.div_one]
    exact ⟨.inl rfl, hhigh.trans_le
      (Nat.pow_le_pow_right (by decide) (by omega))⟩

/-- What the rounded quotient is, by the remainder. -/
theorem divNearestEven_cases (n d : Nat) :
    (divNearestEven n d = n / d
        ∧ (2 * (n % d) < d ∨ 2 * (n % d) = d ∧ n / d % 2 = 0))
      ∨ (divNearestEven n d = n / d + 1
        ∧ (d < 2 * (n % d) ∨ 2 * (n % d) = d ∧ n / d % 2 = 1)) := by
  unfold divNearestEven
  dsimp only
  split
  · exact .inl ⟨rfl, ‹_›⟩
  · exact .inr ⟨rfl, by omega⟩

/-- A fraction lies between the magnitudes at the quotient and after it, and
the remainder tells how far it is from either. -/
theorem distance_in_binade (n : Nat) {d b : Nat} (hd : 0 < d)
    (hlow : b = 0 ∨ binadeSize ≤ n * unitsPerOne / (d * 2 ^ b))
    (hhigh : n * unitsPerOne / (d * 2 ^ b) < 2 * binadeSize) :
    let t := n * unitsPerOne / (d * 2 ^ b)
    let r := n * unitsPerOne % (d * 2 ^ b)
    (n / d - magnitude (b * binadeSize + t) : ℚ) = r / (d * unitsPerOne)
      ∧ (magnitude (b * binadeSize + t + 1) - n / d : ℚ)
        = ((d * 2 ^ b : ℕ) - r) / (d * unitsPerOne) := by
  intro t r
  have hd' : (d : ℚ) ≠ 0 := Nat.cast_ne_zero.mpr hd.ne'
  have hunits : (unitsPerOne : ℚ) ≠ 0 :=
    Nat.cast_ne_zero.mpr unitsPerOne_pos.ne'
  have hdivision : (n * unitsPerOne : ℚ) = d * 2 ^ b * t + r := by
    exact_mod_cast (Nat.div_add_mod (n * unitsPerOne) (d * 2 ^ b)).symm
  have hmagnitude : magnitude (b * binadeSize + t)
      = t * 2 ^ b / unitsPerOne := by
    unfold magnitude
    rw [unitsOf_binade hlow hhigh.le]
    push_cast
    rfl
  have hnext : magnitude (b * binadeSize + t + 1)
      = (t + 1) * 2 ^ b / unitsPerOne := by
    unfold magnitude
    rw [Nat.add_assoc,
      unitsOf_binade (hlow.imp_right (Nat.le_succ_of_le ·)) hhigh]
    push_cast
    rfl
  rw [hmagnitude, hnext]
  push_cast
  constructor
  · field_simp
    linarith
  · field_simp
    linarith

/-- Rounding a fraction gives the nearest magnitude. -/
theorem nearestMagnitude_roundsTo (n : Nat) {d : Nat} (hd : 0 < d) :
    RoundsTo (n / d) (nearestMagnitude n d) := by
  obtain ⟨hlow, hhigh⟩ := quotient_in_binade (n * unitsPerOne) d
  obtain ⟨hbelow, habove⟩ := distance_in_binade n hd hlow hhigh
  have hrounded := divNearestEven_cases (n * unitsPerOne)
    (d * 2 ^ ((n * unitsPerOne / d).log2 - 23))
  show RoundsTo (n / d) (min (((n * unitsPerOne / d).log2 - 23) * binadeSize
    + divNearestEven (n * unitsPerOne)
      (d * 2 ^ ((n * unitsPerOne / d).log2 - 23))) infinityBits)
  generalize (n * unitsPerOne / d).log2 - 23 = b at *
  have hcommon : (0 : ℚ) < d * unitsPerOne := by
    exact_mod_cast Nat.mul_pos hd unitsPerOne_pos
  have hremainder : n * unitsPerOne % (d * 2 ^ b) < d * 2 ^ b :=
    Nat.mod_lt _ (Nat.mul_pos hd (Nat.pow_pos (by decide)))
  -- A binade has an even number of magnitudes before it.
  have hparity : ∀ t, (b * binadeSize + t) % 2 = t % 2 := by
    intro t
    rw [show binadeSize = 2 * 0x400000 from rfl]
    omega
  rcases Nat.lt_or_ge (b * binadeSize + n * unitsPerOne / (d * 2 ^ b))
    infinityBits with hfinite | hover
  · rcases hrounded with ⟨hrounded, hr⟩ | ⟨hrounded, hr⟩
    · rw [hrounded, min_eq_left hfinite.le]
      rw [← hparity] at hr
      exact .of_small_remainder hcommon hremainder hbelow habove hfinite.le hr
    · rw [hrounded, ← Nat.add_assoc, min_eq_left hfinite]
      rw [← hparity] at hr
      exact .of_great_remainder hcommon hremainder hbelow habove hfinite hr
  · rw [min_eq_right (by omega)]
    obtain ⟨hlow, -⟩ :=
      RoundsTo.between_of_remainder hcommon hremainder hbelow habove
    exact .overflow ((magnitude_strictMono.monotone hover).trans hlow)

end DetectorHeader.Binary32
