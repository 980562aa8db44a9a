/-
The literal of a finite value (`Binary32.literal_shortest`).

It has a minus if the sign bit is set, a point with digits on either side of
it, no zero in front that could be left out, and an `f`. What it stands for is
rounded to the value, and nothing that is has fewer significant digits.

The significant digits of a number are those from the first one that is not
zero to the last such one (`significant`). They are what is left of the digits
when zeros are put on either side (`significant_pad`), as a literal has them,
and they are the coefficient of a decimal, to which `shortest_coefficient_lt`
applies.
-/
import DetectorHeader.Header
import DetectorHeader.Proofs.Binary32.Fewest

namespace DetectorHeader

-- ======================================================== significant digits

/-- The digits from the first to the last that is not zero. -/
def significant (digits : List Char) : List Char :=
  (digits.dropWhile (· = '0')).rdropWhile (· = '0')

/-- Zeros in front are not significant. -/
theorem significant_zeros_append (n : Nat) (l : List Char) :
    significant (List.replicate n '0' ++ l) = significant l := by
  unfold significant
  rw [List.dropWhile_append_of_pos]
  intro c hc
  simp [List.eq_of_mem_replicate hc]

/-- Zeros at the end are dropped with those before them. -/
theorem rdropWhile_append_zeros (l : List Char) (n : Nat) :
    (l ++ List.replicate n '0').rdropWhile (· = '0')
      = l.rdropWhile (· = '0') := by
  unfold List.rdropWhile
  rw [List.reverse_append, List.reverse_replicate,
    List.dropWhile_append_of_pos]
  intro c hc
  simp [List.eq_of_mem_replicate hc]

/-- Nor are zeros behind. -/
theorem significant_append_zeros (l : List Char) (n : Nat) :
    significant (l ++ List.replicate n '0') = significant l := by
  unfold significant
  rw [List.dropWhile_append]
  split
  · rename_i hempty
    rw [List.isEmpty_iff.mp hempty, List.dropWhile_replicate]
    simp
  · exact rdropWhile_append_zeros _ n

/-- Zeros on either side do not count. -/
theorem significant_pad (m n : Nat) (l : List Char) :
    significant (List.replicate m '0' ++ (l ++ List.replicate n '0'))
      = significant l := by
  rw [significant_zeros_append, significant_append_zeros]

theorem length_significant_le (l : List Char) :
    (significant l).length ≤ l.length :=
  (List.rdropWhile_prefix _ _).length_le.trans
    (List.dropWhile_suffix _).length_le

/-- Digits are their significant ones with zeros on either side. -/
theorem exists_eq_pad (l : List Char) : ∃ m n,
    l = List.replicate m '0' ++ (significant l ++ List.replicate n '0') := by
  have hfront : l.takeWhile (· = '0')
      = List.replicate (l.takeWhile (· = '0')).length '0' := by
    refine List.eq_replicate_of_mem fun c hc => ?_
    simpa using List.mem_takeWhile_imp hc
  have hback : (l.dropWhile (· = '0')).rtakeWhile (· = '0')
      = List.replicate ((l.dropWhile (· = '0')).rtakeWhile (· = '0')).length
        '0' := by
    refine List.eq_replicate_of_mem fun c hc => ?_
    simpa using List.mem_rtakeWhile_imp hc
  refine ⟨(l.takeWhile (· = '0')).length,
    ((l.dropWhile (· = '0')).rtakeWhile (· = '0')).length, ?_⟩
  rw [← hfront, ← hback, significant, List.rdropWhile_append_rtakeWhile,
    List.takeWhile_append_dropWhile]

/-- A number is what its significant digits stand for, times a power of ten. -/
theorem ofDigitChars_eq_significant (l : List Char) : ∃ n,
    Nat.ofDigitChars 10 l 0
      = Nat.ofDigitChars 10 (significant l) 0 * 10 ^ n := by
  obtain ⟨m, n, hl⟩ := exists_eq_pad l
  refine ⟨n, ?_⟩
  conv_lhs => rw [hl]
  rw [Nat.ofDigitChars_append, Nat.ofDigitChars_append,
    Nat.ofDigitChars_replicate_zero, Nat.ofDigitChars_replicate_zero,
    Nat.mul_zero, Nat.mul_comm]

/-- As many digits as there are bound a number. -/
theorem ofDigitChars_lt {l : List Char} (h : ∀ c ∈ l, c.isDigit) :
    Nat.ofDigitChars 10 l 0 < 10 ^ l.length := by
  induction l with
  | nil => exact Nat.one_pos
  | cons c l ih =>
      obtain ⟨hc, hl⟩ := List.forall_mem_cons.mp h
      have hdigit : c.toNat - '0'.toNat ≤ 9 := by
        have hnine : c.toNat ≤ '9'.toNat := by
          simp only [Char.isDigit, Bool.and_eq_true, decide_eq_true_eq] at hc
          exact UInt32.le_iff_toNat_le.mp hc.2
        exact Nat.sub_le_sub_right hnine _
      have hrest := ih hl
      rw [Nat.ofDigitChars_cons, Nat.ofDigitChars_eq_ofDigitChars_zero,
        List.length_cons, Nat.pow_succ]
      nlinarith

/-- No digits in front of a number are zeros, unless it is zero. -/
theorem head?_toDigits_ne {n : Nat} (hn : n ≠ 0) :
    (Nat.toDigits 10 n).head? ≠ some '0' := by
  induction n using Nat.strong_induction_on with
  | h n ih =>
      rw [Nat.toDigits_eq_if (by decide)]
      by_cases hsmall : n < 10
      · rw [if_pos hsmall]
        interval_cases n <;> first | contradiction | decide
      · have hlast := ih (n / 10) (by omega) (by omega)
        rw [if_neg hsmall, List.head?_append_of_ne_nil _ Nat.toDigits_ne_nil]
        exact hlast

/-- And a bound of a number bounds its digits. -/
theorem length_significant_toDigits_le {n k : Nat} (h : n < 10 ^ k) :
    (significant (Nat.toDigits 10 n)).length ≤ k := by
  rcases Nat.eq_zero_or_pos k with rfl | hk
  · obtain rfl : n = 0 := by simpa using h
    exact le_rfl
  · exact (length_significant_le _).trans
      ((Nat.length_toDigits_le_iff (by decide) hk).mpr h)

-- ============================================================== digits in text

/-- The two parts of a decimal have its digits, and zeros that fill up. -/
theorem whole_append_fraction (places : Nat) (text : List Char) : ∃ n,
    wholeOf places text ++ fractionOf places text
      = text ++ List.replicate n '0' := by
  unfold wholeOf fractionOf
  dsimp only
  split
  · rename_i hempty
    refine ⟨1, ?_⟩
    have hall := List.take_append_drop (text.length - places) text
    rw [List.isEmpty_iff.mp hempty, List.append_nil] at hall
    rw [hall]
    rfl
  · exact ⟨0, by rw [List.take_append_drop, List.replicate_zero,
      List.append_nil]⟩

/-- A number without zeros in front that could be left out. -/
def NoLeadingZero (text : List Char) : Prop :=
  text.head? = some '0' → text = ['0']

namespace Decimal

variable {d : Decimal}

/-- The text of a decimal has the significant digits of its coefficient. -/
theorem significant_positional (d : Decimal) :
    significant (d.whole ++ d.fraction) = significant d.digits := by
  obtain ⟨n, hn⟩ := whole_append_fraction (-d.exponent).toNat d.paddedDigits
  rw [whole, fraction, hn, significant_append_zeros, paddedDigits,
    significant_pad]

/-- There is a zero in front of the point only where nothing else is. -/
theorem noLeadingZero_whole (h : d.coefficient ≠ 0 ∨ d.exponent ≤ 0) :
    NoLeadingZero d.whole := by
  intro hzero
  unfold whole wholeOf paddedDigits at hzero ⊢
  dsimp only at hzero ⊢
  generalize hds : d.digits ++ List.replicate d.exponent.toNat '0' = ds
    at hzero ⊢
  generalize hplaces : (-d.exponent).toNat = places at hzero ⊢
  -- Either the first digit of the coefficient is in front of the point, or a
  -- zero that has been put there alone.
  rcases Nat.lt_or_ge places ds.length with hlong | hshort
  · have hpad : places + 1 - ds.length = 0 := by omega
    rw [hpad, List.replicate_zero, List.nil_append] at hzero ⊢
    rw [List.head?_take, if_neg (by omega), ← hds, digits,
      List.head?_append_of_ne_nil _ Nat.toDigits_ne_nil] at hzero
    by_cases hcoefficient : d.coefficient = 0
    · have hexponent := h.resolve_left (not_not.mpr hcoefficient)
      obtain rfl : ds = ['0'] := by
        rw [← hds, digits, hcoefficient, Int.toNat_of_nonpos hexponent]
        rfl
      obtain rfl : places = 0 := by simpa using hlong
      rfl
    · exact absurd hzero (head?_toDigits_ne hcoefficient)
  · have hlength : (List.replicate (places + 1 - ds.length) '0'
        ++ ds).length - places = 1 := by
      rw [List.length_append, List.length_replicate]
      omega
    obtain ⟨n, hn⟩ : ∃ n, places + 1 - ds.length = n + 1 :=
      ⟨places - ds.length, by omega⟩
    rw [hlength, hn]
    rfl

end Decimal

/-- What digits with a point stand for is a decimal of which they have the
coefficient. -/
theorem exists_decimal {whole fraction : List Char} (hwhole : Numeral whole)
    (hfraction : Numeral fraction) : ∃ d : Decimal,
    d.value = pointValue whole fraction
      ∧ d.coefficient < 10 ^ (significant (whole ++ fraction)).length := by
  obtain ⟨n, hn⟩ := ofDigitChars_eq_significant (whole ++ fraction)
  have hdigits : ∀ c ∈ significant (whole ++ fraction), c.isDigit := by
    intro c hc
    have hmem : c ∈ whole ++ fraction :=
      (List.dropWhile_suffix _).subset ((List.rdropWhile_prefix _ _).subset hc)
    rcases List.mem_append.mp hmem with hmem | hmem
    · exact hwhole.2 c hmem
    · exact hfraction.2 c hmem
  refine ⟨⟨Nat.ofDigitChars 10 (significant (whole ++ fraction)) 0,
    n - fraction.length⟩, ?_, ofDigitChars_lt hdigits⟩
  rw [pointValue_eq_div, hn, Decimal.value, zpow_sub₀ (by norm_num),
    zpow_natCast, zpow_natCast, Nat.cast_mul, Nat.cast_pow, Nat.cast_ofNat,
    mul_div_assoc]

-- ================================================================== literals

/-- The text is a minus for a negative number, digits, a point, digits and `f`,
and no zero in front could be left out. -/
structure SpelledLiteral (negative : Bool) (whole fraction text : List Char) :
    Prop where
  text_eq : text = (if negative then ['-'] else [])
    ++ (whole ++ '.' :: fraction) ++ ['f']
  numeral_whole : Numeral whole
  noLeadingZero : NoLeadingZero whole
  numeral_fraction : Numeral fraction

namespace Binary32

variable {x : Binary32}

/-- The shortest decimal of zero has no digits behind the point. -/
theorem shortest_noLeadingZero (hx : x.isFinite = true) :
    x.shortest.coefficient ≠ 0 ∨ x.shortest.exponent ≤ 0 := by
  by_cases hcoefficient : x.shortest.coefficient = 0
  · right
    have hzero : x.isZero = true := by
      by_contra hne
      have hpos := pos_of_roundsTo (eq_false_of_ne_true hne)
        (c := x.shortest.coefficient) (shortest_roundsTo hx)
      omega
    have hshortest : x.shortest = ⟨0, 0⟩ := if_pos hzero
    rw [hshortest]
  · exact .inl hcoefficient

/-- A finite value has a literal without an exponent, with a minus just if its
sign bit is set. The number in it is rounded to the value, and no number with
fewer significant digits is. -/
theorem literal_shortest (hx : x.isFinite = true) :
    ∃ text whole fraction, x.literal = .ok text
      ∧ SpelledLiteral x.isNegative whole fraction text
      ∧ RoundsTo (pointValue whole fraction) x.magnitudeBits
      ∧ ∀ whole' fraction', Numeral whole' → Numeral fraction' →
        RoundsTo (pointValue whole' fraction') x.magnitudeBits →
          (significant (whole ++ fraction)).length
            ≤ (significant (whole' ++ fraction')).length := by
  obtain ⟨hwhole, hfraction, hvalue⟩ := x.shortest.positional_spells
  have hleading := Decimal.noLeadingZero_whole (shortest_noLeadingZero hx)
  refine ⟨_, x.shortest.whole, x.shortest.fraction, if_pos hx,
    ⟨rfl, hwhole, hleading, hfraction⟩, ?_, ?_⟩
  · rw [hvalue]
    exact shortest_roundsTo hx
  · intro whole fraction hwhole hfraction hrounds
    obtain ⟨d, hd, hcoefficient⟩ := exists_decimal hwhole hfraction
    rw [← hd] at hrounds
    rw [Decimal.significant_positional]
    exact length_significant_toDigits_le
      (shortest_coefficient_lt hx hrounds hcoefficient)

/-- The smallest positive value. Its literal has one significant digit, behind
44 zeros. -/
def smallest : Binary32 := ⟨1⟩

theorem smallest_literal : smallest.isFinite = true
    ∧ ∃ text whole fraction, smallest.literal = .ok text
      ∧ SpelledLiteral smallest.isNegative whole fraction text
      ∧ RoundsTo (pointValue whole fraction) smallest.magnitudeBits
      ∧ ∀ whole' fraction', Numeral whole' → Numeral fraction' →
        RoundsTo (pointValue whole' fraction') smallest.magnitudeBits →
          (significant (whole ++ fraction)).length
            ≤ (significant (whole' ++ fraction')).length :=
  ⟨rfl, literal_shortest rfl⟩

end Binary32

end DetectorHeader
