/-
Numbers in text, and what they stand for.

`readNatural`, `readInteger` and `readDecimal` read the notations of a natural
number, an integer, and a decimal with a point, and nothing else. An integer
is read back from its text (`readInteger_toString`), and a decimal that is
written positionally is read as its value (`Decimal.readDecimal_positional`).
-/
import DetectorHeader.Decimal
import Mathlib

namespace DetectorHeader

-- ================================================================= reading

/-- A run of digits, at least one. -/
def Numeral (text : List Char) : Prop := text ≠ [] ∧ ∀ c ∈ text, c.isDigit

instance (text : List Char) : Decidable (Numeral text) :=
  inferInstanceAs (Decidable (_ ∧ _))

/-- Reads digits. -/
def readNatural (text : List Char) : Option Nat :=
  if Numeral text then some (Nat.ofDigitChars 10 text 0) else none

/-- Whether a minus is in front, and what follows. -/
def readSign : List Char → Bool × List Char
  | '-' :: text => (true, text)
  | text => (false, text)

/-- Reads digits, perhaps behind a minus. -/
def readInteger (text : List Char) : Option Int := do
  let n ← readNatural (readSign text).2
  return if (readSign text).1 then -n else n

/-- What the digits before and behind a point stand for. -/
def pointValue (whole fraction : List Char) : ℚ :=
  (Nat.ofDigitChars 10 whole 0 : ℚ)
    + (Nat.ofDigitChars 10 fraction 0 : ℚ) / 10 ^ fraction.length

/-- Reads digits, a point and digits. -/
def readDecimal (text : List Char) : Option ℚ :=
  match text.splitOn '.' with
  | [whole, fraction] =>
      if Numeral whole ∧ Numeral fraction then
        some (pointValue whole fraction)
      else none
  | _ => none

-- ================================================================ numerals

namespace Numeral

variable {text : List Char}

/-- There is nothing but digits in a numeral. -/
theorem notMem (h : Numeral text) {c : Char} (hc : c.isDigit = false) :
    c ∉ text := by
  intro hmem
  rw [h.2 c hmem] at hc
  cases hc

/-- A numeral is read as the number of its digits. -/
theorem readNatural_eq (h : Numeral text) :
    readNatural text = some (Nat.ofDigitChars 10 text 0) := if_pos h

/-- Text that starts with a digit has no sign. -/
theorem readSign_append (h : Numeral text) (rest : List Char) :
    readSign (text ++ rest) = (false, text ++ rest) := by
  obtain ⟨c, text, rfl⟩ := List.exists_cons_of_ne_nil h.1
  have hminus : c ≠ '-' := by
    rintro rfl
    exact h.notMem rfl List.mem_cons_self
  unfold readSign
  split
  · cases ‹c :: text ++ rest = _›
    exact absurd rfl hminus
  · rfl

end Numeral

/-- The digits of a number are a numeral. -/
theorem numeral_toDigits (n : Nat) : Numeral (Nat.toDigits 10 n) :=
  ⟨Nat.toDigits_ne_nil,
    fun _ hc => Nat.isDigit_of_mem_toDigits (by decide) (by decide) hc⟩

/-- The digits of a number are read back as the number. -/
theorem readNatural_toDigits (n : Nat) :
    readNatural (Nat.toDigits 10 n) = some n := by
  rw [(numeral_toDigits n).readNatural_eq, Nat.ofDigitChars_ten_toDigits]

theorem readSign_toDigits (n : Nat) :
    readSign (Nat.toDigits 10 n) = (false, Nat.toDigits 10 n) := by
  have hsign := (numeral_toDigits n).readSign_append []
  rwa [List.append_nil] at hsign

/-- The text of an integer is that of its magnitude, with a sign if it is
negative. -/
theorem toList_toString_int (i : Int) : (toString i).toList
    = if 0 ≤ i then Nat.toDigits 10 i.toNat
      else '-' :: Nat.toDigits 10 (-i).toNat := by
  rw [Int.toString_eq_repr, Int.repr_eq_if]
  split
  · rw [Nat.toList_repr]
  · rw [String.toList_append, Nat.toList_repr]
    rfl

/-- An integer is read from its text. -/
theorem readInteger_toString (i : Int) :
    readInteger (toString i).toList = some i := by
  unfold readInteger
  rw [toList_toString_int]
  split
  case isTrue hsign =>
      rw [readSign_toDigits, readNatural_toDigits]
      show some (i.toNat : Int) = some i
      rw [Int.toNat_of_nonneg hsign]
  case isFalse hsign =>
      show (readNatural (Nat.toDigits 10 _)).bind _ = _
      rw [readNatural_toDigits]
      show some (-((-i).toNat : Int)) = some i
      rw [Int.toNat_of_nonneg (by omega), neg_neg]

/-- Nothing but digits and a minus is in the text of an integer. -/
theorem notMem_toString_int (i : Int) {c : Char} (hdigit : c.isDigit = false)
    (hminus : c ≠ '-') : c ∉ (toString i).toList := by
  rw [toList_toString_int]
  split
  · exact (numeral_toDigits _).notMem hdigit
  · rw [List.mem_cons, not_or]
    exact ⟨hminus, (numeral_toDigits _).notMem hdigit⟩

-- ================================================================ decimals

/-- Numerals on both sides of a point are read as the number that they stand
for. -/
theorem readDecimal_point {whole fraction : List Char} (hwhole : Numeral whole)
    (hfraction : Numeral fraction) :
    readDecimal (whole ++ '.' :: fraction)
      = some (pointValue whole fraction) := by
  have hpoint : ∀ part ∈ [whole, fraction], '.' ∉ part := by
    intro part hpart
    rcases List.mem_pair.mp hpart with rfl | rfl
    · exact hwhole.notMem rfl
    · exact hfraction.notMem rfl
  have hsplit : (whole ++ '.' :: fraction).splitOn '.' = [whole, fraction] := by
    have hparts := List.splitOn_intercalate '.' hpoint (List.cons_ne_nil _ _)
    simpa [List.intercalate] using hparts
  unfold readDecimal
  rw [hsplit]
  exact if_pos ⟨hwhole, hfraction⟩

/-- The point moves the digits by as many places as there are behind it. -/
theorem pointValue_eq_div (whole fraction : List Char) :
    pointValue whole fraction
      = Nat.ofDigitChars 10 (whole ++ fraction) 0 / 10 ^ fraction.length := by
  have hpower : (10 : ℚ) ^ fraction.length ≠ 0 := by positivity
  rw [Nat.ofDigitChars_append, Nat.ofDigitChars_eq_ofDigitChars_zero,
    pointValue]
  push_cast
  field_simp

/-- What is before the last `places` digits. -/
def wholeOf (places : Nat) (text : List Char) : List Char :=
  text.take (text.length - places)

/-- The last `places` digits, or a zero if these are none. -/
def fractionOf (places : Nat) (text : List Char) : List Char :=
  let fraction := text.drop (text.length - places)
  if fraction.isEmpty then ['0'] else fraction

/-- Digits with a point before the last ones. -/
theorem numeral_point {text : List Char} (h : Numeral text) {places : Nat}
    (hplaces : places < text.length) :
    Numeral (wholeOf places text) ∧ Numeral (fractionOf places text)
      ∧ pointValue (wholeOf places text) (fractionOf places text)
        = Nat.ofDigitChars 10 text 0 / 10 ^ places := by
  have hwhole : Numeral (wholeOf places text) := by
    refine ⟨?_, fun c hc => h.2 c (List.mem_of_mem_take hc)⟩
    rw [wholeOf, List.ne_nil_iff_length_pos, List.length_take]
    omega
  refine ⟨hwhole, ?_⟩
  rcases Nat.eq_zero_or_pos places with rfl | hpos
  · have hfraction : fractionOf 0 text = ['0'] := by
      rw [fractionOf, Nat.sub_zero, List.drop_length]
      rfl
    have hzero : Nat.ofDigitChars 10 ['0'] 0 = 0 := rfl
    rw [hfraction]
    refine ⟨⟨List.cons_ne_nil _ _, List.forall_mem_singleton.mpr rfl⟩, ?_⟩
    rw [pointValue, hzero, wholeOf, Nat.sub_zero, List.take_length,
      Nat.cast_zero, zero_div, add_zero, pow_zero, div_one]
  · have hlength : (text.drop (text.length - places)).length = places := by
      rw [List.length_drop]
      omega
    have hfraction : fractionOf places text
        = text.drop (text.length - places) := by
      refine if_neg fun hempty => ?_
      rw [List.isEmpty_iff_length_eq_zero, hlength] at hempty
      exact hpos.ne' hempty
    rw [hfraction, pointValue_eq_div, hlength, wholeOf, List.take_append_drop]
    refine ⟨⟨?_, fun c hc => h.2 c (List.mem_of_mem_drop hc)⟩, rfl⟩
    rw [List.ne_nil_iff_length_pos, hlength]
    exact hpos

namespace Decimal

/-- What a decimal stands for. -/
def value (d : Decimal) : ℚ := d.coefficient * (10 : ℚ) ^ d.exponent

theorem denominator_pos (d : Decimal) : 0 < d.denominator :=
  Nat.pow_pos (by decide)

/-- A power of ten as a fraction of natural powers. -/
theorem ten_zpow (e : Int) :
    (10 : ℚ) ^ e = 10 ^ e.toNat / 10 ^ (-e).toNat := by
  conv_lhs => rw [← Int.toNat_sub_toNat_neg e]
  rw [zpow_sub₀ (by norm_num), zpow_natCast, zpow_natCast]

/-- The value of a decimal is a quotient of whole numbers. -/
theorem value_eq_div (d : Decimal) : d.value = d.numerator / d.denominator := by
  have hnumerator : (d.numerator : ℚ)
      = d.coefficient * 10 ^ d.exponent.toNat := by
    exact_mod_cast rfl
  have hdenominator : (d.denominator : ℚ) = 10 ^ (-d.exponent).toNat := by
    exact_mod_cast rfl
  rw [value, ten_zpow, hnumerator, hdenominator, mul_div_assoc]

/-- The digits of the numerator, with zeros in front so that there is one
before the point. -/
def paddedDigits (d : Decimal) : List Char :=
  let ds := d.digits ++ List.replicate d.exponent.toNat '0'
  List.replicate ((-d.exponent).toNat + 1 - ds.length) '0' ++ ds

/-- The digits in front of the point. -/
def whole (d : Decimal) : List Char :=
  wholeOf (-d.exponent).toNat d.paddedDigits

/-- The digits behind the point. -/
def fraction (d : Decimal) : List Char :=
  fractionOf (-d.exponent).toNat d.paddedDigits

/-- A decimal is written with a point between its two parts. -/
theorem positional_eq (d : Decimal) :
    d.positional = d.whole ++ '.' :: d.fraction :=
  rfl

/-- With the zeros in front there is a digit before the point. -/
theorem places_lt_length (d : Decimal) :
    (-d.exponent).toNat < d.paddedDigits.length := by
  rw [paddedDigits, List.length_append, List.length_replicate]
  omega

/-- What is written of a decimal are digits. -/
theorem numeral_paddedDigits (d : Decimal) : Numeral d.paddedDigits := by
  have hzero : ∀ {n c}, c ∈ List.replicate n '0' → c.isDigit := by
    intro n c hc
    rw [List.eq_of_mem_replicate hc]
    rfl
  refine ⟨List.ne_nil_of_length_pos (Nat.zero_lt_of_lt d.places_lt_length),
    fun c hc => ?_⟩
  rcases List.mem_append.mp hc with hc | hc
  · exact hzero hc
  · rcases List.mem_append.mp hc with hc | hc
    · exact (numeral_toDigits d.coefficient).2 c hc
    · exact hzero hc

/-- They are those of its numerator, as zeros in front count for nothing. -/
theorem ofDigitChars_paddedDigits (d : Decimal) :
    Nat.ofDigitChars 10 d.paddedDigits 0 = d.numerator := by
  rw [paddedDigits, digits, Nat.ofDigitChars_append, Nat.ofDigitChars_append,
    Nat.ofDigitChars_replicate_zero, Nat.ofDigitChars_replicate_zero,
    Nat.mul_zero, Nat.ofDigitChars_ten_toDigits, Nat.mul_comm]
  rfl

/-- The text of a decimal: digits, a point and digits, for its value. -/
theorem positional_spells (d : Decimal) :
    Numeral d.whole ∧ Numeral d.fraction
      ∧ pointValue d.whole d.fraction = d.value := by
  obtain ⟨hwhole, hfraction, hvalue⟩ :=
    numeral_point d.numeral_paddedDigits d.places_lt_length
  refine ⟨hwhole, hfraction, ?_⟩
  have hdenominator : (d.denominator : ℚ) = 10 ^ (-d.exponent).toNat := by
    exact_mod_cast rfl
  rw [whole, fraction, hvalue, d.ofDigitChars_paddedDigits, value_eq_div,
    hdenominator]

/-- The positional text of a decimal is read as its value. -/
theorem readDecimal_positional (d : Decimal) :
    readDecimal d.positional = some d.value := by
  obtain ⟨hwhole, hfraction, hvalue⟩ := d.positional_spells
  rw [positional_eq, readDecimal_point hwhole hfraction, hvalue]

/-- A decimal starts with a digit, so no sign is read. -/
theorem readSign_positional (d : Decimal) :
    readSign d.positional = (false, d.positional) :=
  d.positional_spells.1.readSign_append _

/-- Nothing but digits and a point is in the text of a decimal. -/
theorem notMem_positional (d : Decimal) {c : Char}
    (hdigit : c.isDigit = false) (hpoint : c ≠ '.') : c ∉ d.positional := by
  obtain ⟨hwhole, hfraction, -⟩ := d.positional_spells
  rw [positional_eq, List.mem_append, List.mem_cons, not_or, not_or]
  exact ⟨hwhole.notMem hdigit, hpoint, hfraction.notMem hdigit⟩

end Decimal

end DetectorHeader
