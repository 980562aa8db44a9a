/-
Every text can be read back from its bytes (`decode_encode`), and a byte
string is read as a text only if it is what the text is written as
(`decode_eq_ok_iff`).

The reader takes one character at a time, so the proof is one step lemma for
each length a character can have (`decodeFrom_one` to `decodeFrom_four`), the
step for a whole character (`decodeFrom_encodeChar`), where the ranges of the
scalar values decide which of the four applies, and an induction over the
characters of the text.
-/
import DetectorHeader.Text.Utf8

namespace DetectorHeader.Utf8

-- ============================================== one character, by its length

section Steps

variable {a b c d : UInt8} (start : Nat) (done : List Char) (bs : Bytes)

theorem decodeFrom_one (ha : a.toNat ≤ 0x7F) :
    decodeFrom start done (a :: bs)
      = decodeFrom (start + 1) (Char.ofNat a.toNat :: done) bs := by
  have h : a < 0x80 := by
    rw [UInt8.lt_iff_toNat_lt]
    exact Nat.lt_succ_of_le ha
  rw [decodeFrom.eq_def]
  simp only [h, if_true]

theorem decodeFrom_two (ha : 0xC2 ≤ a.toNat) (ha' : a.toNat ≤ 0xDF)
    (hb : isTail b = true) :
    decodeFrom start done (a :: b :: bs)
      = decodeFrom (start + 2)
          (Char.ofNat ((a.toNat - 0xC0) * 64 + tailBits b) :: done) bs := by
  have h1 : ¬ a < 0x80 := by
    rw [UInt8.lt_iff_toNat_lt]
    show ¬ a.toNat < 0x80
    omega
  have h2 : 0xC2 ≤ a ∧ a ≤ 0xDF := by
    rw [UInt8.le_iff_toNat_le, UInt8.le_iff_toNat_le]
    exact ⟨ha, ha'⟩
  rw [decodeFrom.eq_def]
  simp only [h1, h2, hb, if_true, if_false, decide_true, Bool.and_self]

theorem decodeFrom_three (ha : 0xE0 ≤ a.toNat) (ha' : a.toNat ≤ 0xEF)
    (hb : isSecondOfThree a b = true) (hc : isTail c = true) :
    decodeFrom start done (a :: b :: c :: bs)
      = decodeFrom (start + 3)
          (Char.ofNat ((a.toNat - 0xE0) * 4096 + tailBits b * 64
            + tailBits c) :: done) bs := by
  have h1 : ¬ a < 0x80 := by
    rw [UInt8.lt_iff_toNat_lt]
    show ¬ a.toNat < 0x80
    omega
  have h2 : ¬ a ≤ 0xDF := by
    rw [UInt8.le_iff_toNat_le]
    show ¬ a.toNat ≤ 0xDF
    omega
  have h3 : 0xE0 ≤ a ∧ a ≤ 0xEF := by
    rw [UInt8.le_iff_toNat_le, UInt8.le_iff_toNat_le]
    exact ⟨ha, ha'⟩
  rw [decodeFrom.eq_def]
  simp only [h1, h2, h3, hb, hc, if_true, if_false, decide_true, decide_false,
    Bool.and_self, Bool.and_false, Bool.false_eq_true]

theorem decodeFrom_four (ha : 0xF0 ≤ a.toNat) (ha' : a.toNat ≤ 0xF4)
    (hb : isSecondOfFour a b = true) (hc : isTail c = true)
    (hd : isTail d = true) :
    decodeFrom start done (a :: b :: c :: d :: bs)
      = decodeFrom (start + 4)
          (Char.ofNat ((a.toNat - 0xF0) * 262144 + tailBits b * 4096
            + tailBits c * 64 + tailBits d) :: done) bs := by
  have h1 : ¬ a < 0x80 := by
    rw [UInt8.lt_iff_toNat_lt]
    show ¬ a.toNat < 0x80
    omega
  have h2 : ¬ a ≤ 0xDF := by
    rw [UInt8.le_iff_toNat_le]
    show ¬ a.toNat ≤ 0xDF
    omega
  have h3 : ¬ a ≤ 0xEF := by
    rw [UInt8.le_iff_toNat_le]
    show ¬ a.toNat ≤ 0xEF
    omega
  have h4 : 0xF0 ≤ a ∧ a ≤ 0xF4 := by
    rw [UInt8.le_iff_toNat_le, UInt8.le_iff_toNat_le]
    exact ⟨ha, ha'⟩
  rw [decodeFrom.eq_def]
  simp only [h1, h2, h3, h4, hb, hc, hd, if_true, if_false, decide_true,
    decide_false, Bool.and_self, Bool.and_false, Bool.false_eq_true]

end Steps

-- ========================================================== continuing bytes

private theorem isTail_iff {b : UInt8} :
    isTail b = true ↔ 0x80 ≤ b.toNat ∧ b.toNat ≤ 0xBF := by
  unfold isTail
  simp only [UInt8.le_iff_toNat_le, UInt8.reduceToNat, Bool.and_eq_true,
    decide_eq_true_eq]

/-- A second byte is a continuing one; after two of the first bytes not every
one will do. -/
private theorem second_iff {a b x y low high : UInt8} (hxy : x ≠ y)
    (hlow : 0x80 ≤ low.toNat) (hhigh : high.toNat ≤ 0xBF) :
    (if a = x then decide (low ≤ b) && decide (b ≤ 0xBF)
      else if a = y then decide (0x80 ≤ b) && decide (b ≤ high)
      else isTail b) = true
      ↔ isTail b = true ∧ (a.toNat = x.toNat → low.toNat ≤ b.toNat)
        ∧ (a.toNat = y.toNat → b.toNat ≤ high.toNat) := by
  simp only [UInt8.toNat_inj, isTail_iff]
  by_cases hx : a = x
  · subst hx
    simp only [if_true, UInt8.le_iff_toNat_le, UInt8.reduceToNat,
      Bool.and_eq_true, decide_eq_true_eq, hxy, false_implies, true_implies,
      and_true]
    omega
  · rw [if_neg hx]
    by_cases hy : a = y
    · subst hy
      simp only [if_true, UInt8.le_iff_toNat_le, UInt8.reduceToNat,
        Bool.and_eq_true, decide_eq_true_eq, hx, false_implies, true_implies,
        true_and]
      omega
    · rw [if_neg hy, isTail_iff]
      simp only [hx, hy, false_implies, and_true]

private theorem isSecondOfThree_iff {a b : UInt8} :
    isSecondOfThree a b = true
      ↔ isTail b = true ∧ (a.toNat = 0xE0 → 0xA0 ≤ b.toNat)
        ∧ (a.toNat = 0xED → b.toNat ≤ 0x9F) :=
  second_iff (by decide) (by decide) (by decide)

private theorem isSecondOfFour_iff {a b : UInt8} :
    isSecondOfFour a b = true
      ↔ isTail b = true ∧ (a.toNat = 0xF0 → 0x90 ≤ b.toNat)
        ∧ (a.toNat = 0xF4 → b.toNat ≤ 0x8F) :=
  second_iff (by decide) (by decide) (by decide)

-- ====================================================== the bytes written

private theorem toNat_ofNat_byte {n : Nat} (h : n < 256) :
    (UInt8.ofNat n).toNat = n := by
  rw [UInt8.toNat_ofNat', Nat.mod_eq_of_lt h]

private theorem isTail_ofNat (n : Nat) :
    isTail (UInt8.ofNat (n % 64 + 128)) = true := by
  rw [isTail_iff, toNat_ofNat_byte (by omega)]
  omega

private theorem tailBits_ofNat (n : Nat) :
    tailBits (UInt8.ofNat (n % 64 + 128)) = n % 64 := by
  unfold tailBits
  rw [toNat_ofNat_byte (by omega)]
  omega

/-- The second byte of a three-byte character is never one of an overlong
spelling, nor of a surrogate. -/
private theorem isSecondOfThree_ofNat {v : Nat} (h : 0x7FF < v)
    (h' : v ≤ 0xFFFF) (hv : v < 0xD800 ∨ 0xDFFF < v) :
    isSecondOfThree (UInt8.ofNat (v / 4096 % 0x10 + 0xE0))
      (UInt8.ofNat (v / 64 % 0x40 + 0x80)) = true := by
  rw [isSecondOfThree_iff, toNat_ofNat_byte (by omega),
    toNat_ofNat_byte (by omega)]
  exact ⟨isTail_ofNat _, by omega, by omega⟩

/-- The second byte of a four-byte character is never one of an overlong
spelling, nor of a value above U+10FFFF. -/
private theorem isSecondOfFour_ofNat {v : Nat} (h : 0xFFFF < v)
    (h' : v < 0x110000) :
    isSecondOfFour (UInt8.ofNat (v / 262144 % 0x08 + 0xF0))
      (UInt8.ofNat (v / 4096 % 0x40 + 0x80)) = true := by
  rw [isSecondOfFour_iff, toNat_ofNat_byte (by omega),
    toNat_ofNat_byte (by omega)]
  exact ⟨isTail_ofNat _, by omega, by omega⟩

-- ========================================================== the round trip

/-- Reading takes the bytes of a character for that character, whatever
follows them. -/
theorem decodeFrom_encodeChar (x : Char) (start : Nat) (done : List Char)
    (bs : Bytes) :
    decodeFrom start done (String.utf8EncodeChar x ++ bs)
      = decodeFrom (start + (String.utf8EncodeChar x).length) (x :: done)
          bs := by
  -- How many bytes there are depends on the number of the character alone, and
  -- so do the ranges that the reader looks for.
  obtain ⟨v, hv⟩ : ∃ v, v = x.val.toNat := ⟨_, rfl⟩
  have hvalid : v < 0xD800 ∨ (0xDFFF < v ∧ v < 0x110000) := by
    rw [hv]
    exact x.valid
  have hx : Char.ofNat v = x := by
    rw [hv]
    exact Char.ofNat_toNat x
  unfold String.utf8EncodeChar
  simp only [← hv]
  split
  case isTrue =>
    have ha := toNat_ofNat_byte (n := v) (by omega)
    rw [List.singleton_append, decodeFrom_one _ _ _ (by omega), ha, hx]
    rfl
  case isFalse =>
    split
    case isTrue =>
      have ha := toNat_ofNat_byte (n := v / 64 % 0x20 + 0xC0) (by omega)
      rw [List.cons_append, List.singleton_append,
        decodeFrom_two _ _ _ (by omega) (by omega) (isTail_ofNat v), ha,
        tailBits_ofNat, ← hx]
      congr 3
      omega
    case isFalse =>
      split
      case isTrue =>
        have ha := toNat_ofNat_byte (n := v / 4096 % 0x10 + 0xE0) (by omega)
        simp only [List.cons_append, List.nil_append]
        rw [decodeFrom_three _ _ _ (by omega) (by omega)
            (isSecondOfThree_ofNat (by omega) (by omega) (by omega))
            (isTail_ofNat v),
          ha, tailBits_ofNat, tailBits_ofNat, ← hx]
        congr 3
        omega
      case isFalse =>
        have ha := toNat_ofNat_byte (n := v / 262144 % 0x08 + 0xF0)
          (by omega)
        simp only [List.cons_append, List.nil_append]
        rw [decodeFrom_four _ _ _ (by omega) (by omega)
            (isSecondOfFour_ofNat (by omega) (by omega)) (isTail_ofNat _)
            (isTail_ofNat v),
          ha, tailBits_ofNat, tailBits_ofNat, tailBits_ofNat, ← hx]
        congr 3
        omega

/-- The characters of a text are decoded one by one. -/
theorem decodeFrom_flatMap (chars : List Char) (start : Nat)
    (done : List Char) :
    decodeFrom start done (chars.flatMap String.utf8EncodeChar)
      = .ok (done.reverse ++ chars) := by
  induction chars generalizing start done with
  | nil =>
      rw [List.flatMap_nil, List.append_nil]
      rfl
  | cons x chars ih =>
      rw [List.flatMap_cons, decodeFrom_encodeChar, ih, List.reverse_cons,
        List.append_assoc, List.singleton_append]

/-- A text is read back from its bytes. -/
theorem decode_encode (text : String) : decode (encode text) = .ok text := by
  unfold decode encode
  rw [decodeFrom_flatMap]
  show Except.ok (String.ofList text.toList) = _
  rw [String.ofList_toList]

-- ============================================================ one spelling

private theorem val_ofNat {n : Nat}
    (h : n < 0xD800 ∨ (0xDFFF < n ∧ n < 0x110000)) :
    (Char.ofNat n).val.toNat = n := by
  have hn : n.isValidChar := h
  unfold Char.ofNat
  rw [dif_pos hn]
  rfl

section Spellings

variable {a b c d : UInt8}

theorem encodeChar_one (ha : a.toNat < 0x80) :
    String.utf8EncodeChar (Char.ofNat a.toNat) = [a] := by
  have hv := val_ofNat (n := a.toNat) (by omega)
  unfold String.utf8EncodeChar
  simp only [hv]
  rw [if_pos (by omega), UInt8.ofNat_toNat]

theorem encodeChar_two (ha : 0xC2 ≤ a.toNat) (ha' : a.toNat ≤ 0xDF)
    (hb : isTail b = true) :
    String.utf8EncodeChar
        (Char.ofNat ((a.toNat - 0xC0) * 64 + tailBits b))
      = [a, b] := by
  rw [isTail_iff] at hb
  unfold tailBits
  obtain ⟨v, hv⟩ : ∃ v, v = (a.toNat - 0xC0) * 64 + b.toNat % 64 := ⟨_, rfl⟩
  have hval := val_ofNat (n := v) (by omega)
  have h1 : v / 64 % 0x20 + 0xC0 = a.toNat := by omega
  have h2 : v % 0x40 + 0x80 = b.toNat := by omega
  unfold String.utf8EncodeChar
  simp only [← hv, hval]
  rw [if_neg (by omega), if_pos (by omega), h1, h2, UInt8.ofNat_toNat,
    UInt8.ofNat_toNat]

theorem encodeChar_three (ha : 0xE0 ≤ a.toNat) (ha' : a.toNat ≤ 0xEF)
    (hb : isSecondOfThree a b = true) (hc : isTail c = true) :
    String.utf8EncodeChar (Char.ofNat
        ((a.toNat - 0xE0) * 4096 + tailBits b * 64 + tailBits c))
      = [a, b, c] := by
  rw [isSecondOfThree_iff, isTail_iff] at hb
  rw [isTail_iff] at hc
  unfold tailBits
  obtain ⟨v, hv⟩ : ∃ v, v = (a.toNat - 0xE0) * 4096 + b.toNat % 64 * 64
    + c.toNat % 64 := ⟨_, rfl⟩
  have hval := val_ofNat (n := v) (by omega)
  have h1 : v / 4096 % 0x10 + 0xE0 = a.toNat := by omega
  have h2 : v / 64 % 0x40 + 0x80 = b.toNat := by omega
  have h3 : v % 0x40 + 0x80 = c.toNat := by omega
  unfold String.utf8EncodeChar
  simp only [← hv, hval]
  rw [if_neg (by omega), if_neg (by omega), if_pos (by omega), h1, h2, h3,
    UInt8.ofNat_toNat, UInt8.ofNat_toNat, UInt8.ofNat_toNat]

theorem encodeChar_four (ha : 0xF0 ≤ a.toNat) (ha' : a.toNat ≤ 0xF4)
    (hb : isSecondOfFour a b = true) (hc : isTail c = true)
    (hd : isTail d = true) :
    String.utf8EncodeChar (Char.ofNat ((a.toNat - 0xF0) * 262144
        + tailBits b * 4096 + tailBits c * 64 + tailBits d))
      = [a, b, c, d] := by
  rw [isSecondOfFour_iff, isTail_iff] at hb
  rw [isTail_iff] at hc hd
  unfold tailBits
  obtain ⟨v, hv⟩ : ∃ v, v = (a.toNat - 0xF0) * 262144
    + b.toNat % 64 * 4096 + c.toNat % 64 * 64 + d.toNat % 64 := ⟨_, rfl⟩
  have hval := val_ofNat (n := v) (by omega)
  have h1 : v / 262144 % 0x08 + 0xF0 = a.toNat := by omega
  have h2 : v / 4096 % 0x40 + 0x80 = b.toNat := by omega
  have h3 : v / 64 % 0x40 + 0x80 = c.toNat := by omega
  have h4 : v % 0x40 + 0x80 = d.toNat := by omega
  unfold String.utf8EncodeChar
  simp only [← hv, hval]
  rw [if_neg (by omega), if_neg (by omega), if_neg (by omega), h1, h2, h3,
    h4, UInt8.ofNat_toNat, UInt8.ofNat_toNat, UInt8.ofNat_toNat,
    UInt8.ofNat_toNat]

end Spellings

private theorem mem_range_iff {a low high : UInt8} :
    (decide (low ≤ a) && decide (a ≤ high)) = true
      ↔ low.toNat ≤ a.toNat ∧ a.toNat ≤ high.toNat := by
  simp only [UInt8.le_iff_toNat_le, Bool.and_eq_true, decide_eq_true_eq]

/-- What is read are characters whose bytes are those that were there. -/
theorem decodeFrom_eq_ok {bs : Bytes} {start : Nat} {done chars : List Char}
    (h : decodeFrom start done bs = .ok chars) :
    ∃ more, chars = done.reverse ++ more
      ∧ bs = more.flatMap String.utf8EncodeChar := by
  -- One character in front of those that the rest spells.
  have step {x : Char} {piece rest : Bytes} {done : List Char}
      (hx : String.utf8EncodeChar x = piece)
      (hrest : ∃ more, chars = (x :: done).reverse ++ more
        ∧ rest = more.flatMap String.utf8EncodeChar) :
      ∃ more, chars = done.reverse ++ more
        ∧ piece ++ rest = more.flatMap String.utf8EncodeChar := by
    obtain ⟨more, rfl, rfl⟩ := hrest
    refine ⟨x :: more, ?_, ?_⟩
    · rw [List.reverse_cons, List.append_assoc, List.singleton_append]
    · rw [List.flatMap_cons, hx]
  fun_induction decodeFrom start done bs with
  | case1 start done => exact ⟨[], by simpa using h.symm, rfl⟩
  | case2 start done a bs ha ih =>
      exact step (encodeChar_one (UInt8.lt_iff_toNat_lt.mp ha)) (ih h)
  | case4 start done a _ ha b bs hb _ ih =>
      obtain ⟨hmin, hmax⟩ := mem_range_iff.mp ha
      exact step (encodeChar_two hmin hmax hb) (ih h)
  | case8 start done a _ _ ha b hb c bs hc _ ih =>
      obtain ⟨hmin, hmax⟩ := mem_range_iff.mp ha
      exact step (encodeChar_three hmin hmax hb hc) (ih h)
  | case14 start done a _ _ _ ha b hb c hc d bs hd _ ih =>
      obtain ⟨hmin, hmax⟩ := mem_range_iff.mp ha
      exact step (encodeChar_four hmin hmax hb hc hd) (ih h)
  | _ => cases h

/-- A byte string is read as a text just when it is what the text is written
as. -/
theorem decode_eq_ok_iff {bytes : Bytes} {text : String} :
    decode bytes = .ok text ↔ bytes = encode text := by
  constructor
  · intro h
    unfold decode at h
    cases hchars : decodeFrom 0 [] bytes with
    | error fault =>
        rw [hchars] at h
        cases h
    | ok chars =>
        rw [hchars] at h
        obtain ⟨more, hmore, hbytes⟩ := decodeFrom_eq_ok hchars
        obtain rfl : String.ofList chars = text := Except.ok.inj h
        unfold encode
        rw [String.toList_ofList, hmore, hbytes]
        rfl
  · rintro rfl
    exact decode_encode text

/-- A byte string all of whose bytes are ASCII is a text. -/
theorem decodeFrom_ascii {bs : Bytes} (h : ∀ a ∈ bs, a < 0x80) (start : Nat)
    (done : List Char) : ∃ chars, decodeFrom start done bs = .ok chars := by
  induction bs generalizing start done with
  | nil => exact ⟨_, rfl⟩
  | cons a bs ih =>
      obtain ⟨ha, hbs⟩ := List.forall_mem_cons.mp h
      rw [decodeFrom_one _ _ _
        (Nat.le_of_lt_succ (UInt8.lt_iff_toNat_lt.mp ha))]
      exact ih hbs _ _

end DetectorHeader.Utf8
