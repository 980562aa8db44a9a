/-
What a buffer holds, and what its readers of numbers and texts make of it.

`b.Has position x` says that the bytes `x` stand in `b` from `position` on.
It splits along the parts of `x` (`has_append`), so one fact about a piece
of a buffer gives the facts about the numbers in it: a number that was
written there stands there (`numberAt_of_has`), and a text is found to be one
(`textFault?_of_has`).

`NumberAt s b position n` is what verification wants of a number. Reading one
wants less (`Read.number_eq_some_iff`): no reader looks at the alignment.
-/
import DetectorHeader.FlatBuffer.Read
import DetectorHeader.Proofs.Text.Utf8
import Mathlib

namespace DetectorHeader.FlatBuffer

namespace Buffer

variable {b : Buffer} {position : Nat} {x y : Bytes}

/-- A byte inside of a buffer is the one that the buffer tells. -/
theorem get?_of_lt (h : position < b.size) :
    b.get? position = some (b.byte position) := if_pos h

/-- Where there is a byte is inside of the buffer. -/
theorem lt_of_get? {c : UInt8} (h : b.get? position = some c) :
    position < b.size := by
  unfold get? at h
  split at h
  case isTrue hlt => exact hlt
  case isFalse => cases h

theorem get_of_lt (h : position < b.size) :
    b.get position = b.byte position := by
  unfold get
  rw [get?_of_lt h, Option.getD_some]

/-- A buffer that holds the bytes of a list has as many. -/
@[simp]
theorem size_ofArray (cells : Array UInt8) :
    (ofArray cells).size = cells.size := rfl

theorem byte_ofArray {bytes : Bytes} {i : Nat} (h : i < bytes.length) :
    (ofArray bytes.toArray).byte i = bytes[i] := by
  show bytes.toArray.getD i 0 = _
  rw [Array.getD_eq_getD_getElem?, List.getElem?_toArray,
    List.getElem?_eq_getElem h, Option.getD_some]

/-- The bytes `x` stand in the buffer from `position` on. -/
structure Has (b : Buffer) (position : Nat) (x : Bytes) : Prop where
  le_size : position + x.length ≤ b.size
  byte : ∀ i (hi : i < x.length), b.byte (position + i) = x[i]

-- =============================================================== splitting

/-- What stands in front and behind, next to each other, stands there as one
piece. -/
theorem has_append :
    b.Has position (x ++ y)
      ↔ b.Has position x ∧ b.Has (position + x.length) y := by
  constructor
  · intro h
    have hsize := h.le_size
    rw [List.length_append] at hsize
    refine ⟨⟨by omega, fun i hi => ?_⟩, ⟨by omega, fun i hi => ?_⟩⟩
    · rw [h.byte i (by rw [List.length_append]; omega),
        List.getElem_append_left hi]
    · have hboth : x.length + i < (x ++ y).length := by
        rw [List.length_append]
        omega
      rw [Nat.add_assoc, h.byte _ hboth, List.getElem_append_right (by omega)]
      simp only [Nat.add_sub_cancel_left]
  · rintro ⟨hx, hy⟩
    have hsize := hy.le_size
    refine ⟨by rw [List.length_append]; omega, fun i hi => ?_⟩
    by_cases hfront : i < x.length
    · rw [hx.byte i hfront, List.getElem_append_left hfront]
    · rw [List.length_append] at hi
      have hbyte := hy.byte (i - x.length) (by omega)
      rw [show position + x.length + (i - x.length) = position + i by omega]
        at hbyte
      rw [hbyte, List.getElem_append_right (by omega)]

/-- A byte of a longer piece is in its place, and the rest follows. -/
theorem Has.head {c : UInt8} (h : b.Has position (c :: x)) :
    b.get? position = some c ∧ b.Has (position + 1) x := by
  constructor
  · have hsize := h.le_size
    rw [List.length_cons] at hsize
    rw [get?_of_lt (by omega)]
    exact congrArg some (h.byte 0 (Nat.zero_lt_succ _))
  · have h' : b.Has position ([c] ++ x) := h
    exact (has_append.mp h').2

/-- The bytes of a list stand in its buffer where they stand in the list. -/
theorem has_ofArray_iff {bytes : Bytes} :
    (ofArray bytes.toArray).Has position x
      ↔ ∃ before after,
          bytes = before ++ (x ++ after) ∧ before.length = position := by
  constructor
  · intro h
    have hsize := h.le_size
    rw [size_ofArray, List.size_toArray] at hsize
    -- What stands there is a piece of the list, byte for byte.
    have hx : x = (bytes.drop position).take x.length := by
      refine List.ext_getElem ?_ fun i hi hi' => ?_
      · rw [List.length_take, List.length_drop]
        omega
      · rw [← h.byte i hi, byte_ofArray (by omega), List.getElem_take,
          List.getElem_drop]
    refine ⟨bytes.take position, bytes.drop (position + x.length), ?_, ?_⟩
    · rw [← List.drop_drop]
      nth_rewrite 1 [hx]
      rw [List.take_append_drop, List.take_append_drop]
    · rw [List.length_take]
      omega
  · rintro ⟨before, after, rfl, rfl⟩
    refine ⟨?_, fun i hi => ?_⟩
    · rw [size_ofArray, List.size_toArray, List.length_append,
        List.length_append]
      omega
    · have hinside : before.length + i < (before ++ (x ++ after)).length := by
        rw [List.length_append, List.length_append]
        omega
      rw [byte_ofArray hinside, List.getElem_append_right (by omega),
        List.getElem_append_left (by omega)]
      simp only [Nat.add_sub_cancel_left]

/-- Of pieces of one width that stand next to each other, the one at an index
stands at that many widths. -/
theorem Has.piece {α : Type} {piece : α → Bytes} {width : Nat}
    (hw : ∀ a, (piece a).length = width) :
    ∀ {items : List α} {position : Nat},
      b.Has position (items.flatMap piece) →
      ∀ i (hi : i < items.length),
        b.Has (position + i * width) (piece items[i]) := by
  intro items
  induction items with
  | nil =>
      intro position _ i hi
      cases hi
  | cons a items ih =>
      intro position h i hi
      rw [List.flatMap_cons] at h
      obtain ⟨hhead, htail⟩ := has_append.mp h
      rw [hw] at htail
      cases i with
      | zero => simpa using hhead
      | succ i =>
          have := ih htail i (by simpa using hi)
          rw [List.getElem_cons_succ]
          rwa [Nat.add_assoc, Nat.add_comm width, ← Nat.succ_mul] at this

-- ================================================================= numbers

/-- A piece is read as the number that it spells. -/
theorem Has.unsigned (h : b.Has position x) :
    b.unsigned position x.length = LittleEndian.decode x := by
  induction x generalizing position with
  | nil => rfl
  | cons c x ih =>
      obtain ⟨hc, hx⟩ := h.head
      rw [List.length_cons]
      unfold Buffer.unsigned LittleEndian.decode
      rw [ih hx, get, hc, Option.getD_some]

/-- A number is read back from its bytes. -/
theorem unsigned_of_has {n value : Nat}
    (h : b.Has position (LittleEndian.encode n value))
    (hv : value < 256 ^ n) :
    b.unsigned position n = value := by
  have hread := h.unsigned
  rw [LittleEndian.length_encode, LittleEndian.decode_encode, Nat.pow_eq,
    Nat.mod_eq_of_lt hv] at hread
  exact hread

-- =================================================================== texts

/-- A piece is cut out as what it is. -/
theorem Has.slice (h : b.Has position x) :
    b.slice position x.length = x := by
  have hsize := h.le_size
  unfold Buffer.slice
  rw [Nat.min_eq_left (by omega)]
  refine List.ext_getElem (by simp) fun i hi hi' => ?_
  rw [List.getElem_map, List.getElem_range', Nat.one_mul, h.byte i hi']

/-- Bytes that spell a text are found to do so, be they all ASCII or not. -/
theorem textFault?_of_decode {n : Nat} {text : String}
    (h : Utf8.decode (b.slice position n) = .ok text) :
    b.textFault? position n = none := by
  unfold textFault?
  rw [h]
  exact ite_self none

/-- A piece is ASCII if all its bytes are below 128. -/
theorem isAscii_iff {n : Nat} :
    b.isAscii position n = true ↔ ∀ i < n, b.get (position + i) < 0x80 := by
  induction n generalizing position with
  | zero => simp [isAscii]
  | succ n ih =>
      rw [isAscii, Bool.and_eq_true, decide_eq_true_eq, ih,
        Nat.forall_lt_succ_left]
      simp only [Nat.add_zero, Nat.add_assoc, Nat.add_comm 1]

/-- Bytes in which no fault is found spell a text. -/
theorem decode_of_textFault? {n : Nat} (h : b.textFault? position n = none) :
    ∃ text, Utf8.decode (b.slice position n) = .ok text := by
  unfold textFault? at h
  split at h
  case isTrue hascii =>
    have hbytes : ∀ a ∈ b.slice position n, a < 0x80 := by
      intro a ha
      obtain ⟨at', hat, rfl⟩ := List.mem_map.mp ha
      obtain ⟨i, hi, rfl⟩ := List.mem_range'.mp hat
      have hbyte := isAscii_iff.mp hascii i (by omega)
      rw [get_of_lt (by omega)] at hbyte
      rwa [Nat.one_mul]
    obtain ⟨chars, hchars⟩ := Utf8.decodeFrom_ascii hbytes 0 []
    exact ⟨String.ofList chars, by rw [Utf8.decode, hchars]; rfl⟩
  case isFalse =>
    split at h
    case h_1 text htext => exact ⟨text, htext⟩
    case h_2 => cases h

/-- Nothing is wrong with a text that has been encoded. -/
theorem textFault?_of_has {text : String}
    (h : b.Has position (Utf8.encode text)) :
    b.textFault? position (Utf8.encode text).length = none := by
  have hdecode : Utf8.decode (b.slice position (Utf8.encode text).length)
      = .ok text := by
    rw [h.slice, Utf8.decode_encode]
  exact textFault?_of_decode hdecode

end Buffer

-- ================================================================= numbers

/-- A number stands at a position: inside of the buffer, and at a multiple of
its size. -/
structure NumberAt (s : Scalar) (b : Buffer) (position n : Nat) : Prop where
  aligned : position % s.size = 0
  inside : position + s.size ≤ b.size
  value : b.unsigned position s.size = n

variable {b : Buffer} {position n : Nat} {s : Scalar}

/-- A number is read wherever its bytes are inside, aligned or not. -/
theorem Read.number_eq_some_iff :
    number s b position = some n
      ↔ position + s.size ≤ b.size ∧ b.unsigned position s.size = n := by
  unfold number
  split
  case isTrue h => simp [h]
  case isFalse h => simp [h]

/-- A number is read where it stands. -/
theorem NumberAt.read (h : NumberAt s b position n) :
    Read.number s b position = some n :=
  Read.number_eq_some_iff.mpr ⟨h.inside, h.value⟩

/-- Bytes are a number where its scalar may stand. -/
theorem Buffer.Has.numberAt {x : Bytes} (h : b.Has position x)
    (hx : x.length = s.size) (ha : position % s.size = 0) :
    NumberAt s b position (LittleEndian.decode x) where
  aligned := ha
  inside := hx ▸ h.le_size
  value := hx ▸ h.unsigned

/-- A number that was written stands there. -/
theorem numberAt_of_has (h : b.Has position (LittleEndian.encode s.size n))
    (hn : n < 256 ^ s.size) (ha : position % s.size = 0) :
    NumberAt s b position n where
  aligned := ha
  inside := by
    have hsize := h.le_size
    rwa [LittleEndian.length_encode] at hsize
  value := Buffer.unsigned_of_has h hn

end DetectorHeader.FlatBuffer
