/-
How many bytes a writer makes. The bounds are rough: a length is taken to
need as many bytes as it counts and one more, so that a record is at most
twice as long as what is in it. They are enough for what is bounded
elsewhere and nested a few levels deep.
-/
import DetectorHeader.Protobuf.Writer
import Mathlib

namespace DetectorHeader.Protobuf.Writer

variable {α : Type}

/-- A varint holds seven bits in each byte. -/
theorem length_varint_le {count n : Nat} (h : n < 128 ^ (count + 1)) :
    (varint n).length ≤ count + 1 := by
  induction count generalizing n with
  | zero =>
      unfold varint
      rw [if_pos (by simpa using h)]
      exact Nat.le_refl 1
  | succ count ih =>
      unfold varint
      by_cases hn : n < 128
      · rw [if_pos hn]
        exact Nat.le_add_left 1 _
      · rw [if_neg hn]
        rw [Nat.pow_succ] at h
        exact Nat.succ_le_succ (ih (Nat.div_lt_of_lt_mul (by omega)))

/-- An integer takes up to ten bytes. -/
theorem length_int64_le (i : Int64) : (int64 i).length ≤ 10 :=
  length_varint_le (i.toUInt64.toNat_lt.trans (by decide))

/-- A field with a small number has a key of one byte. -/
theorem length_key {field : Nat} (h : field < 16) (wire : WireType) :
    (key field wire).length = 1 := by
  have hcode : wire.code < 8 := by cases wire <;> decide
  unfold key varint
  rw [if_pos (by omega)]
  rfl

theorem length_varintRecord_le (field : Nat) {bound : Nat} {payload : Bytes}
    (hfield : field < 16) (h : payload.length ≤ bound) :
    (varintRecord field payload).length ≤ bound + 1 := by
  unfold varintRecord
  rw [List.length_append, length_key hfield]
  omega

theorem length_blobRecord_le (field : Nat) {bound : Nat} {payload : Bytes}
    (hfield : field < 16) (h : payload.length ≤ bound) :
    (blobRecord field payload).length ≤ 2 * bound + 2 := by
  have hlength : (varint payload.length).length ≤ payload.length + 1 :=
    length_varint_le ((Nat.lt_pow_self (by decide)).trans
      (Nat.pow_lt_pow_right (by decide) (Nat.lt_succ_self _)))
  unfold blobRecord
  rw [List.length_append, List.length_append, length_key hfield]
  omega

theorem length_repeated_le {record : α → Bytes} {bound : Nat}
    (h : ∀ a, (record a).length ≤ bound) (items : List α) :
    (repeated record items).length ≤ bound * items.length := by
  induction items with
  | nil => exact Nat.zero_le _
  | cons a items ih =>
      unfold repeated at ih ⊢
      rw [List.flatMap_cons, List.length_append, List.length_cons,
        Nat.mul_succ]
      have := h a
      omega

end DetectorHeader.Protobuf.Writer
