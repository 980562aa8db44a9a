/-
What a reader takes off the front of its input. `Takes reader x a` says that
`reader` takes the bytes `x` for the value `a`, whatever comes behind them.
Readers one after the other take what their bytes spell together
(`Takes.bind`), so each writer is matched with its reader once.

All of this is about bytes that are no longer than a varint can tell
(`Short`), which the bytes in a memory are. A part of short bytes is short,
so no lemma but that for a length has to mention it.
-/
import DetectorHeader.Protobuf.Reader
import DetectorHeader.Protobuf.Writer
import DetectorHeader.Proofs.Text.Utf8
import Mathlib

namespace DetectorHeader.Protobuf

/-- The length of the bytes can be told in a varint. -/
def Short (x : Bytes) : Prop := x.length < 0x10000000000000000

instance (x : Bytes) : Decidable (Short x) :=
  inferInstanceAs (Decidable (x.length < 0x10000000000000000))

theorem short_append {x y : Bytes} (h : Short (x ++ y)) :
    Short x ∧ Short y := by
  unfold Short at *
  rw [List.length_append] at h
  omega

/-- The reader takes the bytes `x` off the front of any input, for the
value `a`. -/
def Takes {α : Type} (reader : Reader α) (x : Bytes) (a : α) : Prop :=
  Short x → ∀ rest,
    reader (.ofBytes (x ++ rest)) = .ok (a, .ofBytes rest)

/-- A reader that gives a value hands it on with what is left. -/
theorem bind_of_eq_ok {α β : Type} {reader : Reader α} {f : α → Reader β}
    {input rest : Input} {a : α} (h : reader input = .ok (a, rest)) :
    (reader >>= f) input = f a rest := by
  show (reader input >>= fun r => f r.1 r.2) = _
  rw [h]
  rfl

namespace Takes

variable {α β : Type} {reader : Reader α} {x y : Bytes} {a : α} {b : β}

theorem pure (a : α) : Takes (pure a) [] a := fun _ _ => rfl

/-- One reader after another takes what both take. -/
theorem bind {f : α → Reader β} (hx : Takes reader x a)
    (hy : Takes (f a) y b) : Takes (reader >>= f) (x ++ y) b := by
  intro hshort rest
  obtain ⟨hshortx, hshorty⟩ := short_append hshort
  rw [List.append_assoc, bind_of_eq_ok (hx hshortx _)]
  exact hy hshorty rest

theorem map {f : α → β} (h : Takes reader x a) :
    Takes (do return f (← reader)) x (f a) := by
  have := h.bind (f := fun a => Pure.pure (f a)) (Takes.pure (f a))
  rwa [List.append_nil] at this

theorem within (h : Takes reader x a) (name : FieldName) :
    Takes (Reader.within name reader) x a := by
  intro hshort rest
  unfold Reader.within
  rw [h hshort rest]
  rfl

end Takes

-- ================================================================== bytes

theorem Input.drop_append (x rest : Bytes) :
    (Input.ofBytes (x ++ rest)).drop x.length = .ofBytes rest := by
  unfold Input.drop Input.ofBytes
  simp

theorem byte_takes (d : Defect) (c : UInt8) :
    Takes (Reader.byte d) [c] c := by
  intro _ rest
  show Except.ok (c, (Input.ofBytes ([c] ++ rest)).drop [c].length) = _
  rw [Input.drop_append]

theorem take_takes (x : Bytes) : Takes (Reader.take x.length) x x := by
  intro _ rest
  have hle : ¬ (Input.ofBytes (x ++ rest)).left < x.length := by
    show ¬ (x ++ rest).length < x.length
    rw [List.length_append]
    omega
  unfold Reader.take
  rw [if_neg hle, Input.drop_append]
  show Except.ok ((x ++ rest).take x.length, _) = _
  rw [List.take_left]

-- ================================================================ varints

private theorem lastByte_takes {count n : Nat} (hn : n < 128)
    (hcount : count = 0 → n < 2) :
    Takes (Reader.varintWithin (count + 1)) [UInt8.ofNat n] n := by
  have hb : (UInt8.ofNat n).toNat = n := by
    rw [UInt8.toNat_ofNat', Nat.mod_eq_of_lt (by omega)]
  have hlow : UInt8.ofNat n < 0x80 := by
    rw [UInt8.lt_iff_toNat_lt, hb]
    exact hn
  have hroom : ¬ (count = 0 && decide (1 < UInt8.ofNat n)) = true := by
    rw [Bool.and_eq_true, decide_eq_true_eq, decide_eq_true_eq,
      UInt8.lt_iff_toNat_lt, hb]
    show ¬ (count = 0 ∧ 1 < n)
    omega
  unfold Reader.varintWithin
  rw [← List.append_nil [UInt8.ofNat n]]
  refine (byte_takes .varint _).bind ?_
  rw [if_pos hlow, if_neg hroom, hb]
  exact Takes.pure n

private theorem nextByte_takes {count n high : Nat} {x : Bytes}
    (h : Takes (Reader.varintWithin count) x high)
    (hn : n % 128 + 128 * high = n) :
    Takes (Reader.varintWithin (count + 1))
      (UInt8.ofNat (n % 128 + 128) :: x) n := by
  have hb : (UInt8.ofNat (n % 128 + 128)).toNat = n % 128 + 128 := by
    rw [UInt8.toNat_ofNat', Nat.mod_eq_of_lt (by omega)]
  have hhigh : ¬ UInt8.ofNat (n % 128 + 128) < 0x80 := by
    rw [UInt8.lt_iff_toNat_lt, hb]
    show ¬ n % 128 + 128 < 128
    omega
  unfold Reader.varintWithin
  rw [← List.singleton_append]
  refine (byte_takes .varint _).bind ?_
  rw [if_neg hhigh, hb]
  have hmap := h.map (f := fun high => (n % 128 + 128) % 128 + 128 * high)
  rwa [show (n % 128 + 128) % 128 + 128 * high = n by omega] at hmap

/-- A varint holds seven bits in each byte, and one bit in the last one that
there is room for. -/
theorem varintWithin_takes {count n : Nat} (h : n < 2 ^ (7 * count + 1)) :
    Takes (Reader.varintWithin (count + 1)) (Writer.varint n) n := by
  induction count generalizing n with
  | zero =>
      have hn : n < 2 := h
      unfold Writer.varint
      rw [if_pos (by omega)]
      exact lastByte_takes (by omega) fun _ => hn
  | succ count ih =>
      unfold Writer.varint
      by_cases hn : n < 128
      · rw [if_pos hn]
        exact lastByte_takes hn fun h => by omega
      · rw [if_neg hn]
        have hhigh : n / 128 < 2 ^ (7 * count + 1) := by
          rw [Nat.div_lt_iff_lt_mul (by decide)]
          rwa [show 7 * (count + 1) + 1 = 7 * count + 1 + 7 by omega,
            Nat.pow_add] at h
        exact nextByte_takes (ih hhigh) (Nat.mod_add_div n 128)

theorem varint_takes {n : Nat} (h : n < 0x10000000000000000) :
    Takes Reader.varint (Writer.varint n) n :=
  varintWithin_takes (show n < 2 ^ (7 * 9 + 1) from h)

theorem varint_ne_nil (n : Nat) : Writer.varint n ≠ [] := by
  unfold Writer.varint
  split <;> exact List.cons_ne_nil _ _

theorem int64_takes (i : Int64) : Takes Reader.int64 (Writer.int64 i) i := by
  have := (varint_takes i.toUInt64.toNat_lt).map
    (f := fun n => (UInt64.ofNat n).toInt64)
  rwa [UInt64.ofNat_toNat, Int64.toInt64_toUInt64] at this

theorem uint64_takes (n : UInt64) :
    Takes Reader.uint64 (Writer.uint64 n) n := by
  have := (varint_takes n.toNat_lt).map (f := fun n => UInt64.ofNat n)
  rwa [UInt64.ofNat_toNat] at this

/-- Widening an integer and taking the lower half gives it back. -/
theorem int32_takes (i : Int32) : Takes Reader.int32 (Writer.int32 i) i := by
  have := (varint_takes i.toInt64.toUInt64.toNat_lt).map
    (f := fun n => (UInt32.ofNat n).toInt32)
  have hi : (UInt32.ofNat i.toInt64.toUInt64.toNat).toInt32 = i := by
    apply Int32.toBitVec_inj.mp
    show BitVec.ofNat 32 (i.toBitVec.signExtend 64).toNat = i.toBitVec
    rw [BitVec.ofNat_toNat]
    apply BitVec.eq_of_getLsbD_eq
    intro j hj
    rw [BitVec.getLsbD_setWidth, BitVec.getLsbD_signExtend, if_pos hj,
      decide_eq_true hj, decide_eq_true (by omega), Bool.true_and,
      Bool.true_and]
  rwa [hi] at this

-- ======================================================== fixed width, texts

/-- The next bytes, as many as were written. -/
theorem take_takes_of_length {n : Nat} {x : Bytes} (h : x.length = n) :
    Takes (Reader.take n) x x := by
  rw [← h]
  exact take_takes x

theorem binary32_takes (x : Binary32) :
    Takes Reader.binary32 (Writer.binary32 x) x := by
  have := (take_takes_of_length
    (LittleEndian.length_encode 4 x.bits.toNat)).map
    (f := fun bytes => (⟨UInt32.ofNat (LittleEndian.decode bytes)⟩ : Binary32))
  rwa [LittleEndian.decode_encode, Nat.mod_eq_of_lt x.bits.toNat_lt,
    UInt32.ofNat_toNat] at this

theorem binary64_takes (x : Binary64) :
    Takes Reader.binary64 (Writer.binary64 x) x := by
  have := (take_takes_of_length
    (LittleEndian.length_encode 8 x.bits.toNat)).map
    (f := fun bytes => (⟨UInt64.ofNat (LittleEndian.decode bytes)⟩ : Binary64))
  rwa [LittleEndian.decode_encode, Nat.mod_eq_of_lt x.bits.toNat_lt,
    UInt64.ofNat_toNat] at this

/-- A length and what it is the length of. -/
def sized (x : Bytes) : Bytes := Writer.varint x.length ++ x

/-- The length of short bytes is told in front of them. -/
theorem length_takes {α : Type} {f : Nat → Reader α} {x : Bytes} {a : α}
    (h : Takes (f x.length) x a) :
    Takes (do f (← Reader.varint)) (sized x) a := by
  intro hshort rest
  exact (varint_takes (short_append hshort).2).bind h hshort rest

theorem blob_takes (x : Bytes) : Takes Reader.blob (sized x) x :=
  length_takes (f := fun length => Reader.take length) (take_takes x)

theorem text_takes (text : String) :
    Takes Reader.text (sized (Utf8.encode text)) text := by
  rw [← List.append_nil (sized _)]
  refine (blob_takes _).bind ?_
  rw [Utf8.decode_encode]
  exact Takes.pure text

-- =========================================================== runs of items

/-- A run of items ends where its pieces do. No piece is empty: an item that
takes no bytes ends a run. -/
theorem repeatTo_run {α : Type} {item : Reader α} {pieces : List Bytes}
    {items : List α}
    (h : List.Forall₂ (fun piece a => piece ≠ [] ∧ ∀ rest,
      item (.ofBytes (piece ++ rest)) = .ok (a, .ofBytes rest)) pieces items)
    (rest : Bytes) (done : List α) :
    Reader.repeatTo item rest.length done (.ofBytes (pieces.flatten ++ rest))
      = .ok (items.reverse ++ done, .ofBytes rest) := by
  induction h generalizing done with
  | nil =>
      have hend : (Input.ofBytes ([].flatten ++ rest)).left ≤ rest.length :=
        Nat.le_refl _
      unfold Reader.repeatTo
      rw [if_pos hend]
      rfl
  | @cons piece a pieces items hpiece _ ih =>
      obtain ⟨hne, htakes⟩ := hpiece
      rw [List.flatten_cons]
      have hpos := List.length_pos_iff.mpr hne
      -- A piece that is not empty is not the end, and brings it nearer.
      have hmore : ¬ (Input.ofBytes (piece ++ pieces.flatten ++ rest)).left
          ≤ rest.length := by
        show ¬ (piece ++ pieces.flatten ++ rest).length ≤ rest.length
        rw [List.length_append, List.length_append]
        omega
      have hprogress : (Input.ofBytes (pieces.flatten ++ rest)).left
          < (Input.ofBytes (piece ++ pieces.flatten ++ rest)).left := by
        show (pieces.flatten ++ rest).length
          < (piece ++ pieces.flatten ++ rest).length
        simp only [List.length_append]
        omega
      unfold Reader.repeatTo
      rw [if_neg hmore]
      simp only [List.append_assoc, htakes (pieces.flatten ++ rest)]
      rw [List.append_assoc] at hprogress
      rw [dif_pos hprogress, ih, List.reverse_cons, List.append_assoc]
      rfl

/-- Pieces that the reader takes one after the other. -/
def Pieces {α : Type} (item : Reader α) : List Bytes → List α → Prop :=
  List.Forall₂ fun piece a => piece ≠ [] ∧ Takes item piece a

/-- Pieces up to the end are all taken, and no more. -/
theorem repeatTo_pieces {α : Type} {item : Reader α} {pieces : List Bytes}
    {items : List α} (h : Pieces item pieces items)
    (hshort : Short pieces.flatten) (rest : Bytes) (done : List α) :
    Reader.repeatTo item rest.length done (.ofBytes (pieces.flatten ++ rest))
      = .ok (items.reverse ++ done, .ofBytes rest) := by
  refine repeatTo_run ?_ rest done
  induction h with
  | nil => exact .nil
  | cons hpiece _ ih =>
      obtain ⟨hhead, htail⟩ := short_append hshort
      exact .cons ⟨hpiece.1, hpiece.2 hhead⟩ (ih htail)

/-- The items fill the length in front of them exactly. -/
theorem delimited_takes {α : Type} {item : Reader α} {pieces : List Bytes}
    {items : List α} (h : Pieces item pieces items) :
    Takes (Reader.delimited item) (sized pieces.flatten) items := by
  unfold Reader.delimited
  refine length_takes ?_
  intro hshort rest
  have hleft : (Input.ofBytes (pieces.flatten ++ rest)).left
      - pieces.flatten.length = rest.length := by
    show (pieces.flatten ++ rest).length - _ = _
    rw [List.length_append, Nat.add_sub_cancel_left]
  have hfits : ¬ (Input.ofBytes (pieces.flatten ++ rest)).left
      < pieces.flatten.length := by
    show ¬ (pieces.flatten ++ rest).length < _
    rw [List.length_append]
    omega
  have hdone : ¬ (Input.ofBytes rest).left ≠ rest.length := not_not.mpr rfl
  rw [bind_of_eq_ok (rfl : Reader.remaining _ = .ok (_, _)), if_neg hfits,
    hleft]
  dsimp only
  rw [bind_of_eq_ok (repeatTo_pieces h hshort rest []),
    bind_of_eq_ok (rfl : Reader.remaining _ = .ok (_, _)), if_neg hdone,
    List.append_nil, List.reverse_reverse]
  rfl

end DetectorHeader.Protobuf
