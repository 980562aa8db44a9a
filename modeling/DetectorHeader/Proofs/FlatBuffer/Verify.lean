/-
What a verification that succeeds has found, one lemma for each way of
putting verifications together: what was looked at is inside of the buffer
and at a place that fits it, and the usage has grown by the load of it.

The lemmas for single steps (`range_eq_ok` to `string_eq_ok`) are
equivalences and serve both directions; those for elements, fields and
tables read success backwards.
-/
import DetectorHeader.Proofs.FlatBuffer.Load
import DetectorHeader.Proofs.FlatBuffer.Table

namespace DetectorHeader.FlatBuffer

namespace Verify

variable {α β : Type} {usage usage' : Usage}

/-- Two checks pass if the second one does after the first. -/
theorem bind_eq_ok {x : Verify α} {f : α → Verify β} {c : β} :
    (x >>= f) usage = .ok (c, usage')
      ↔ ∃ a between, x usage = .ok (a, between)
          ∧ f a between = .ok (c, usage') := by
  show (x usage >>= fun r => f r.1 r.2) = _ ↔ _
  cases x usage with
  | error fault => simp [bind, Except.bind]
  | ok r =>
      constructor
      · intro h
        exact ⟨r.1, r.2, rfl, h⟩
      · rintro ⟨a, between, hr, h⟩
        cases hr
        exact h

/-- Without a check nothing is used. -/
theorem pure_eq_ok {a c : α} :
    (pure a : Verify α) usage = .ok (c, usage') ↔ a = c ∧ usage = usage' := by
  show Except.ok (a, usage) = Except.ok (c, usage') ↔ _
  simp

/-- What fails does not pass. -/
theorem fail_ne_ok {d : Defect} {c : α} :
    (fail d : Verify α) usage ≠ .ok (c, usage') := by
  intro h
  cases h

/-- A step of the way only bears on the fault. -/
theorem behind_eq_ok {step : Step} {v : Verify Unit} :
    behind step v usage = .ok ((), usage') ↔ v usage = .ok ((), usage') := by
  unfold behind
  cases v usage with
  | error fault => simp [Except.mapError]
  | ok r => simp [Except.mapError]

/-- A check in front of the rest. -/
theorem unless_eq_ok {p : Prop} [Decidable p] {d : Defect} {v : Verify α}
    {c : α} :
    (do if p then fail d
        v : Verify α) usage = .ok (c, usage')
      ↔ ¬ p ∧ v usage = .ok (c, usage') := by
  by_cases hp : p
  · simp only [hp, if_true, not_true, false_and, iff_false]
    rw [bind_eq_ok]
    rintro ⟨a, between, h, -⟩
    exact fail_ne_ok h
  · simp only [hp, if_false, not_false_eq_true, true_and]

/-- A range passes if it is inside and its bytes are not too many. -/
theorem range_eq_ok {b : Buffer} {position n : Nat} :
    range b position n usage = .ok ((), usage')
      ↔ position + n ≤ b.size ∧ usage.apparentSize + n ≤ maxApparentSize
        ∧ usage' = usage.after { bytes := n } := by
  unfold range
  rw [unless_eq_ok, Nat.not_lt]
  refine and_congr_right fun _ => ?_
  by_cases hlimit : maxApparentSize < usage.apparentSize + n
  · have : ¬ usage.apparentSize + n ≤ maxApparentSize := by omega
    simp only [this, false_and, iff_false]
    rw [bind_eq_ok]
    rintro ⟨u, between, hget, hset⟩
    cases hget
    rw [bind_eq_ok] at hset
    obtain ⟨⟨⟩, between, hset, hfail⟩ := hset
    rw [if_pos hlimit] at hfail
    exact fail_ne_ok hfail
  · have hle : usage.apparentSize + n ≤ maxApparentSize := by omega
    simp only [hle, true_and]
    rw [bind_eq_ok]
    constructor
    · rintro ⟨u, between, hget, hset⟩
      cases hget
      rw [bind_eq_ok] at hset
      obtain ⟨⟨⟩, between, hset, hend⟩ := hset
      rw [if_neg hlimit] at hend
      cases hset
      exact ((pure_eq_ok.mp hend).2).symm
    · rintro rfl
      refine ⟨usage, usage, rfl, ?_⟩
      rw [bind_eq_ok]
      refine ⟨(), usage.after { bytes := n }, rfl, ?_⟩
      rw [if_neg hlimit]
      rfl

/-- Alignment uses nothing. -/
theorem aligned_eq_ok {s : Scalar} {position : Nat} :
    aligned s position usage = .ok ((), usage')
      ↔ position % s.size = 0 ∧ usage' = usage := by
  unfold aligned
  by_cases h : position % s.size = 0
  · simp only [h, ne_eq, not_true, if_false, true_and]
    rw [pure_eq_ok, eq_self_iff_true, true_and]
    exact eq_comm
  · simp only [h, ne_eq, not_false_eq_true, if_true, false_and, iff_false]
    exact fail_ne_ok

/-- Verifying elements is verifying each of them, at its own place. -/
theorem elements_eq_ok {check : Nat → Verify Unit} {size : Nat} :
    ∀ {count start index : Nat} {usage usage' : Usage},
      elements check start size index count usage = .ok ((), usage') →
      ∀ i < count, ∃ before after,
        check (start + i * size) before = .ok ((), after) := by
  intro count
  induction count with
  | zero =>
      intro start index usage usage' _ i hi
      omega
  | succ count ih =>
      intro start index usage usage' h i hi
      unfold elements at h
      obtain ⟨⟨⟩, between, hfirst, hrest⟩ := bind_eq_ok.mp h
      cases i with
      | zero =>
          rw [Nat.zero_mul, Nat.add_zero]
          exact ⟨usage, between, behind_eq_ok.mp hfirst⟩
      | succ i =>
          have := ih hrest i (by omega)
          rwa [Nat.add_assoc, Nat.add_comm size, ← Nat.succ_mul] at this

end Verify

namespace Check

open Verify

variable {b : Buffer} {position : Nat} {usage usage' : Usage}

/-- A scalar passes if it is inside and aligned, for as many bytes as it has. -/
theorem scalar_eq_ok {s : Scalar} :
    scalar s b position usage = .ok ((), usage')
      ↔ NumberAt s b position (b.unsigned position s.size)
        ∧ usage.apparentSize + s.size ≤ maxApparentSize
        ∧ usage' = usage.after (Load.scalar s) := by
  unfold scalar
  rw [bind_eq_ok]
  constructor
  · rintro ⟨⟨⟩, between, haligned, hrange⟩
    obtain ⟨ha, rfl⟩ := aligned_eq_ok.mp haligned
    obtain ⟨hinside, hfits, rfl⟩ := range_eq_ok.mp hrange
    exact ⟨⟨ha, hinside, rfl⟩, hfits, rfl⟩
  · rintro ⟨⟨ha, hinside, -⟩, hfits, rfl⟩
    exact ⟨(), usage, aligned_eq_ok.mpr ⟨ha, rfl⟩,
      range_eq_ok.mpr ⟨hinside, hfits, rfl⟩⟩

/-- An offset passes if it is a number and its target passes. -/
theorem offsetTo_eq_ok {target : Check} :
    offsetTo target b position usage = .ok ((), usage')
      ↔ ∃ between, scalar .u32 b position usage = .ok ((), between)
        ∧ target b (position + b.u32 position) between = .ok ((), usage') := by
  unfold offsetTo
  rw [bind_eq_ok]
  constructor
  · rintro ⟨⟨⟩, h⟩
    exact h
  · intro h
    exact ⟨(), h⟩

/-- A vector of scalars passes if its elements are inside and aligned, for the
bytes of the length and of them all. -/
theorem vector_eq_ok {s : Scalar} :
    vector s b position usage = .ok ((), usage')
      ↔ NumberAt .u32 b position (b.u32 position)
        ∧ (position + 4) % s.size = 0
        ∧ position + 4 + b.u32 position * s.size ≤ b.size
        ∧ usage.apparentSize + (4 + b.u32 position * s.size)
            ≤ maxApparentSize
        ∧ usage' = usage.after (Load.vector s (b.u32 position)) := by
  unfold vector
  rw [bind_eq_ok]
  constructor
  · -- the count, the alignment of the elements, and their range
    rintro ⟨⟨⟩, between, hscalar, hrest⟩
    obtain ⟨hnumber, hfits, rfl⟩ := scalar_eq_ok.mp hscalar
    rw [bind_eq_ok] at hrest
    obtain ⟨⟨⟩, between, haligned, hrange⟩ := hrest
    obtain ⟨ha, rfl⟩ := aligned_eq_ok.mp haligned
    obtain ⟨hinside, hfits', rfl⟩ := range_eq_ok.mp hrange
    refine ⟨hnumber, ha, hinside, ?_, ?_⟩
    · rw [← Nat.add_assoc]
      exact hfits'
    · rw [← Usage.after_add]
      rfl
  · rintro ⟨hnumber, ha, hinside, hfits, rfl⟩
    refine ⟨(), usage.after (Load.scalar .u32), scalar_eq_ok.mpr
      ⟨hnumber, ?_, rfl⟩, ?_⟩
    · show usage.apparentSize + 4 ≤ _
      omega
    · rw [bind_eq_ok]
      refine ⟨(), _, aligned_eq_ok.mpr ⟨ha, rfl⟩,
        range_eq_ok.mpr ⟨hinside, ?_, ?_⟩⟩
      · show usage.apparentSize + 4 + _ ≤ _
        omega
      · rw [← Usage.after_add]
        rfl

/-- A vector of offsets that passes has offsets that pass. -/
theorem vectorOf_eq_ok {target : Check}
    (h : vectorOf target b position usage = .ok ((), usage')) :
    (∃ between, vector .u32 b position usage = .ok ((), between))
      ∧ ∀ i < b.u32 position, ∃ before after,
          offsetTo target b (position + 4 + i * 4) before
            = .ok ((), after) := by
  unfold vectorOf at h
  obtain ⟨⟨⟩, between, hvector, helements⟩ := bind_eq_ok.mp h
  exact ⟨⟨between, hvector⟩, elements_eq_ok helements⟩

/-- A string passes if it is a vector of bytes that are UTF-8 and end with a
zero. -/
theorem string_eq_ok :
    string b position usage = .ok ((), usage')
      ↔ vector .u8 b position usage = .ok ((), usage')
        ∧ b.textFault? (position + 4) (b.u32 position) = none
        ∧ b.get? (position + 4 + b.u32 position) = some 0 := by
  unfold string
  rw [bind_eq_ok]
  constructor
  · rintro ⟨⟨⟩, between, hvector, hrest⟩
    cases hfault : b.textFault? (position + 4) (b.u32 position) with
    | some fault =>
        simp only [hfault] at hrest
        rw [bind_eq_ok] at hrest
        obtain ⟨⟨⟩, between, hfail, -⟩ := hrest
        exact absurd hfail fail_ne_ok
    | none =>
        simp only [hfault] at hrest
        split at hrest
        case isTrue => exact absurd hrest fail_ne_ok
        case isFalse hzero =>
          obtain ⟨-, rfl⟩ := pure_eq_ok.mp hrest
          exact ⟨hvector, rfl, not_not.mp hzero⟩
  · rintro ⟨hvector, hfault, hzero⟩
    refine ⟨(), usage', hvector, ?_⟩
    simp only [hfault, hzero, ne_eq, not_true, if_false]
    rfl

-- ================================================================= tables

/-- Verifying a field is reading its slot, and verifying what is at the place
that the slot tells, if it tells one. -/
theorem field_eq_ok {f : Field} {vtable length : Nat}
    (h : field f b position vtable length usage = .ok ((), usage'))
    (hslot : f.slot < length) :
    NumberAt .u16 b (vtable + f.slot) (b.u16 (vtable + f.slot))
      ∧ (b.u16 (vtable + f.slot) ≠ 0 → ∃ before,
          f.check b (position + b.u16 (vtable + f.slot)) before
            = .ok ((), usage')) := by
  unfold field at h
  rw [if_pos hslot, bind_eq_ok] at h
  obtain ⟨⟨⟩, between, hscalar, hcheck⟩ := h
  refine ⟨(scalar_eq_ok.mp hscalar).1, fun hne => ?_⟩
  rw [if_pos hne] at hcheck
  exact ⟨between, behind_eq_ok.mp hcheck⟩

/-- All fields that are checked pass. -/
theorem forM_eq_ok {fields : List Field} {check : Field → Verify Unit} :
    ∀ {usage usage' : Usage}, fields.forM check usage = .ok ((), usage') →
      ∀ f ∈ fields, ∃ before after, check f before = .ok ((), after) := by
  induction fields with
  | nil =>
      intro usage usage' _ f hf
      cases hf
  | cons g fields ih =>
      intro usage usage' h f hf
      obtain ⟨⟨⟩, between, hg, hrest⟩ := bind_eq_ok.mp h
      rcases List.mem_cons.mp hf with rfl | hf
      · exact ⟨usage, between, hg⟩
      · exact ih hrest f hf

/-- Verifying a table is finding its vtable, and verifying its fields. -/
theorem table_eq_ok {fields : List Field}
    (h : table fields b position usage = .ok ((), usage')) :
    ∃ t : Read.Table, t.position = position ∧ TableAt b t
      ∧ ∀ f ∈ fields, ∃ before after,
          field f b position t.vtable t.length before = .ok ((), after) := by
  unfold table at h
  -- One step of the check after the other, each with the usage it leaves.
  obtain ⟨⟨⟩, u1, hoffset, h⟩ := bind_eq_ok.mp h
  obtain ⟨hplace, h⟩ := unless_eq_ok.mp h
  rw [not_or, Int.not_lt, Int.not_le] at hplace
  obtain ⟨vtable, hvtable⟩ := Int.eq_ofNat_of_zero_le hplace.1
  rw [hvtable, Int.toNat_natCast] at h
  obtain ⟨⟨⟩, u2, hlength, h⟩ := bind_eq_ok.mp h
  obtain ⟨⟨⟩, u3, haligned, h⟩ := bind_eq_ok.mp h
  obtain ⟨⟨⟩, u4, hrange, h⟩ := bind_eq_ok.mp h
  obtain ⟨⟨⟩, u5, henter, h⟩ := bind_eq_ok.mp h
  obtain ⟨⟨⟩, u6, hfields, hleave⟩ := bind_eq_ok.mp h
  have hnumber := (scalar_eq_ok.mp hlength).1
  refine ⟨⟨position, vtable, b.u16 vtable⟩, rfl, ?_, forM_eq_ok hfields⟩
  exact {
    offset := (scalar_eq_ok.mp hoffset).1
    vtable := by
      show b.i32 position = (position : Int) - (vtable : Int)
      omega
    length := hnumber
    even := by
      have h1 : vtable % 2 = 0 := hnumber.aligned
      have h2 : (vtable + b.u16 vtable) % 2 = 0 :=
        (aligned_eq_ok.mp haligned).1
      show b.u16 vtable % 2 = 0
      omega
    inside := (range_eq_ok.mp hrange).1 }

end Check

end DetectorHeader.FlatBuffer
