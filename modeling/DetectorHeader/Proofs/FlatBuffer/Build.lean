/-
What construction leaves in the buffer that it ends with.

A builder only ever writes in front, so what it has written stays where it
is, counted from the end. `b.Stored r P` says that `P` holds at reference `r`
of every buffer that construction may end with from `b` on
(`Builder.CompletedBy`): whatever comes in front, as long as its length is a
multiple of the alignment asked for and offsets can reach across it. A fact
of this kind, once there, is there to stay (`Stored.grow`).

`b.Writes build post` is the statement about a step of the construction: from
a sound `b`, it ends in a sound builder that has grown, with `post` of the
result. Steps are put together by `Writes.bind`, which hands the growth on,
so that what was stored before a step is known to be stored behind it.
-/
import DetectorHeader.FlatBuffer.Build
import DetectorHeader.Proofs.FlatBuffer.Spelling

namespace DetectorHeader.FlatBuffer

/-- The length of the longest buffer that can be built: signed 32-bit offsets
reach from everywhere in it to everywhere. -/
def maxLength : Nat := 0x80000000

namespace Builder

-- ================================================================ growing

/-- `b'` is what some further construction makes of `b`. -/
structure Grows (b b' : Builder) : Prop where
  suffix : b.bytes <:+ b'.bytes
  alignment : b.alignment ∣ b'.alignment

/-- A buffer that construction may end with from `b` on. -/
structure CompletedBy (b : Builder) (whole : Bytes) : Prop where
  suffix : b.bytes <:+ whole
  aligned : b.alignment ∣ whole.length
  short : whole.length ≤ maxLength

/-- `P` holds at reference `r` of every buffer that construction may end
with. -/
def Stored (b : Builder) (r : Nat) (P : Buffer → Nat → Prop) : Prop :=
  r ≤ b.used ∧ ∀ whole, b.CompletedBy whole →
    P whole.toArray (whole.length - r)

/-- What each step of the construction keeps: alignments are powers of two,
so that the greatest is a multiple of all, and the vtables that the builder
remembers are where it remembers them. -/
structure Sound (b : Builder) : Prop where
  alignment : ∃ k, b.alignment = 2 ^ k
  vtables : ∀ v ∈ b.vtables, b.Stored v.2 fun B position =>
    B.Has position v.1 ∧ position % 2 = 0

variable {b b' b'' : Builder} {r : Nat} {P Q : Buffer → Nat → Prop}
  {whole : Bytes}

/-- Before anything is written nothing can be wrong. -/
theorem sound_empty : ({} : Builder).Sound :=
  ⟨⟨0, rfl⟩, fun _ hv => nomatch hv⟩

/-- Nothing that is written is lost by writing nothing. -/
theorem Grows.refl (b : Builder) : b.Grows b :=
  ⟨List.suffix_rfl, Nat.dvd_refl _⟩

/-- Nor is it by writing twice. -/
theorem Grows.trans (h : b.Grows b') (h' : b'.Grows b'') : b.Grows b'' :=
  ⟨h.suffix.trans h'.suffix, Nat.dvd_trans h.alignment h'.alignment⟩

/-- The more is written the more is used. -/
theorem Grows.used_le (h : b.Grows b') : b.used ≤ b'.used := by
  rw [b.used_eq, b'.used_eq]
  exact h.suffix.length_le

/-- A buffer that completes a later state completes an earlier one. -/
theorem CompletedBy.shrink (h : b'.CompletedBy whole) (hg : b.Grows b') :
    b.CompletedBy whole :=
  ⟨hg.suffix.trans h.suffix, Nat.dvd_trans hg.alignment h.aligned, h.short⟩

/-- A buffer is at least as long as what has been written of it. -/
theorem CompletedBy.used_le (h : b.CompletedBy whole) :
    b.used ≤ whole.length := by
  rw [b.used_eq]
  exact h.suffix.length_le

/-- And no longer than verification allows. -/
theorem CompletedBy.bounds (h : b.CompletedBy whole) :
    b.used ≤ whole.length ∧ whole.length ≤ 0x80000000 :=
  ⟨h.used_le, h.short⟩

/-- What is stored stays stored. -/
theorem Stored.grow (h : b.Stored r P) (hg : b.Grows b') : b'.Stored r P :=
  ⟨Nat.le_trans h.1 hg.used_le,
    fun whole hwhole => h.2 whole (hwhole.shrink hg)⟩

/-- A reference to something aligned is a position that is. -/
theorem CompletedBy.mod_eq_zero {a : Nat} (h : b.CompletedBy whole)
    (ha : a ∣ b.alignment) (hr : a ∣ r) : (whole.length - r) % a = 0 :=
  Nat.mod_eq_zero_of_dvd
    (Nat.dvd_sub (Nat.dvd_trans ha h.aligned) hr)

/-- What a builder begins with stands at the reference to its front. -/
theorem CompletedBy.has {x rest : Bytes} (h : b.CompletedBy whole)
    (hb : b.bytes = x ++ rest) :
    Buffer.Has whole.toArray (whole.length - b.used) x := by
  obtain ⟨before, hbefore⟩ := h.suffix
  refine Buffer.has_ofArray_iff.mpr ⟨before, rest, ?_, ?_⟩
  · rw [← hbefore, hb]
  · rw [← hbefore, List.length_append, b.used_eq, Nat.add_sub_cancel]

-- ================================================================== steps

/-- From a sound `b`, the step ends in a sound builder that has grown, with
`post` of the result. -/
def Writes {α : Type} (b : Builder) (build : Build α)
    (post : α → Builder → Prop) : Prop :=
  b.Sound → ∃ a b', build b = (a, b') ∧ b'.Sound ∧ b.Grows b' ∧ post a b'

namespace Writes

variable {α β : Type} {x : Build α} {f : α → Build β}
  {mid post post' : α → Builder → Prop} {last : β → Builder → Prop}

/-- A value that is at hand is there without a write. -/
theorem pure {a : α} (h : post a b) : b.Writes (pure a) post :=
  fun hb => ⟨a, b, rfl, hb, .refl b, h⟩

/-- Writes follow one another; the second one builds on what holds after the
first. -/
theorem bind (hx : b.Writes x mid)
    (hf : ∀ a b', b.Grows b' → mid a b' → b'.Writes (f a) last) :
    b.Writes (x >>= f) last := by
  intro hb
  obtain ⟨a, b1, hrun, hb1, hgrow, hmid⟩ := hx hb
  obtain ⟨c, b2, hrun', hb2, hgrow', hlast⟩ := hf a b1 hgrow hmid hb1
  refine ⟨c, b2, ?_, hb2, hgrow.trans hgrow', hlast⟩
  show f (x b).1 (x b).2 = _
  rw [hrun, hrun']

/-- What follows from what holds after a write holds as well. -/
theorem imp (hx : b.Writes x post)
    (h : ∀ a b', b.Grows b' → post a b' → post' a b') :
    b.Writes x post' := by
  intro hb
  obtain ⟨a, b', hrun, hb', hgrow, hpost⟩ := hx hb
  exact ⟨a, b', hrun, hb', hgrow, h a b' hgrow hpost⟩

/-- An optional part is stored if there is one. -/
theorem optional {a : Option α} {write : α → Build Reference}
    {P : α → Buffer → Nat → Prop}
    (h : ∀ a (b : Builder),
      b.Writes (write a) fun r b' => b'.Stored r (P a)) :
    b.Writes (a.mapM write) fun r b' =>
      Option.Rel (fun a r => b'.Stored r (P a)) a r := by
  cases a with
  | none => exact Writes.pure .none
  | some a =>
      show b.Writes (do return some (← write a)) _
      refine (h a b).bind fun r b' _ hr => ?_
      exact Writes.pure (.some hr)

/-- Parts written one after another are all stored. -/
theorem list {write : α → Build Reference} {P : α → Buffer → Nat → Prop}
    (h : ∀ a (b : Builder),
      b.Writes (write a) fun r b' => b'.Stored r (P a)) :
    ∀ {items : List α} {b : Builder},
      b.Writes (items.mapM write) fun rs b' =>
        List.Forall₂ (fun a r => b'.Stored r (P a)) items rs := by
  intro items
  induction items with
  | nil =>
      intro b
      rw [List.mapM_nil]
      exact Writes.pure .nil
  | cons a items ih =>
      intro b
      rw [List.mapM_cons]
      refine (h a b).bind fun r b1 _ hr => ?_
      refine ih.bind fun rs b2 hgrow hrs => ?_
      exact Writes.pure (.cons (hr.grow hgrow) hrs)

end Writes

-- ========================================================== writing bytes

open Build

theorem used_writes : b.Writes Build.used fun n b' => n = b.used ∧ b' = b :=
  fun hb => ⟨b.used, b, rfl, hb, .refl b, rfl, rfl⟩

theorem get_writes :
    b.Writes (get : FlatBuffer.Build Builder) fun c b' => c = b ∧ b' = b :=
  fun hb => ⟨b, b, rfl, hb, .refl b, rfl, rfl⟩

/-- Bytes that are put in front are in the buffer that is completed, wherever
that ends, at a position of the alignment that has been asked for. -/
theorem prepend_writes (x : Bytes) :
    b.Writes (prepend x) fun _ b' =>
      b'.used = b.used + x.length
        ∧ ∀ a, a ∣ b.alignment → a ∣ b'.used →
          b'.Stored b'.used fun B position =>
            B.Has position x ∧ position % a = 0 := by
  intro hb
  -- The builder behind the step is known by its fields only.
  obtain ⟨b', hrun⟩ : ∃ b', prepend x b = ((), b') := ⟨_, rfl⟩
  have hbytes : b'.bytes = x ++ b.bytes := by
    have := congrArg (·.2.bytes) hrun
    exact this.symm
  have halign : b'.alignment = b.alignment :=
    (congrArg (·.2.alignment) hrun).symm
  have hvtables : b'.vtables = b.vtables :=
    (congrArg (·.2.vtables) hrun).symm
  have hgrow : b.Grows b' := by
    refine ⟨?_, ?_⟩
    · rw [hbytes]
      exact List.suffix_append _ _
    · rw [halign]
  refine ⟨(), b', hrun, ⟨?_, ?_⟩, hgrow, ?_, ?_⟩
  · rw [halign]
    exact hb.alignment
  · rw [hvtables]
    exact fun v hv => (hb.vtables v hv).grow hgrow
  · rw [b'.used_eq, b.used_eq, hbytes, List.length_append, Nat.add_comm]
  · intro a ha hr
    refine ⟨Nat.le_refl _, fun whole hwhole => ⟨hwhole.has hbytes, ?_⟩⟩
    exact hwhole.mod_eq_zero (halign ▸ ha) hr

/-- With its padding a piece ends on the alignment. -/
theorem padding_dvd (used ahead : Nat) {a : Nat} (ha : 0 < a) :
    a ∣ used + padding used ahead a + ahead := by
  unfold padding
  have hlt := Nat.mod_lt (used + ahead) ha
  rw [Nat.add_right_comm]
  apply Nat.dvd_of_mod_eq_zero
  rw [Nat.add_mod_mod]
  have hsum : used + ahead + (a - (used + ahead) % a)
      = a * ((used + ahead) / a + 1) := by
    have := Nat.div_add_mod (used + ahead) a
    rw [Nat.mul_add, Nat.mul_one]
    omega
  rw [hsum, Nat.mul_mod_right]

/-- No more is padded than has to be. -/
theorem padding_lt (used ahead : Nat) {a : Nat} (ha : 0 < a) :
    padding used ahead a < a := Nat.mod_lt _ ha

/-- Nothing is padded where the alignment is right already. -/
theorem padding_eq_zero {used ahead a : Nat} (h : a ∣ used + ahead) :
    padding used ahead a = 0 := by
  unfold padding
  rw [Nat.mod_eq_zero_of_dvd h, Nat.sub_zero, Nat.mod_self]

/-- Padding brings the alignment about, with fewer bytes than that, and with
none if they are not needed. -/
theorem align_writes (ahead : Nat) {a : Nat} (ha : ∃ k, a = 2 ^ k) :
    b.Writes (align ahead a) fun _ b' =>
      a ∣ b'.used + ahead ∧ a ∣ b'.alignment
        ∧ b'.used = b.used + padding b.used ahead a := by
  intro hb
  obtain ⟨k, rfl⟩ := ha
  obtain ⟨j, hj⟩ := hb.alignment
  have hmax : max b.alignment (2 ^ k) = 2 ^ max j k := by
    rw [hj]
    exact ((pow_right_mono₀ one_le_two).map_max).symm
  -- Alignment is demanded of the whole buffer first, and padding is put in
  -- front then.
  let b1 : Builder := { b with alignment := max b.alignment (2 ^ k) }
  have hgrow : b.Grows b1 := by
    refine ⟨List.suffix_rfl, ?_⟩
    show b.alignment ∣ max b.alignment (2 ^ k)
    rw [hmax, hj]
    exact Nat.pow_dvd_pow 2 (Nat.le_max_left j k)
  have hb1 : b1.Sound := by
    refine ⟨⟨max j k, hmax⟩, fun v hv => ?_⟩
    exact (hb.vtables v hv).grow hgrow
  obtain ⟨a, b2, hrun, hb2, hgrow2, hused, -⟩ :=
    prepend_writes (b := b1)
      (List.replicate (padding b.used ahead (2 ^ k)) 0) hb1
  rw [List.length_replicate] at hused
  replace hused : b2.used = b.used + padding b.used ahead (2 ^ k) := hused
  refine ⟨(), b2, hrun, hb2, hgrow.trans hgrow2, ?_, ?_, hused⟩
  · rw [hused]
    exact padding_dvd _ _ (Nat.two_pow_pos k)
  · refine Nat.dvd_trans ?_ hgrow2.alignment
    show 2 ^ k ∣ max b.alignment (2 ^ k)
    rw [hmax]
    exact Nat.pow_dvd_pow 2 (Nat.le_max_right j k)

-- =================================================== numbers and offsets

/-- The offset that stands at a position leads to what is at `target`. -/
def LeadsTo (target : Nat) (B : Buffer) (position : Nat) : Prop :=
  ∃ n, NumberAt .u32 B position n
    ∧ position + n = B.size - target

/-- The alignment of counts and offsets. -/
theorem four_eq_pow : ∃ k, 4 = 2 ^ k := ⟨2, rfl⟩

/-- A number is written at a multiple of its size, and takes as many bytes
in front of what is aligned already. -/
theorem push_writes {size : Nat} (value : Nat) (hsize : ∃ k, size = 2 ^ k) :
    b.Writes (push size value) fun r b' =>
      r = b'.used ∧ size ∣ r ∧ size ∣ b'.alignment
        ∧ b'.used = b.used + padding b.used size size + size
        ∧ b'.Stored r fun B position =>
          B.Has position (LittleEndian.encode size value)
            ∧ position % size = 0 := by
  refine (align_writes size hsize).bind fun _ b1 _ halign => ?_
  obtain ⟨hdvd, hsize1, hused1⟩ := halign
  refine (prepend_writes _).bind fun _ b2 hgrow2 hprepend => ?_
  obtain ⟨hused2, hstored⟩ := hprepend
  rw [LittleEndian.length_encode] at hused2
  refine used_writes.imp fun r b' _ hr => ?_
  obtain ⟨rfl, rfl⟩ := hr
  rw [← hused2] at hdvd
  refine ⟨rfl, hdvd, Nat.dvd_trans hsize1 hgrow2.alignment, ?_,
    hstored size hsize1 hdvd⟩
  rw [hused2, hused1]

/-- A count is read back, in any buffer that it can be the count of a part
of. -/
theorem Stored.number {n : Nat}
    (h : b.Stored r fun B position =>
      B.Has position (LittleEndian.encode 4 n) ∧ position % 4 = 0)
    (hn : n < 0x100000000) :
    b.Stored r fun B position => NumberAt .u32 B position n := by
  refine ⟨h.1, fun whole hwhole => ?_⟩
  obtain ⟨hhas, haligned⟩ := h.2 whole hwhole
  exact numberAt_of_has (s := .u32) hhas hn haligned

/-- A count goes right in front of what is aligned to its size. -/
theorem pushCount_writes (n : Nat) (hdvd : 4 ∣ b.used) :
    b.Writes (push 4 n) fun r b' =>
      r = b'.used ∧ b'.used = b.used + 4
        ∧ (n < 0x100000000 → b'.Stored r fun B position =>
          NumberAt .u32 B position n) := by
  refine (push_writes _ four_eq_pow).imp fun r b1 _ hpush => ?_
  obtain ⟨rfl, -, -, hused, hstored⟩ := hpush
  rw [padding_eq_zero (Nat.dvd_add hdvd (Nat.dvd_refl 4)), Nat.add_zero]
    at hused
  exact ⟨rfl, hused, hstored.number⟩

/-- An offset that is written leads to its target. -/
theorem pushOffset_writes {target : Nat} (ht : target ≤ b.used) :
    b.Writes (pushOffset target) fun r b' =>
      r = b'.used ∧ 4 ∣ r ∧ 4 ∣ b'.alignment
        ∧ b'.used = b.used + padding b.used 4 4 + 4
        ∧ b'.Stored r (LeadsTo target) := by
  refine (align_writes 4 four_eq_pow).bind fun _ b1 hgrow1 halign => ?_
  obtain ⟨hdvd, -, hused1⟩ := halign
  refine used_writes.bind fun _ b2 _ hb2 => ?_
  obtain ⟨rfl, rfl⟩ := hb2
  refine (push_writes _ four_eq_pow).imp fun r b3 _ hpush => ?_
  obtain ⟨rfl, hdvd3, halign3, hused3, hstored⟩ := hpush
  rw [padding_eq_zero hdvd] at hused3
  refine ⟨rfl, hdvd3, halign3, by omega, hstored.1, fun whole hwhole => ?_⟩
  obtain ⟨hle, hshort⟩ := hwhole.bounds
  have hbehind : target ≤ b2.used := Nat.le_trans ht hgrow1.used_le
  obtain ⟨hhas, haligned⟩ := hstored.2 whole hwhole
  refine ⟨_, numberAt_of_has (s := .u32) hhas ?_ haligned, ?_⟩
  · show b2.used + 4 - target < 0x100000000
    omega
  · rw [Buffer.size_ofArray, List.size_toArray]
    omega

-- ================================================================ vectors

/-- A vector that is written has its elements in order. -/
theorem vector_writes {s : Scalar} {items : List Nat}
    (hitems : ∀ n ∈ items, n < 256 ^ s.size) :
    b.Writes (vector s.size items) fun r b' =>
      b'.Stored r fun B position => VectorAt s B position items := by
  -- The alignment is that of the count or of the elements, whichever is
  -- greater.
  have hsize : ∃ k, max s.size 4 = 2 ^ k ∧ s.size ∣ 2 ^ k ∧ 4 ∣ 2 ^ k := by
    cases s with
    | i64 => exact ⟨3, by decide⟩
    | _ => exact ⟨2, by decide⟩
  obtain ⟨k, hk, hs, h4⟩ := hsize
  refine (align_writes _ ⟨k, hk⟩).bind fun _ b1 _ halign => ?_
  obtain ⟨hdvd, halign1, -⟩ := halign
  rw [hk] at hdvd halign1
  refine (prepend_writes _).bind fun _ b2 hgrow2 hprepend => ?_
  obtain ⟨hused2, hstored2⟩ := hprepend
  rw [LittleEndian.length_flatMap_encode] at hused2
  rw [← hused2] at hdvd
  have hitems2 := hstored2 s.size (Nat.dvd_trans hs halign1)
    (Nat.dvd_trans hs hdvd)
  refine (pushCount_writes _ (Nat.dvd_trans h4 hdvd)).imp
    fun r b3 hgrow3 hpush => ?_
  obtain ⟨rfl, hused3, hcount3⟩ := hpush
  refine ⟨Nat.le_refl _, fun whole hwhole => ?_⟩
  obtain ⟨hle, hshort⟩ := hwhole.bounds
  obtain ⟨hhas, haligned⟩ := (hitems2.grow hgrow3).2 whole hwhole
  have hfront : whole.length - b2.used = whole.length - b3.used + 4 := by
    omega
  rw [hfront] at hhas haligned
  -- Buffers are short, so the count has 32 bits.
  have hcount : items.length ≤ items.length * s.size :=
    Nat.le_mul_of_pos_right _ s.size_pos
  refine ⟨(hcount3 ?_).2 whole hwhole, haligned, ?_, ?_⟩
  · omega
  · have := hhas.le_size
    rw [LittleEndian.length_flatMap_encode] at this
    exact this
  · intro i hi
    refine numberAt_of_has
      (hhas.piece (LittleEndian.length_encode s.size) i hi)
      (hitems _ (List.getElem_mem hi)) ?_
    rw [Nat.add_mul_mod_self_right]
    exact haligned

/-- A vector of offsets, the last one written first: its count, and what its
elements lead to. -/
structure OffsetsAt (B : Buffer) (position : Nat) (targets : List Reference) :
    Prop where
  count : NumberAt .u32 B position targets.length
  inside : position + 4 + targets.length * 4 ≤ B.size
  item : ∀ i (hi : i < targets.length),
    LeadsTo targets[i] B (position + 4 + i * 4)

/-- The offsets of a vector come to stand next to each other, each in front
of those behind it. -/
theorem offsets_writes :
    ∀ {targets : List Reference} {b : Builder},
      (∀ t ∈ targets, t ≤ b.used) → 4 ∣ b.used → 4 ∣ b.alignment →
      b.Writes (targets.reverse.forM fun t => do let _ ← pushOffset t)
        fun _ b' =>
          b'.used = b.used + targets.length * 4 ∧ 4 ∣ b'.used
            ∧ ∀ i (hi : i < targets.length),
              b'.Stored (b'.used - i * 4) (LeadsTo targets[i]) := by
  intro targets
  induction targets with
  | nil =>
      intro b _ hb _
      refine Writes.pure ⟨by simp, hb, fun i hi => ?_⟩
      cases hi
  | cons t targets ih =>
      intro b hle hb halign
      rw [List.reverse_cons, List.forM_eq_forM, List.forM_append]
      -- The list is written from its end, so its head comes to stand in front
      -- of all that the induction hypothesis is about.
      refine (ih (fun t ht => hle t (List.mem_cons_of_mem _ ht)) hb
        halign).bind fun _ b1 hgrow1 hrest => ?_
      obtain ⟨hused1, hdvd1, hstored1⟩ := hrest
      have ht : t ≤ b1.used := Nat.le_trans
        (hle t List.mem_cons_self) hgrow1.used_le
      have hnopad : padding b1.used 4 4 = 0 :=
        padding_eq_zero (Nat.dvd_add hdvd1 (Nat.dvd_refl 4))
      rw [List.forM_cons, List.forM_nil]
      have hlast : b1.Writes (do let _ ← pushOffset t) fun _ b2 =>
          b2.used = b1.used + 4 ∧ b2.Stored b2.used (LeadsTo t) := by
        refine (pushOffset_writes ht).bind fun r b2 _ hpush => ?_
        obtain ⟨rfl, -, -, hused2, hstored2⟩ := hpush
        exact Writes.pure ⟨by omega, hstored2⟩
      · refine hlast.bind fun _ b2 hgrow2 h2 => ?_
        obtain ⟨hused2, hstored2⟩ := h2
        refine Writes.pure ⟨?_, ?_, ?_⟩
        · rw [hused2, hused1, List.length_cons]
          omega
        · rw [hused2]
          exact Nat.dvd_add hdvd1 (Nat.dvd_refl 4)
        · intro i hi
          cases i with
          | zero =>
              rw [Nat.zero_mul, Nat.sub_zero]
              exact hstored2
          | succ i =>
              have := (hstored1 i (Nat.lt_of_succ_lt_succ hi)).grow hgrow2
              rw [show b2.used - (i + 1) * 4 = b1.used - i * 4 by omega]
              exact this

/-- And so has a vector of offsets, each of which leads to its target. -/
theorem vectorOf_writes {targets : List Reference}
    (hle : ∀ t ∈ targets, t ≤ b.used) :
    b.Writes (vectorOf targets) fun r b' =>
      b'.Stored r fun B position => OffsetsAt B position targets := by
  refine (align_writes _ four_eq_pow).bind fun _ b1 hgrow1 halign => ?_
  obtain ⟨hdvd1, halign1, -⟩ := halign
  have h1 : 4 ∣ b1.used := (Nat.dvd_add_left (Nat.dvd_mul_left 4 _)).mp hdvd1
  refine (offsets_writes (fun t ht => Nat.le_trans (hle t ht)
    hgrow1.used_le) h1 halign1).bind fun _ b2 hgrow2 hoffsets => ?_
  obtain ⟨hused2, hdvd2, hstored2⟩ := hoffsets
  refine (pushCount_writes _ hdvd2).imp fun r b3 hgrow3 hpush => ?_
  obtain ⟨rfl, hused3, hcount3⟩ := hpush
  refine ⟨Nat.le_refl _, fun whole hwhole => ?_⟩
  obtain ⟨hused, hshort⟩ := hwhole.bounds
  refine ⟨(hcount3 (by omega)).2 whole hwhole, ?_, ?_⟩
  · rw [Buffer.size_ofArray, List.size_toArray]
    omega
  · intro i hi
    have := ((hstored2 i hi).grow hgrow3).2 whole hwhole
    rwa [show whole.length - (b2.used - i * 4)
      = whole.length - b3.used + 4 + i * 4 by omega] at this

/-- A string: its length, its bytes and the zero behind them. -/
theorem string_writes (text : Bytes) :
    b.Writes (string text) fun r b' =>
      b'.Stored r fun B position =>
        NumberAt .u32 B position text.length
          ∧ B.Has (position + 4) text
          ∧ B.get? (position + 4 + text.length) = some 0 := by
  refine (align_writes _ four_eq_pow).bind fun _ b1 _ halign => ?_
  obtain ⟨hdvd, halign1, -⟩ := halign
  refine (prepend_writes _).bind fun _ b2 hgrow2 hprepend => ?_
  obtain ⟨hused2, hstored2⟩ := hprepend
  rw [List.length_append, List.length_singleton] at hused2
  rw [← hused2] at hdvd
  refine (pushCount_writes _ hdvd).imp fun r b3 hgrow3 hpush => ?_
  obtain ⟨rfl, hused3, hcount3⟩ := hpush
  refine ⟨Nat.le_refl _, fun whole hwhole => ?_⟩
  obtain ⟨hle, hshort⟩ := hwhole.bounds
  have hhas := (((hstored2 4 halign1 hdvd).grow hgrow3).2 whole hwhole).1
  rw [show whole.length - b2.used = whole.length - b3.used + 4 by omega]
    at hhas
  obtain ⟨htext, hzero⟩ := Buffer.has_append.mp hhas
  exact ⟨(hcount3 (by omega)).2 whole hwhole, htext, hzero.head.1⟩

end Builder

end DetectorHeader.FlatBuffer
