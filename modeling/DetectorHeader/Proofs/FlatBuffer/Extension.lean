/-
Bytes behind a buffer change nothing.

`b.Extends b'` says that `b'` is `b` with further bytes behind it. Whatever a
reader or a check does on `b`, once it succeeds there it does the same on
`b'`: every position that it looks at is inside of `b`, where the two hold the
same bytes, and an offset or a count that is the same leads to the same place.
A failure is not kept, as it may be that of a buffer which ends too early.

`Read.Lasts` and `Check.Lasts` say so of readers and checks, with one lemma for
each way of putting them together. Before the rest of a reader or a check is
compared, its first part is known to have succeeded; this is how the rest gets
to know that the number on which it depends is the same in both buffers.
-/
import DetectorHeader.Proofs.FlatBuffer.Access

namespace DetectorHeader.FlatBuffer

-- ================================================================== buffers

namespace Buffer

/-- The second buffer is the first one with bytes behind it. -/
structure Extends (b b' : Buffer) : Prop where
  size_le : b.size ≤ b'.size
  byte : ∀ position < b.size, b'.byte position = b.byte position

/-- More bytes in a list are more bytes behind its buffer. -/
theorem extends_append (bytes tail : Bytes) :
    (ofArray bytes.toArray).Extends (ofArray (bytes ++ tail).toArray) := by
  refine ⟨?_, fun position hposition => ?_⟩
  · rw [size_ofArray, size_ofArray, List.size_toArray, List.size_toArray,
      List.length_append]
    omega
  · rw [size_ofArray, List.size_toArray] at hposition
    have hinside : position < (bytes ++ tail).length := by
      rw [List.length_append]
      omega
    rw [byte_ofArray hposition, byte_ofArray hinside,
      List.getElem_append_left hposition]

namespace Extends

variable {b b' : Buffer} {position n : Nat}

/-- The bytes of a buffer stay where they are in a longer one. -/
theorem get? (h : b.Extends b') (hinside : position < b.size) :
    b'.get? position = b.get? position := by
  rw [get?_of_lt hinside, get?_of_lt (hinside.trans_le h.size_le),
    h.byte position hinside]

theorem get (h : b.Extends b') (hinside : position < b.size) :
    b'.get position = b.get position := by
  unfold Buffer.get
  rw [h.get? hinside]

/-- So do numbers. -/
theorem unsigned (h : b.Extends b') (hinside : position + n ≤ b.size) :
    b'.unsigned position n = b.unsigned position n := by
  induction n generalizing position with
  | zero => rfl
  | succ n ih =>
      unfold Buffer.unsigned
      rw [h.get (by omega), ih (by omega)]

/-- So do pieces. -/
theorem slice (h : b.Extends b') (hinside : position + n ≤ b.size) :
    b'.slice position n = b.slice position n := by
  have hsize := h.size_le
  unfold Buffer.slice
  rw [Nat.min_eq_left (by omega), Nat.min_eq_left (by omega)]
  refine List.map_congr_left fun place hplace => h.byte place ?_
  obtain ⟨i, hi, rfl⟩ := List.mem_range'.mp hplace
  omega

/-- They are as much ASCII as before. -/
theorem isAscii (h : b.Extends b') (hinside : position + n ≤ b.size) :
    b'.isAscii position n = b.isAscii position n := by
  induction n generalizing position with
  | zero => rfl
  | succ n ih =>
      unfold Buffer.isAscii
      rw [h.get (by omega), ih (by omega)]

/-- And the same is wrong with them as texts. -/
theorem textFault? (h : b.Extends b') (hinside : position + n ≤ b.size) :
    b'.textFault? position n = b.textFault? position n := by
  unfold Buffer.textFault?
  rw [h.isAscii hinside, h.slice hinside]

end Extends

end Buffer

open Buffer (Extends)

-- ================================================================== readers

/-- The second result is that of the first, if that is one. -/
def Kept {α : Type} (x y : Option α) : Prop := ∀ a, x = some a → y = some a

namespace Kept

variable {α β : Type} {x y : Option α}

/-- What does not depend on the buffer is kept. -/
theorem refl (x : Option α) : Kept x x := fun _ h => h

/-- The rest of a read is compared where its first part is a result. -/
theorem bind {f g : α → Option β} (h : Kept x y)
    (hrest : ∀ a, x = some a → Kept (f a) (g a)) :
    Kept (x >>= f) (y >>= g) := by
  intro c hc
  obtain ⟨a, hx, hf⟩ := Option.bind_eq_some_iff.mp hc
  exact Option.bind_eq_some_iff.mpr ⟨a, h a hx, hrest a hx c hf⟩

/-- What is made of something that is kept is kept. -/
theorem map (f : α → β) (h : Kept x y) : Kept (f <$> x) (f <$> y) := by
  intro c hc
  obtain ⟨a, hx, rfl⟩ := Option.map_eq_some_iff.mp hc
  exact Option.map_eq_some_iff.mpr ⟨a, h a hx, rfl⟩

/-- So is a list, item by item. -/
theorem mapM {f g : α → Option β} {items : List α}
    (h : ∀ a ∈ items, Kept (f a) (g a)) :
    Kept (items.mapM f) (items.mapM g) := by
  induction items with
  | nil => exact Kept.refl _
  | cons a items ih =>
      obtain ⟨ha, hitems⟩ := List.forall_mem_cons.mp h
      rw [List.mapM_cons, List.mapM_cons]
      exact ha.bind fun _ _ => (ih hitems).bind fun _ _ => Kept.refl _

end Kept

/-- What is read of a buffer is read of every extension of it. -/
def Read.Lasts {α : Type} (read : Read α) : Prop :=
  ∀ ⦃b b' : Buffer⦄, b.Extends b' → ∀ position,
    Kept (read b position) (read b' position)

namespace Read.Lasts

variable {α : Type} {read : Read α} {b b' : Buffer}

/-- A number that is read is read again, as it is inside of both buffers. -/
theorem number (s : Scalar) : Lasts (Read.number s) := by
  intro b b' h position n hn
  obtain ⟨hinside, hvalue⟩ := Read.number_eq_some_iff.mp hn
  exact Read.number_eq_some_iff.mpr
    ⟨hinside.trans h.size_le, by rw [h.unsigned hinside, hvalue]⟩

/-- A number that has been read is the same in an extension. -/
theorem unsigned_eq {s : Scalar} {position n : Nat} (h : b.Extends b')
    (hn : Read.number s b position = some n) :
    b'.unsigned position s.size = b.unsigned position s.size :=
  h.unsigned (Read.number_eq_some_iff.mp hn).1

/-- The offset of a table that has been read is the same in an extension, and
so is the place where its vtable is looked for. -/
theorem vtablePlace_eq {position n : Nat} (h : b.Extends b')
    (hn : Read.number .i32 b position = some n) :
    Read.vtablePlace b' position = Read.vtablePlace b position := by
  unfold Read.vtablePlace Buffer.u32
  rw [show b'.unsigned position 4 = b.unsigned position 4 from
    unsigned_eq h hn]

theorem scalar (s : Scalar) (ofNat : Nat → α) :
    Lasts (Read.scalar s ofNat) :=
  fun _ _ h position => (number s h position).map ofNat

/-- What an offset leads to is read again. -/
theorem offsetTo (h : Lasts read) : Lasts (Read.offsetTo read) :=
  fun _ _ hb position => (number .u32 hb position).bind fun _ _ => h hb _

/-- So is each element, as many as there were. -/
theorem elements {size : Nat} (h : Lasts read) :
    Lasts (Read.elements size read) :=
  fun _ _ hb position => (number .u32 hb position).bind fun _ _ =>
    Kept.mapM fun _ _ => h hb _

/-- A vector of scalars is read again. -/
theorem vector (s : Scalar) (ofNat : Nat → α) :
    Lasts (Read.vector s ofNat) :=
  elements (scalar s ofNat)

/-- And so is a vector of offsets. -/
theorem vectorOf (h : Lasts read) : Lasts (Read.vectorOf read) :=
  elements (offsetTo h)

/-- A string is read again, and is valid again. -/
theorem string : Lasts Read.string := by
  intro b b' h position
  refine (number .u32 h position).bind fun length _ text htext => ?_
  by_cases hinside : b.size < position + 4 + length
  · rw [if_pos hinside] at htext
    cases htext
  · have hle := Nat.le_of_not_lt hinside
    rw [if_neg hinside] at htext
    rw [if_neg (Nat.not_lt.mpr (hle.trans h.size_le)), h.slice hle]
    exact htext

-- =================================================================== tables

/-- A table is read again, with its vtable in the same place. -/
theorem table : Lasts Read.table := by
  intro b b' h position
  refine (number .i32 h position).bind fun n hn => ?_
  rw [vtablePlace_eq h hn]
  dsimp only
  by_cases hvtable : vtablePlace b position < 0
  · rw [if_pos hvtable, if_pos hvtable]
    exact Kept.refl none
  · rw [if_neg hvtable, if_neg hvtable]
    exact (number .u16 h _).bind fun _ _ => Kept.refl _

/-- A field is read again, and one that is absent stays so. -/
theorem field? (h : Lasts read) (hb : b.Extends b') (t : Read.Table)
    (slot : Nat) :
    Kept (Read.field? b t slot read) (Read.field? b' t slot read) := by
  unfold Read.field?
  by_cases hslot : slot + 2 ≤ t.length
  · rw [if_pos hslot, if_pos hslot]
    refine (number .u16 hb _).bind fun offset _ => ?_
    by_cases hzero : offset = 0
    · rw [if_pos hzero, if_pos hzero]
      exact Kept.refl _
    · rw [if_neg hzero, if_neg hzero]
      exact (h hb _).map some
  · rw [if_neg hslot, if_neg hslot]
    exact Kept.refl _

/-- A field with a default is read again. -/
theorem fieldD [Inhabited α] (h : Lasts read) (hb : b.Extends b')
    (t : Read.Table) (slot : Nat) :
    Kept (Read.fieldD b t slot read) (Read.fieldD b' t slot read) :=
  (field? h hb t slot).map _

end Read.Lasts

-- =================================================================== checks

/-- The second verification ends as the first, if that succeeds. -/
def Verify.Kept {α : Type} (v w : Verify α) : Prop :=
  ∀ usage r, v usage = .ok r → w usage = .ok r

namespace Verify.Kept

variable {α β : Type} {v w : Verify α}

/-- A check that looks at no buffer passes again. -/
theorem refl (v : Verify α) : Verify.Kept v v := fun _ _ h => h

/-- The rest of a verification is compared where its first part succeeds. -/
theorem bind {f g : α → Verify β} (h : Verify.Kept v w)
    (hrest : ∀ a before after, v before = .ok (a, after) →
      Verify.Kept (f a) (g a)) :
    Verify.Kept (v >>= f) (w >>= g) := by
  intro usage r hr
  obtain ⟨c, usage'⟩ := r
  obtain ⟨a, between, hv, hf⟩ := bind_eq_ok.mp hr
  exact bind_eq_ok.mpr ⟨a, between, h _ _ hv, hrest a _ _ hv _ _ hf⟩

/-- Where a fault would be noted makes no difference. -/
theorem behind {v w : Verify Unit} (step : Step) (h : Verify.Kept v w) :
    Verify.Kept (Verify.behind step v) (Verify.behind step w) := by
  intro usage r hr
  obtain ⟨⟨⟩, usage'⟩ := r
  exact behind_eq_ok.mpr (h _ _ (behind_eq_ok.mp hr))

/-- A condition in front of the rest, which need not be the same. -/
theorem check {p q : Prop} [Decidable p] [Decidable q] {d e : Defect}
    (hpq : ¬ p → ¬ q) (h : ¬ p → Verify.Kept v w) :
    Verify.Kept
      (do if p then fail d
          v)
      (do if q then fail e
          w) := by
  intro usage r hr
  obtain ⟨c, usage'⟩ := r
  obtain ⟨hp, hv⟩ := unless_eq_ok.mp hr
  exact unless_eq_ok.mpr ⟨hpq hp, h hp _ _ hv⟩

/-- A range that is inside of a buffer is inside of a longer one. -/
theorem range {b b' : Buffer} (h : b.Extends b') (position n : Nat) :
    Verify.Kept (Verify.range b position n) (Verify.range b' position n) :=
  check (fun hinside => Nat.not_lt.mpr
    ((Nat.le_of_not_lt hinside).trans h.size_le)) fun _ => refl _

/-- All elements pass again if each of them does. -/
theorem elements {check check' : Nat → Verify Unit}
    (h : ∀ position, Verify.Kept (check position) (check' position))
    (size : Nat) : ∀ count start index, Verify.Kept
      (Verify.elements check start size index count)
      (Verify.elements check' start size index count) := by
  intro count
  induction count with
  | zero => exact fun _ _ => refl _
  | succ count ih =>
      intro start index
      exact ((h start).behind _).bind fun _ _ _ _ => ih _ _

/-- And so do all items of a list. -/
theorem forM {γ : Type} {check check' : γ → Verify Unit} {items : List γ}
    (h : ∀ c ∈ items, Verify.Kept (check c) (check' c)) :
    Verify.Kept (items.forM check) (items.forM check') := by
  induction items with
  | nil => exact refl _
  | cons c items ih =>
      obtain ⟨hc, hitems⟩ := List.forall_mem_cons.mp h
      exact hc.bind fun _ _ _ _ => ih hitems

end Verify.Kept

/-- What passes the check in a buffer passes it in every extension, with the
same usage. -/
def Check.Lasts (check : Check) : Prop :=
  ∀ ⦃b b' : Buffer⦄, b.Extends b' → ∀ position,
    Verify.Kept (check b position) (check b' position)

namespace Check.Lasts

variable {check : Check} {b b' : Buffer}

/-- A number that has been looked at is the same in an extension. -/
theorem unsigned_eq {s : Scalar} {position n : Nat} (h : b.Extends b')
    (hn : NumberAt s b position n) :
    b'.unsigned position s.size = b.unsigned position s.size :=
  h.unsigned hn.inside


/-- A scalar passes again. -/
theorem scalar (s : Scalar) : Lasts (Check.scalar s) :=
  fun _ _ h _ => (Verify.Kept.refl _).bind fun _ _ _ _ =>
    Verify.Kept.range h _ _

/-- An offset passes again with its target. -/
theorem offsetTo (h : Lasts check) : Lasts (Check.offsetTo check) := by
  intro b b' hb position
  refine (scalar .u32 hb position).bind fun _ _ _ hscalar => ?_
  have hoffset : b'.u32 position = b.u32 position :=
    unsigned_eq hb (Check.scalar_eq_ok.mp hscalar).1
  rw [hoffset]
  exact h hb _

/-- A vector of scalars passes again. -/
theorem vector (s : Scalar) : Lasts (Check.vector s) := by
  intro b b' hb position
  refine (scalar .u32 hb position).bind fun _ _ _ hscalar => ?_
  have hcount : b'.u32 position = b.u32 position :=
    unsigned_eq hb (Check.scalar_eq_ok.mp hscalar).1
  rw [hcount]
  exact (Verify.Kept.refl _).bind fun _ _ _ _ => Verify.Kept.range hb _ _

/-- A vector of offsets passes again with its elements. -/
theorem vectorOf (h : Lasts check) : Lasts (Check.vectorOf check) := by
  intro b b' hb position
  refine (vector .u32 hb position).bind fun _ _ _ hvector => ?_
  have hcount : b'.u32 position = b.u32 position :=
    unsigned_eq hb (Check.vector_eq_ok.mp hvector).1
  rw [hcount]
  exact Verify.Kept.elements (offsetTo h hb) _ _ _ _

/-- The zero behind a string stands in the buffer itself. -/
theorem string : Lasts Check.string := by
  intro b b' hb position usage r hr
  obtain ⟨⟨⟩, usage'⟩ := r
  obtain ⟨hvector, htext, hzero⟩ := Check.string_eq_ok.mp hr
  obtain ⟨hcount, -, hinside, -, -⟩ := Check.vector_eq_ok.mp hvector
  have hlength : b'.u32 position = b.u32 position := unsigned_eq hb hcount
  rw [show Scalar.u8.size = 1 from rfl, Nat.mul_one] at hinside
  refine Check.string_eq_ok.mpr ⟨vector .u8 hb position _ _ hvector, ?_, ?_⟩
  · rw [hlength, hb.textFault? hinside, htext]
  · rw [hlength, hb.get? (Buffer.lt_of_get? hzero), hzero]

-- =================================================================== tables

/-- A field passes again, as it is found in the same place. -/
theorem field {f : Check.Field} (h : Lasts f.check) (hb : b.Extends b')
    (position vtable length : Nat) :
    Verify.Kept (Check.field f b position vtable length)
      (Check.field f b' position vtable length) := by
  unfold Check.field
  by_cases hslot : f.slot < length
  · rw [if_pos hslot, if_pos hslot]
    refine (scalar .u16 hb _).bind fun _ _ _ hscalar => ?_
    have hoffset : b'.u16 (vtable + f.slot) = b.u16 (vtable + f.slot) :=
      unsigned_eq hb (Check.scalar_eq_ok.mp hscalar).1
    rw [hoffset]
    dsimp only
    split
    · exact (h hb _).behind _
    · exact Verify.Kept.refl _
  · rw [if_neg hslot, if_neg hslot]
    exact Verify.Kept.refl _

/-- A vtable that starts inside of a buffer starts inside of an extension. -/
theorem table {fields : List Check.Field}
    (h : ∀ f ∈ fields, Lasts f.check) : Lasts (Check.table fields) := by
  intro b b' hb position
  refine (scalar .i32 hb position).bind fun _ _ _ hscalar => ?_
  have hoffset : b'.i32 position = b.i32 position := by
    unfold Buffer.i32 Buffer.u32
    rw [show b'.unsigned position 4 = b.unsigned position 4 from
      unsigned_eq hb (Check.scalar_eq_ok.mp hscalar).1]
  rw [hoffset]
  have hsize := hb.size_le
  refine Verify.Kept.check (fun _ => by omega) fun _ => ?_
  refine (scalar .u16 hb _).bind fun _ _ _ hscalar => ?_
  have hlength : b'.u16 ((position : Int) - b.i32 position).toNat
      = b.u16 ((position : Int) - b.i32 position).toNat :=
    unsigned_eq hb (Check.scalar_eq_ok.mp hscalar).1
  dsimp only
  rw [hlength]
  refine (Verify.Kept.refl _).bind fun _ _ _ _ => ?_
  refine (Verify.Kept.range hb _ _).bind fun _ _ _ _ => ?_
  refine (Verify.Kept.refl _).bind fun _ _ _ _ => ?_
  exact (Verify.Kept.forM fun f hf => field (h f hf) hb _ _ _).bind
    fun _ _ _ _ => Verify.Kept.refl _

end Check.Lasts

end DetectorHeader.FlatBuffer
