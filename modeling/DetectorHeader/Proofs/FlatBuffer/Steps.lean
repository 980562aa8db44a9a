/-
Buffers that have been finished carry their identifier
(`Finished.exists_append`).

A construction is any sequence of the steps that write a vector, a string or a
table (`Step`). Each step asks for alignments of up to eight bytes, all of them
powers of two, and one that writes a table asks for four at least
(`Asks`). So when a construction is finished with a table as its root, the
identifier comes to stand at a multiple of four from the end, and the offset to
the root right in front of it.
-/
import DetectorHeader.Proofs.FlatBuffer.Build

namespace DetectorHeader.FlatBuffer

open Build

/-- Nothing has been written yet. -/
structure Builder.Fresh (b : Builder) : Prop where
  bytes : b.bytes = []
  alignment : b.alignment = 1
  vtables : b.vtables = []

namespace Build

/-- The bytes that a field takes. -/
def Cell.size : Cell → Nat
  | number size _ => size
  | offset _ => 4

/-- A step of a construction. Numbers have one, two, four or eight bytes. -/
inductive Step : Builder → Builder → Prop
  | vector {b size} (items : List Nat) (hsize : size ∣ 8) :
      Step b (Build.vector size items b).2
  | vectorOf {b} (targets : List Reference) :
      Step b (Build.vectorOf targets b).2
  | string {b} (text : Bytes) : Step b (Build.string text b).2
  | table {b} {fields : List Field} (hfields : ∀ f ∈ fields, f.cell.size ∣ 8) :
      Step b (Build.table fields b).2

/-- Any number of steps. -/
abbrev Steps : Builder → Builder → Prop := Relation.ReflTransGen Step

/-- The bytes of a construction that has been finished: among its steps one
wrote the table that is made the root. -/
def Finished (identifier bytes : Bytes) : Prop :=
  ∃ start before fields b, Builder.Fresh start ∧ Steps start before
    ∧ (∀ f ∈ fields, Cell.size f.cell ∣ 8)
    ∧ Steps (table fields before).2 b
    ∧ bytes = (finish identifier (table fields before).1 b).2.bytes

-- ================================================================= alignments

variable {α β : Type} {b b' : Builder} {m n : Nat}

/-- The alignments that are asked for are powers of two up to eight, and one of
them is `n` at least. -/
def Asks (n : Nat) (build : Build α) : Prop :=
  ∀ b : Builder, b.alignment ∣ 8 →
    (build b).2.alignment ∣ 8 ∧ max b.alignment n ≤ (build b).2.alignment

namespace Asks

theorem pure (a : α) : Asks 0 (pure a : Build α) :=
  fun b hb => ⟨hb, (Nat.max_zero b.alignment).le⟩

/-- Two writes ask for the greater one of their alignments. -/
theorem bind {x : Build α} {f : α → Build β} (hx : Asks m x)
    (hf : ∀ a, Asks n (f a)) : Asks (max m n) (x >>= f) := by
  intro b hb
  obtain ⟨hx8, hxm⟩ := hx b hb
  obtain ⟨hf8, hfn⟩ := hf (x b).1 (x b).2 hx8
  refine ⟨hf8, ?_⟩
  show _ ≤ (f (x b).1 (x b).2).2.alignment
  omega

/-- What asks for an alignment asks for a smaller one. -/
theorem mono {x : Build α} (hx : Asks n x) (h : m ≤ n) : Asks m x := by
  intro b hb
  obtain ⟨h8, hn⟩ := hx b hb
  exact ⟨h8, by omega⟩

/-- Writing one item after the other asks for no more than each of them. -/
theorem mapM {f : α → Build β} {items : List α}
    (h : ∀ a ∈ items, Asks 0 (f a)) : Asks 0 (items.mapM f) := by
  induction items with
  | nil =>
      rw [List.mapM_nil]
      exact pure []
  | cons a items ih =>
      obtain ⟨ha, hitems⟩ := List.forall_mem_cons.mp h
      rw [List.mapM_cons]
      exact ha.bind fun _ => (ih hitems).bind fun _ => pure _

/-- And so does writing without results. -/
theorem forM {f : α → Build PUnit} {items : List α}
    (h : ∀ a ∈ items, Asks 0 (f a)) : Asks 0 (items.forM f) := by
  induction items with
  | nil => exact pure PUnit.unit
  | cons a items ih =>
      obtain ⟨ha, hitems⟩ := List.forall_mem_cons.mp h
      rw [List.forM_eq_forM, List.forM_cons]
      exact ha.bind fun _ => ih hitems

theorem used : Asks 0 used := fun b hb => ⟨hb, (Nat.max_zero b.alignment).le⟩

theorem get : Asks 0 (get : Build Builder) :=
  fun b hb => ⟨hb, (Nat.max_zero b.alignment).le⟩

theorem prepend (x : Bytes) : Asks 0 (prepend x) :=
  fun b hb => ⟨hb, (Nat.max_zero b.alignment).le⟩

/-- To remember a vtable asks for nothing. -/
theorem remember (x : Bytes) (there : Reference) :
    Asks 0 (modify fun b => { b with vtables := (x, there) :: b.vtables }) :=
  fun b hb => ⟨hb, (Nat.max_zero b.alignment).le⟩

/-- To align asks for the alignment. -/
theorem align (ahead : Nat) (hn : n ∣ 8) : Asks n (align ahead n) := by
  intro b hb
  refine ⟨?_, Nat.le_refl _⟩
  show max b.alignment n ∣ 8
  rcases max_choice b.alignment n with h | h
  · rwa [h]
  · rwa [h]

theorem push (value : Nat) (hn : n ∣ 8) : Asks n (push n value) :=
  ((align n hn).bind fun _ => (prepend _).bind fun _ => used).mono (by omega)

theorem pushOffset (target : Reference) : Asks 4 (pushOffset target) :=
  ((align 4 (by decide)).bind fun _ => used.bind fun _ =>
    push _ (by decide)).mono (by omega)

/-- A cell asks for nothing that it has not got. -/
theorem cell {c : Cell} (hc : c.size ∣ 8) : Asks 0 c.push := by
  cases c with
  | number size value => exact (push value hc).mono (Nat.zero_le _)
  | offset target => exact (pushOffset target).mono (Nat.zero_le _)

/-- A vector asks for its length to be aligned. -/
theorem vector (items : List Nat) (hn : n ∣ 8) : Asks 4 (vector n items) := by
  have hmax : max n 4 ∣ 8 := by
    rcases max_choice n 4 with h | h
    · rwa [h]
    · rw [h]
      decide
  exact ((align _ hmax).bind fun _ => (prepend _).bind fun _ =>
    push _ (by decide : 4 ∣ 8)).mono (by omega)

/-- And so does a vector of offsets. -/
theorem vectorOf (targets : List Reference) : Asks 4 (vectorOf targets) := by
  have hitem : ∀ t ∈ targets.reverse,
      Asks 0 (do let _ ← Build.pushOffset t : Build PUnit) := fun t _ =>
    ((pushOffset t).bind fun _ => pure PUnit.unit).mono (Nat.zero_le _)
  exact ((align _ (by decide : 4 ∣ 8)).bind fun _ => (forM hitem).bind fun _ =>
    push _ (by decide : 4 ∣ 8)).mono (by omega)

theorem string (text : Bytes) : Asks 4 (string text) :=
  ((align _ (by decide : 4 ∣ 8)).bind fun _ => (prepend _).bind fun _ =>
    push _ (by decide : 4 ∣ 8)).mono (by omega)

/-- With or without a vtable of its own. -/
theorem tableEnd (placed : List (Nat × Reference)) (start here : Nat) :
    Asks 0 (do
      let bytes := vtable placed here start
      match (← MonadState.get).vtables.lookup bytes with
      | some known => pushVtableOffset here known
      | none =>
          let there := here + bytes.length
          pushVtableOffset here there
          Build.prepend bytes
          modify fun b => { b with vtables := (bytes, there) :: b.vtables }
      return here : Build Reference) := by
  refine get.bind fun b => ?_
  dsimp only
  split
  · exact (prepend _).bind fun _ => pure here
  · exact (prepend _).bind fun _ => (prepend _).bind fun _ =>
      (remember _ _).bind fun _ => pure here

/-- A table asks for its offset to be aligned, as its cells do. -/
theorem table {fields : List Field} (h : ∀ f ∈ fields, f.cell.size ∣ 8) :
    Asks 4 (table fields) := by
  have hfields : ∀ f ∈ fields, Asks 0
      (do return (f.slot, ← f.cell.push) : Build (Nat × Reference)) :=
    fun f hf => (cell (h f hf)).bind fun _ => pure _
  exact (used.bind fun start => (mapM hfields).bind fun placed =>
    (align 4 (by decide : 4 ∣ 8)).bind fun _ => used.bind fun here =>
      tableEnd placed start (here + 4)).mono (by omega)

/-- The alignment that is asked for stays a divisor of eight, and never gets
less. -/
theorem keeps {x : Build α} (hx : Asks n x) (hb : b.alignment ∣ 8) :
    (x b).2.alignment ∣ 8 ∧ b.alignment ≤ (x b).2.alignment :=
  ⟨(hx b hb).1, (Nat.le_max_left ..).trans (hx b hb).2⟩

end Asks

/-- So it does over one step. -/
theorem Step.keeps (h : Step b b') (hb : b.alignment ∣ 8) :
    b'.alignment ∣ 8 ∧ b.alignment ≤ b'.alignment := by
  cases h with
  | vector items hsize => exact (Asks.vector items hsize).keeps hb
  | vectorOf targets => exact (Asks.vectorOf targets).keeps hb
  | string text => exact (Asks.string text).keeps hb
  | table hfields => exact (Asks.table hfields).keeps hb

/-- And over any number of them. -/
theorem Steps.keeps (h : Steps b b') (hb : b.alignment ∣ 8) :
    b'.alignment ∣ 8 ∧ b.alignment ≤ b'.alignment := by
  induction h with
  | refl => exact ⟨hb, Nat.le_refl _⟩
  | tail _ hstep ih =>
      obtain ⟨hmid, hle⟩ := ih
      obtain ⟨hlast, hle'⟩ := hstep.keeps hmid
      exact ⟨hlast, hle.trans hle'⟩

-- =================================================================== programs

/-- The construction goes by steps, from wherever it starts. -/
def Walks (build : Build α) : Prop := ∀ b, Steps b (build b).2

namespace Walks

theorem pure (a : α) : Walks (pure a : Build α) := fun _ => .refl

/-- Two walks make one. -/
theorem bind {x : Build α} {f : α → Build β} (hx : Walks x)
    (hf : ∀ a, Walks (f a)) : Walks (x >>= f) :=
  fun b => (hx b).trans (hf (x b).1 (x b).2)

/-- A step is a walk. -/
theorem step {x : Build α} (h : ∀ b, Step b (x b).2) : Walks x :=
  fun b => .single (h b)

/-- A walk for each item is one for the list. -/
theorem mapM {f : α → Build β} (h : ∀ a, Walks (f a)) (items : List α) :
    Walks (items.mapM f) := by
  induction items with
  | nil =>
      rw [List.mapM_nil]
      exact pure []
  | cons a items ih =>
      rw [List.mapM_cons]
      exact (h a).bind fun _ => ih.bind fun _ => pure _

/-- And for what may be absent. -/
theorem optional {f : α → Build β} (h : ∀ a, Walks (f a)) (a : Option α) :
    Walks (a.mapM f) := by
  cases a with
  | none => exact pure none
  | some a => exact (h a).bind fun _ => pure _

end Walks

theorem bind_apply (x : Build α) (f : α → Build β) (b : Builder) :
    (x >>= f) b = f (x b).1 (x b).2 := rfl

/-- What is finished right behind its root is finished. -/
theorem finished_of_walks (identifier : Bytes) {parts : Build α}
    {fields : α → List Field} (hparts : Walks parts)
    (hfields : ∀ a, ∀ f ∈ fields a, f.cell.size ∣ 8) :
    Finished identifier (Build.bytes do
      finish identifier (← table (fields (← parts)))) := by
  refine ⟨{}, (parts {}).2, fields (parts {}).1, _, ⟨rfl, rfl, rfl⟩,
    hparts {}, hfields _, .refl, ?_⟩
  unfold Build.bytes StateT.run
  rw [bind_apply, bind_apply]

-- ================================================================== finishing

/-- An offset is put right in front of what is aligned to its size. -/
theorem pushOffset_bytes (target : Reference) (h : 4 ∣ b.used) :
    (pushOffset target b).2.bytes
      = LittleEndian.encode 4 (b.used + 4 - target) ++ b.bytes := by
  have hpad : padding b.used 4 4 = 0 :=
    Builder.padding_eq_zero (Nat.dvd_add h (Nat.dvd_refl 4))
  have hzeros : List.replicate (padding b.used 4 4) (0 : UInt8) = [] := by
    rw [hpad, List.replicate_zero]
  show LittleEndian.encode 4 ((List.replicate (padding b.used 4 4)
        (0 : UInt8)).length + b.used + 4 - target)
      ++ (List.replicate (padding ((List.replicate (padding b.used 4 4)
        (0 : UInt8)).length + b.used) 4 4) 0
      ++ (List.replicate (padding b.used 4 4) 0 ++ b.bytes)) = _
  rw [hzeros, List.length_nil, Nat.zero_add, hzeros, List.nil_append,
    List.nil_append]

/-- With an alignment of four, nothing comes between the identifier and the
offset to the root. -/
theorem finish_bytes {identifier : Bytes} (hlength : identifier.length = 4)
    (root : Reference) (h : 4 ∣ b.alignment) (hpos : 0 < b.alignment) :
    ∃ offset rest, offset.length = 4
      ∧ (finish identifier root b).2.bytes
        = offset ++ (identifier ++ rest) := by
  obtain ⟨mid, hmid⟩ : ∃ mid, mid = (do
      Build.align (4 + identifier.length) b.alignment
      Build.prepend identifier : Build Unit).run b := ⟨_, rfl⟩
  obtain ⟨zeros, hzeros⟩ : ∃ zeros, zeros = List.replicate
      (padding b.used (4 + identifier.length) b.alignment) (0 : UInt8) :=
    ⟨_, rfl⟩
  have hused : mid.2.used = identifier.length + (zeros.length + b.used) := by
    rw [hmid, hzeros]
    rfl
  have hbytes : mid.2.bytes = identifier ++ (zeros ++ b.bytes) := by
    rw [hmid, hzeros]
    rfl
  have hfour : 4 ∣ mid.2.used := by
    have hdvd := h.trans (Builder.padding_dvd b.used (4 + identifier.length)
      hpos)
    rw [hused, hzeros, List.length_replicate]
    omega
  refine ⟨LittleEndian.encode 4 (mid.2.used + 4 - root), zeros ++ b.bytes,
    LittleEndian.length_encode 4 _, ?_⟩
  rw [← hbytes, ← pushOffset_bytes root hfour, hmid]
  rfl

/-- A buffer that has been finished has its identifier behind the first four
bytes. -/
theorem Finished.exists_append {identifier bytes : Bytes}
    (hlength : identifier.length = 4) (h : Finished identifier bytes) :
    ∃ offset rest, offset.length = 4
      ∧ bytes = offset ++ (identifier ++ rest) := by
  obtain ⟨start, before, fields, b, hfresh, hbefore, hfields, hafter, rfl⟩ := h
  have hstart8 : start.alignment ∣ 8 := by
    rw [hfresh.alignment]
    exact Nat.one_dvd 8
  obtain ⟨hbefore8, -⟩ := hbefore.keeps hstart8
  obtain ⟨htable8, htable4⟩ := Asks.table hfields before hbefore8
  obtain ⟨hb8, hle⟩ := hafter.keeps htable8
  have hfour : 4 ≤ b.alignment := by omega
  refine finish_bytes hlength _ ?_ (by omega)
  have height : b.alignment ≤ 8 := Nat.le_of_dvd (by decide) hb8
  have hdivisors : ∀ a ≤ 8, a ∣ 8 → 4 ≤ a → 4 ∣ a := by decide
  exact hdivisors _ height hb8 hfour

end Build

end DetectorHeader.FlatBuffer
