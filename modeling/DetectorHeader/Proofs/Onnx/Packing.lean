/-
The ways in which the numbers of a constant can be written
(`NumericField.decode_mixed`).

A repeated number stands in packed records, of any number of elements, and in
records of one element, in any mixture and with other records of the tensor
between them (`Mixed`). Each record gives its chunk of the list to the field
and nothing to any other, so the list is put together in order, by induction
over the records (`Mixed.reads`).

Every tensor is written in one of these ways (`exists_mixed`). What surrounds
it in a model gives its own parts before and after it
(`Surroundings.decode_eq_ok`), however the tensor is written.
-/
import DetectorHeader.Proofs.Onnx.Order

namespace DetectorHeader.Onnx

open Protobuf

-- ================================================================== numbers

/-- The repeated numbers of a tensor. -/
inductive NumericField
  | dims
  | floatData
  | int32Data
  | int64Data
  | doubleData
  | uint64Data
  deriving DecidableEq

namespace NumericField

/-- The number of the field. -/
def number : NumericField → Nat
  | dims => 1
  | floatData => 4
  | int32Data => 5
  | int64Data => 7
  | doubleData => 10
  | uint64Data => 11

/-- The wire type of an element in a record of its own. -/
def wire : NumericField → WireType
  | dims | int32Data | int64Data | uint64Data => .varint
  | floatData => .fixed32
  | doubleData => .fixed64

/-- The elements of the field. -/
def Value : NumericField → Type
  | dims | int64Data => Int64
  | floatData => Binary32
  | int32Data => Int32
  | doubleData => Binary64
  | uint64Data => UInt64

/-- The list that a tensor has in the field. -/
def get : (f : NumericField) → Tensor → List f.Value
  | dims => Tensor.dims
  | floatData => Tensor.floatData
  | int32Data => Tensor.int32Data
  | int64Data => Tensor.int64Data
  | doubleData => Tensor.doubleData
  | uint64Data => Tensor.uint64Data

/-- The tensor that has a list in the field and nothing else. -/
def make : (f : NumericField) → List f.Value → Tensor
  | dims, values => { dims := values }
  | floatData, values => { floatData := values }
  | int32Data, values => { int32Data := values }
  | int64Data, values => { int64Data := values }
  | doubleData, values => { doubleData := values }
  | uint64Data, values => { uint64Data := values }

/-- The bytes spell an element. A varint, of any length, is a signed element
as far as its 32 or 64 bits tell: those above them are anything. -/
def Spells : (f : NumericField) → Bytes → f.Value → Prop
  | dims, x, v | int64Data, x, v =>
      ∃ n, Varint x n ∧ (n : Int) ≡ Int64.toInt v [ZMOD 2 ^ 64]
  | int32Data, x, v =>
      ∃ n, Varint x n ∧ (n : Int) ≡ Int32.toInt v [ZMOD 2 ^ 32]
  | uint64Data, x, v => Varint x (UInt64.toNat v)
  | floatData, x, v => x = LittleEndian.encode 4 (Binary32.bits v).toNat
  | doubleData, x, v => x = LittleEndian.encode 8 (Binary64.bits v).toNat

/-- The reader of an element. -/
def reader : (f : NumericField) → Reader f.Value
  | dims | int64Data => Reader.int64
  | floatData => Reader.binary32
  | int32Data => Reader.int32
  | doubleData => Reader.binary64
  | uint64Data => Reader.uint64

end NumericField

-- ================================================================= elements

/-- A signed integer is known by its residue. -/
theorem int64_of_modEq {n : Nat} {v : Int64}
    (h : (n : Int) ≡ v.toInt [ZMOD 2 ^ 64]) :
    v = (UInt64.ofNat n).toInt64 := by
  rw [UInt64.toInt64_ofNat']
  refine ((Int64.ofInt_eq_iff_bmod_eq_toInt n v).mpr ?_).symm
  rw [← Int.emod_bmod, Nat.cast_pow, Nat.cast_ofNat, h.eq]
  exact (Int.emod_bmod v.toInt (2 ^ 64)).trans v.toInt_bmod

/-- An integer of 32 bits is told by its residue. -/
theorem int32_of_modEq {n : Nat} {v : Int32}
    (h : (n : Int) ≡ v.toInt [ZMOD 2 ^ 32]) :
    v = (UInt32.ofNat n).toInt32 := by
  rw [UInt32.toInt32_ofNat']
  refine ((Int32.ofInt_eq_iff_bmod_eq_toInt n v).mpr ?_).symm
  rw [← Int.emod_bmod, Nat.cast_pow, Nat.cast_ofNat, h.eq]
  exact (Int.emod_bmod v.toInt (2 ^ 32)).trans v.toInt_bmod

/-- A varint has seven bits in each byte, and one in the last that there is
room for. -/
theorem varintIn_lt {room : Nat} {x : Bytes} {n : Nat}
    (h : VarintIn (room + 1) x n) : n < 2 ^ (7 * room + 1) := by
  induction room generalizing x n with
  | zero =>
      obtain ⟨b, ⟨-, -, hfull, rfl⟩ | ⟨y, m, -, -, hnone, -⟩⟩ :=
        varintIn_succ_iff.mp h
      · exact Nat.lt_succ_of_le (UInt8.le_iff_toNat_le.mp (hfull rfl))
      · exact (not_varintIn_zero y m hnone).elim
  | succ room ih =>
      have hpow : 2 ^ (7 * (room + 1) + 1) = 128 * 2 ^ (7 * room + 1) := by
        rw [show 7 * (room + 1) + 1 = 7 + (7 * room + 1) by omega,
          Nat.pow_add]
      rw [hpow]
      obtain ⟨b, ⟨-, hb, -, rfl⟩ | ⟨y, m, -, -, hy, rfl⟩⟩ :=
        varintIn_succ_iff.mp h
      · have hlow : b.toNat < 128 := UInt8.lt_iff_toNat_lt.mp hb
        have hpos : 0 < 2 ^ (7 * room + 1) := Nat.two_pow_pos _
        omega
      · have hhigh := ih hy
        omega

/-- Bytes of a fixed number are what their number is written as. -/
theorem encode_decode_of_length {size : Nat} {x : Bytes}
    (h : x.length = size) :
    LittleEndian.decode x < 256 ^ size
      ∧ x = LittleEndian.encode size (LittleEndian.decode x) := by
  subst h
  exact ⟨LittleEndian.decode_lt x, (LittleEndian.encode_decode x).symm⟩

namespace NumericField

/-- Single elements are told from packed ones. -/
theorem wire_ne_delimited (f : NumericField) : f.wire ≠ .delimited := by
  cases f <;> decide

/-- The reader of an element accepts the numbers of its wire type. -/
theorem reader_accepts (f : NumericField) :
    Accepts f.reader (Number f.wire) := by
  cases f with
  | dims | int64Data => exact int64_accepts
  | floatData => exact binary32_accepts
  | int32Data => exact int32_accepts
  | doubleData => exact binary64_accepts
  | uint64Data => exact uint64_accepts

/-- What spells an element is taken for it. -/
theorem Spells.taken {f : NumericField} {x : Bytes} {v : f.Value}
    (h : f.Spells x v) : Taken f.reader x v := by
  cases f with
  | dims | int64Data =>
      obtain ⟨n, hn, hresidue⟩ := h
      exact (varint_parses.map _).taken_iff.mpr
        ⟨n, hn, int64_of_modEq hresidue⟩
  | int32Data =>
      obtain ⟨n, hn, hresidue⟩ := h
      exact (varint_parses.map _).taken_iff.mpr
        ⟨n, hn, int32_of_modEq hresidue⟩
  | uint64Data =>
      exact (varint_parses.map _).taken_iff.mpr
        ⟨_, h, UInt64.ofNat_toNat.symm⟩
  | floatData =>
      obtain rfl := h
      refine ((take_parses 4).map _).taken_iff.mpr
        ⟨_, ⟨rfl, LittleEndian.length_encode 4 _⟩, ?_⟩
      rw [LittleEndian.decode_encode, Nat.mod_eq_of_lt (UInt32.toNat_lt _),
        UInt32.ofNat_toNat]
      rfl
  | doubleData =>
      obtain rfl := h
      refine ((take_parses 8).map _).taken_iff.mpr
        ⟨_, ⟨rfl, LittleEndian.length_encode 8 _⟩, ?_⟩
      rw [LittleEndian.decode_encode, Nat.mod_eq_of_lt (UInt64.toNat_lt _),
        UInt64.ofNat_toNat]
      rfl

/-- Any number of the wire type spells an element. -/
theorem exists_spells (f : NumericField) {x : Bytes} (h : Number f.wire x) :
    ∃ v, f.Spells x v := by
  cases f with
  | dims | int64Data =>
      obtain ⟨n, hn⟩ := h
      refine ⟨(UInt64.ofNat n).toInt64, n, hn, ?_⟩
      rw [UInt64.toInt64_ofNat', Int64.toInt_ofNat']
      exact Int.bmod_emod.symm
  | int32Data =>
      obtain ⟨n, hn⟩ := h
      refine ⟨(UInt32.ofNat n).toInt32, n, hn, ?_⟩
      rw [UInt32.toInt32_ofNat', Int32.toInt_ofNat']
      exact Int.bmod_emod.symm
  | uint64Data =>
      obtain ⟨n, hn⟩ := h
      refine ⟨UInt64.ofNat n, ?_⟩
      show Varint x (UInt64.ofNat n).toNat
      rwa [UInt64.toNat_ofNat_of_lt' (varintIn_lt hn)]
  | floatData =>
      obtain ⟨hlt, hx⟩ := encode_decode_of_length (show x.length = 4 from h)
      refine ⟨(⟨UInt32.ofNat (LittleEndian.decode x)⟩ : Binary32), ?_⟩
      show x = LittleEndian.encode 4 (UInt32.ofNat _).toNat
      rwa [UInt32.toNat_ofNat_of_lt' hlt]
  | doubleData =>
      obtain ⟨hlt, hx⟩ := encode_decode_of_length (show x.length = 8 from h)
      refine ⟨(⟨UInt64.ofNat (LittleEndian.decode x)⟩ : Binary64), ?_⟩
      show x = LittleEndian.encode 8 (UInt64.ofNat _).toNat
      rwa [UInt64.toNat_ofNat_of_lt' hlt]

-- =================================================================== chunks

section

variable {f : NumericField} {n : Nat} {y : Bytes}

/-- A packed record is taken for its elements. -/
theorem packed_taken {elements : List Bytes} {chunk : List f.Value}
    (helements : List.Forall₂ f.Spells elements chunk)
    (hsized : Sized elements.flatten y) :
    Taken (Reader.elements f.wire f.reader ⟨n, .delimited⟩) y chunk := by
  obtain ⟨hparses, hnumber⟩ := f.reader_accepts.parses
  have hne : ∀ x a, Taken f.reader x a → x ≠ [] :=
    fun x a h => ((hnumber x).mpr ⟨a, h⟩).ne_nil
  exact (delimited_parses hparses hne).taken_iff.mpr
    ⟨elements, helements.imp fun _ _ => Spells.taken, hsized⟩

/-- A single record is taken for its one element. -/
theorem unpacked_taken {v : f.Value} (h : f.Spells y v) :
    Taken (Reader.elements f.wire f.reader ⟨n, f.wire⟩) y [v] := by
  unfold Reader.elements
  rw [if_neg f.wire_ne_delimited, Reader.expecting, if_pos rfl]
  exact (f.reader_accepts.parses.1.map _).taken_iff.mpr ⟨v, h.taken, rfl⟩

end

/-- A record of the field gives its elements to the list. -/
theorem field_number (f : NumericField) : ∃ name, ∀ budget wire,
    Tensor.field budget ⟨f.number, wire⟩ = Reader.within name do
      return f.make (← Reader.elements f.wire f.reader ⟨f.number, wire⟩) := by
  cases f <;> exact ⟨_, fun _ _ => rfl⟩

theorem get_make (f : NumericField) (values : List f.Value) :
    f.get (f.make values) = values := by
  cases f <;> rfl

theorem get_empty (f : NumericField) : f.get Message.empty = [] := by
  cases f <;> rfl

theorem get_merge (f : NumericField) (a b : Tensor) :
    f.get (Message.merge a b) = f.get a ++ f.get b := by
  cases f <;> rfl

/-- What belongs to other places leaves the list empty. -/
theorem get_only_of_ne {f : NumericField} {p : Nat} (h : f.number ≠ p)
    (a : Tensor) : f.get (Parted.only p a) = [] := by
  cases f <;> exact if_neg h.symm

-- ================================================================= writings

/-- The records of a tensor in which the field is the list of these values: a
chunk of it is packed, or an element is on its own, or a record is of another
field. -/
inductive Mixed (f : NumericField) (budget : Nat) :
    List Record → List f.Value → Prop
  | nil : Mixed f budget [] []
  | packed {x y elements chunk records values}
      (hkey : KeyOf x ⟨f.number, .delimited⟩)
      (helements : List.Forall₂ f.Spells elements chunk)
      (hsized : Sized elements.flatten y)
      (hrest : Mixed f budget records values) :
      Mixed f budget (⟨⟨f.number, .delimited⟩, x ++ y⟩ :: records)
        (chunk ++ values)
  | unpacked {x y v records values} (hkey : KeyOf x ⟨f.number, f.wire⟩)
      (helement : f.Spells y v) (hrest : Mixed f budget records values) :
      Mixed f budget (⟨⟨f.number, f.wire⟩, x ++ y⟩ :: records) (v :: values)
  | other {r records values} (hfield : r.key.field ≠ f.number)
      (hrecord : r.IsOf declared budget .tensor)
      (hrest : Mixed f budget records values) :
      Mixed f budget (r :: records) values

/-- The number of the field is declared for it. -/
theorem declared_number (f : NumericField) :
    declared .tensor f.number = some (.numbers f.wire) := by
  cases f <;> rfl

/-- The records of any tensor are such a mixture, for each of the fields. -/
theorem exists_mixed (f : NumericField) {budget : Nat} {records : List Record}
    (h : ∀ r ∈ records, r.IsOf declared budget .tensor) :
    ∃ values, f.Mixed budget records values := by
  induction records with
  | nil => exact ⟨[], .nil⟩
  | cons r records ih =>
      obtain ⟨hr, hrest⟩ := List.forall_mem_cons.mp h
      obtain ⟨values, hvalues⟩ := ih hrest
      by_cases hfield : r.key.field = f.number
      · obtain ⟨⟨n, wire⟩, bytes⟩ := r
        obtain ⟨x, y, rfl, hkey, hpayload⟩ := hr
        obtain rfl : n = f.number := hfield
        have hcases := payload_iff.mp hpayload
        rw [f.declared_number] at hcases
        rcases hcases with ⟨rfl, hy⟩ | ⟨rfl, elements, helements, hsized⟩
        · obtain ⟨v, hv⟩ := f.exists_spells hy
          exact ⟨v :: values, .unpacked hkey hv hvalues⟩
        · obtain ⟨chunk, hchunk⟩ := exists_forall₂_iff.mpr fun x hx =>
            f.exists_spells (helements x hx)
          exact ⟨chunk ++ values, .packed hkey hchunk hsized hvalues⟩
      · exact ⟨values, .other hfield hr hvalues⟩

/-- What a record of another field gives leaves the list as it is. -/
theorem get_of_other {f : NumericField} {budget : Nat} {r : Record}
    {a : Tensor} (hfield : r.key.field ≠ f.number)
    (h : r.Gives Tensor.field budget a) : f.get a = [] := by
  obtain ⟨_, _, -, -, htaken⟩ := h
  have hliesIn := Tensor.field_liesIn htaken
  unfold MessageType.LiesIn Protobuf.LiesIn at hliesIn
  split at hliesIn
  case h_1 =>
    rw [hliesIn]
    exact f.get_empty
  case h_2 =>
    rw [← hliesIn]
    exact get_only_of_ne hfield.symm a

end NumericField

-- ================================================================== reading

/-- Records of a message make one. -/
theorem exists_assembled (t : MessageType) {budget : Nat}
    {records : List Record} (h : ∀ r ∈ records, r.IsOf declared budget t) :
    ∃ m, Assembled t.field budget (written records) m :=
  ⟨_, assembled_written fun r hr =>
    MessageType.tables.isOf_iff_gives.mp (h r hr)⟩

/-- A chunk of the list is read in front of the chunks behind it. -/
theorem chunk_reads {f : NumericField} {budget : Nat} {x y : Bytes}
    {wire : WireType} {chunk : List f.Value} {records : List Record}
    {t : Tensor} (hkey : KeyOf x ⟨f.number, wire⟩)
    (hchunk : Taken (Reader.elements f.wire f.reader ⟨f.number, wire⟩) y
      chunk)
    (hrest : Assembled Tensor.field budget (written records) t) :
    ∃ t', Assembled Tensor.field budget
        (written (⟨⟨f.number, wire⟩, x ++ y⟩ :: records)) t'
      ∧ f.get t' = chunk ++ f.get t := by
  obtain ⟨name, hfield⟩ := f.field_number
  have hgives : Record.Gives Tensor.field budget ⟨⟨f.number, wire⟩, x ++ y⟩
      (f.make chunk) := by
    refine ⟨x, y, rfl, hkey, ?_⟩
    rw [hfield]
    exact taken_within_iff.mpr ⟨chunk, rfl, hchunk⟩
  refine ⟨_, assembled_cons hgives hrest, ?_⟩
  rw [f.get_merge, f.get_make]

/-- Records are read as a tensor that has the list in the field. The induction
is on the records, each of which gives its own chunk. -/
theorem NumericField.Mixed.reads {f : NumericField} {budget : Nat}
    {records : List Record} {values : List f.Value}
    (h : f.Mixed budget records values) :
    ∃ t, Assembled Tensor.field budget (written records) t
      ∧ f.get t = values := by
  induction h with
  | nil => exact ⟨_, ⟨[], [], .nil, rfl, rfl⟩, f.get_empty⟩
  | packed hkey helements hsized _ ih =>
      obtain ⟨t, ht, rfl⟩ := ih
      exact chunk_reads hkey (packed_taken helements hsized) ht
  | unpacked hkey helement _ ih =>
      obtain ⟨t, ht, rfl⟩ := ih
      exact chunk_reads hkey (unpacked_taken helement) ht
  | @other r _ _ hother hrecord _ ih =>
      obtain ⟨t, ht, rfl⟩ := ih
      obtain ⟨a, ha⟩ : ∃ a : Tensor, r.Gives Tensor.field budget a :=
        MessageType.tables.isOf_iff_gives.mp hrecord
      refine ⟨_, assembled_cons ha ht, ?_⟩
      rw [f.get_merge, get_of_other hother ha, List.nil_append]

-- ============================================================= surroundings

/-- A record of the field that holds a payload. -/
def Holds (n : Nat) (payload : Bytes) (r : Record) : Prop :=
  ∃ x y, r = ⟨⟨n, .delimited⟩, x ++ y⟩ ∧ KeyOf x ⟨n, .delimited⟩
    ∧ Sized payload y

/-- What surrounds an initializer in a model: other records before and after
one of the graph, and in the graph before and after the initializer. -/
structure Surroundings where
  modelBefore : List Record
  modelAfter : List Record
  graphBefore : List Record
  graphAfter : List Record
  model_isOf : ∀ r ∈ modelBefore ++ modelAfter,
    r.IsOf declared recursionBudget .model
  graph_isOf : ∀ r ∈ graphBefore ++ graphAfter,
    r.IsOf declared (recursionBudget - 1) .graph

/-- The bytes of a model in which the payload is that of the initializer. -/
def Surroundings.Around (s : Surroundings) (payload bytes : Bytes) : Prop :=
  ∃ graph initializer, Holds 5 payload initializer
    ∧ Holds 7 (written (s.graphBefore ++ initializer :: s.graphAfter)) graph
    ∧ bytes = written (s.modelBefore ++ graph :: s.modelAfter)

/-- A record of a message within gives what its payload is read as, however
the key and the length are spelled. -/
theorem gives_of_holds (t type : MessageType) {n budget below : Nat}
    {name : FieldName} {payload : Bytes} {r : Record} {m : type.Value}
    (f : type.Value → t.Value)
    (htable : t.field budget ⟨n, .delimited⟩ = Reader.within name do
      return f (← Reader.submessage type.field budget ⟨n, .delimited⟩))
    (hbudget : budget = below + 1) (hholds : Holds n payload r)
    (hm : Assembled type.field below payload m) :
    r.Gives t.field budget (f m) := by
  subst hbudget
  obtain ⟨x, y, rfl, hkey, hsized⟩ := hholds
  refine ⟨x, y, rfl, hkey, ?_⟩
  rw [htable]
  exact taken_within_iff.mpr
    ⟨m, rfl, submessage_taken (type.field_accepts below) hsized hm⟩

/-- The records around one that is read are read around it. -/
theorem assembled_around {t : MessageType} {budget : Nat}
    {before after : List Record}
    (h : ∀ r ∈ before ++ after, r.IsOf declared budget t) :
    ∃ a b, ∀ r m, r.Gives t.field budget m →
      Assembled t.field budget (written (before ++ r :: after))
        (Message.merge a (Message.merge m b)) := by
  obtain ⟨hbefore, hafter⟩ := List.forall_mem_append.mp h
  obtain ⟨a, ha⟩ := exists_assembled t hbefore
  obtain ⟨b, hb⟩ := exists_assembled t hafter
  refine ⟨a, b, fun r m hr => ?_⟩
  unfold written
  rw [List.flatMap_append]
  exact assembled_append ha (assembled_cons hr hb)

/-- The initializers of a graph, if there is one. -/
def initializers (g : Option Graph) : List Tensor := g.elim [] (·.initializer)

/-- Graphs before and after another are merged around it. -/
theorem exists_joined (before after : Option Graph) (g : Graph) :
    ∃ g', joined before (joined (some g) after) = some g'
      ∧ g'.initializer
        = initializers before ++ (g.initializer ++ initializers after) := by
  cases before with
  | none =>
      cases after with
      | none => exact ⟨_, rfl, (List.append_nil _).symm⟩
      | some b => exact ⟨_, rfl, rfl⟩
  | some a =>
      cases after with
      | none =>
          refine ⟨_, rfl, ?_⟩
          rw [initializers, initializers, Option.elim_none, List.append_nil]
          rfl
      | some b => exact ⟨_, rfl, rfl⟩

/-- A model is read with a tensor for the initializer, and otherwise by what
is around it alone. -/
theorem Surroundings.decode_eq_ok (s : Surroundings) :
    ∃ earlier later, ∀ {payload bytes t}, s.Around payload bytes →
      Assembled Tensor.field (recursionBudget - 2) payload t →
      ∃ m g, Model.decode bytes = .ok m ∧ m.graph = some g
        ∧ g.initializer = earlier ++ t :: later := by
  obtain ⟨a, b, hgraph⟩ : ∃ a b : Graph, ∀ r (g : Graph), _ :=
    assembled_around s.graph_isOf
  obtain ⟨c, d, hmodel⟩ : ∃ c d : Model, ∀ r (m : Model), _ :=
    assembled_around s.model_isOf
  refine ⟨initializers c.graph ++ a.initializer,
    b.initializer ++ initializers d.graph, ?_⟩
  rintro payload bytes t ⟨graph, initializer, hinitializer, hholds, rfl⟩ ht
  have hinner := hgraph initializer { initializer := [t] } <|
    gives_of_holds .graph .tensor
      (fun t : Tensor => ({ initializer := [t] } : Graph)) rfl rfl
      hinitializer ht
  have houter := hmodel graph { graph := some _ } <|
    gives_of_holds .model .graph
      (fun g : Graph => ({ graph := some g } : Model)) rfl rfl hholds hinner
  -- other records of the model may hold graphs too, and all are merged
  obtain ⟨g, hg, hlist⟩ := exists_joined c.graph d.graph _
  have hdecode := (decode_eq_ok_iff (Model.field_accepts _)).mpr houter
  refine ⟨_, g, hdecode, hg, ?_⟩
  rw [hlist]
  show _ ++ (a.initializer ++ ([t] ++ b.initializer) ++ _) = _
  simp only [List.append_assoc, List.cons_append, List.nil_append]

/-- However the list of a field is cut into packed chunks and single elements,
and however these are spelled, it is read whole and in order: in a tensor on
its own, and in an initializer of a model, where the initializers before and
after it do not depend on how it is written. -/
theorem NumericField.decode_mixed (f : NumericField) :
    (∀ records values, f.Mixed recursionBudget records values →
      ∃ t, MessageType.decode .tensor (written records) = .ok t
        ∧ f.get t = values)
    ∧ ∀ s : Surroundings, ∃ earlier later, ∀ records values bytes,
      f.Mixed (recursionBudget - 2) records values →
      s.Around (written records) bytes →
      ∃ m g t, Model.decode bytes = .ok m ∧ m.graph = some g
        ∧ g.initializer = earlier ++ t :: later ∧ f.get t = values := by
  constructor
  · intro records values h
    obtain ⟨t, ht, hvalues⟩ := h.reads
    have hdecode := (decode_eq_ok_iff (Tensor.field_accepts _)).mpr ht
    exact ⟨t, hdecode, hvalues⟩
  · intro s
    obtain ⟨earlier, later, hmodel⟩ := s.decode_eq_ok
    refine ⟨earlier, later, fun records values bytes h haround => ?_⟩
    obtain ⟨t, ht, hvalues⟩ := h.reads
    obtain ⟨m, g, hdecode, hgraph, hlist⟩ := hmodel haround ht
    exact ⟨m, g, t, hdecode, hgraph, hlist, hvalues⟩

-- ============================================================== an example

/-- 1 and -1 in one record, the second with its sign in all ten bytes. -/
def pairRecord : Record :=
  ⟨⟨5, .delimited⟩, [0x2a] ++ (0x0b :: [[0x01],
    [0xff, 0xff, 0xff, 0xff, 0xff, 0xff, 0xff, 0xff, 0xff, 0x01]].flatten)⟩

/-- The name of the tensor. -/
def tensorNameRecord : Record := ⟨⟨8, .delimited⟩, [0x42, 0x01, 0x7a]⟩

/-- A packed record without elements. -/
def emptyRecord : Record :=
  ⟨⟨5, .delimited⟩, [0x2a] ++ (0x00 :: ([] : List Bytes).flatten)⟩

/-- 1 on its own, in one byte more than it needs. -/
def singleRecord : Record := ⟨⟨5, .varint⟩, [0x28] ++ [0x81, 0x00]⟩

/-- Four records, of which three hold 1, -1 and 1. -/
def mixedRecords : List Record :=
  [pairRecord, tensorNameRecord, emptyRecord, singleRecord]

/-- Two packed records, one of them empty, and a single one between. -/
theorem mixedRecords_mixed (budget : Nat) :
    NumericField.Mixed .int32Data budget mixedRecords
      ([1, -1, 1] : List Int32) := by
  have hpacked : KeyOf [0x2a] ⟨5, .delimited⟩ :=
    keyOf_byte (by decide) (by decide) rfl
  have hsingle : KeyOf [0x28] ⟨5, .varint⟩ :=
    keyOf_byte (by decide) (by decide) rfl
  have hname : tensorNameRecord.IsOf declared budget .tensor := by
    have htext : Sized (Utf8.encode "z") [0x01, 0x7a] :=
      sized_short (by decide) rfl
    exact ⟨[0x42], _, rfl, keyOf_byte (by decide) (by decide) rfl,
      .text rfl htext⟩
  have hone : NumericField.Spells .int32Data [0x01] (1 : Int32) :=
    ⟨1, varint_byte (by decide), rfl⟩
  have hminus : NumericField.Spells .int32Data
      [0xff, 0xff, 0xff, 0xff, 0xff, 0xff, 0xff, 0xff, 0xff, 0x01]
      (-1 : Int32) :=
    ⟨0xffffffffffffffff, ⟨List.replicate 9 0xff, 0x01, rfl, by simp,
      by decide, by decide, by decide, rfl⟩, rfl⟩
  have hlong : NumericField.Spells .int32Data [0x81, 0x00] (1 : Int32) :=
    ⟨1, ⟨[0x81], 0x00, rfl, by simp, by decide, by decide, by decide, rfl⟩,
      rfl⟩
  exact .packed hpacked (.cons hone (.cons hminus .nil))
    (sized_short (by decide) rfl)
    (.other (by decide) hname
      (.packed hpacked .nil (sized_short (by decide) rfl)
        (.unpacked hsingle hlong .nil)))

/-- The name of the graph. -/
def graphNameRecord : Record := ⟨⟨2, .delimited⟩, [0x12, 0x01, 0x67]⟩

theorem graphNameRecord_isOf (budget : Nat) :
    graphNameRecord.IsOf declared budget .graph := by
  have htext : Sized (Utf8.encode "g") [0x01, 0x67] :=
    sized_short (by decide) rfl
  exact ⟨[0x12], _, rfl, keyOf_byte (by decide) (by decide) rfl,
    .text rfl htext⟩

/-- A graph that has a name behind its one initializer. -/
def namedGraph : Surroundings where
  modelBefore := []
  modelAfter := []
  graphBefore := []
  graphAfter := [graphNameRecord]
  model_isOf := fun _ h => nomatch h
  graph_isOf := fun _ h => List.mem_singleton.mp h ▸ graphNameRecord_isOf _

/-- The initializer with the three numbers. -/
def mixedInitializer : Record :=
  ⟨⟨5, .delimited⟩, [0x2a] ++ (0x15 :: written mixedRecords)⟩

/-- The graph around it. -/
def mixedGraph : Record :=
  ⟨⟨7, .delimited⟩,
    [0x3a] ++ (0x1a :: written [mixedInitializer, graphNameRecord])⟩

/-- A graph with a name, and the tensor in it. -/
theorem namedGraph_around :
    namedGraph.Around (written mixedRecords) (written [mixedGraph]) := by
  have hinitializer : KeyOf [0x2a] ⟨5, .delimited⟩ :=
    keyOf_byte (by decide) (by decide) rfl
  have hgraph : KeyOf [0x3a] ⟨7, .delimited⟩ :=
    keyOf_byte (by decide) (by decide) rfl
  exact ⟨mixedGraph, mixedInitializer,
    ⟨_, _, rfl, hinitializer, sized_short (by decide) rfl⟩,
    ⟨_, _, rfl, hgraph, sized_short (by decide) rfl⟩, rfl⟩

theorem NumericField.int32Data_decode_mixed :
    NumericField.Mixed .int32Data recursionBudget mixedRecords
        ([1, -1, 1] : List Int32)
      ∧ NumericField.Mixed .int32Data (recursionBudget - 2) mixedRecords
        ([1, -1, 1] : List Int32)
      ∧ namedGraph.Around (written mixedRecords) (written [mixedGraph])
      ∧ (∃ t : Tensor,
        MessageType.decode .tensor (written mixedRecords) = .ok t
          ∧ t.int32Data = [1, -1, 1])
      ∧ ∃ m g, ∃ t : Tensor, Model.decode (written [mixedGraph]) = .ok m
        ∧ m.graph = some g ∧ t ∈ g.initializer
        ∧ t.int32Data = [1, -1, 1] := by
  have hmixed := mixedRecords_mixed
  obtain ⟨htensor, hmodel⟩ := NumericField.decode_mixed .int32Data
  obtain ⟨earlier, later, hmodel⟩ := hmodel namedGraph
  obtain ⟨m, g, t, hdecode, hgraph, hlist, hvalues⟩ :=
    hmodel _ _ _ (hmixed _) namedGraph_around
  have hmem : t ∈ g.initializer := by
    rw [hlist]
    exact List.mem_append_right earlier List.mem_cons_self
  exact ⟨hmixed _, hmixed _, namedGraph_around, htensor _ _ (hmixed _),
    m, g, t, hdecode, hgraph, hmem, hvalues⟩

end DetectorHeader.Onnx
