/-
The two ways to store the elements of a constant, in raw data and in a list,
are read as the same numbers (`Metadata.ofBytes_of_restored`).

What is stored is said by itself (`Elements`), and so is what either storage
holds of it and what reading it gives. Tensors of one name that are read alike
can stand for each other: a lookup by name finds alike tensors at one place
(`constant?_alike`), and the quantization of a value depends on nothing else
of them.
-/
import DetectorHeader.Proofs.Onnx.Loader
import DetectorHeader.Proofs.Onnx.Recovery

namespace DetectorHeader.Onnx

open Protobuf Recorded

-- ================================================================= elements

/-- The elements of a constant, at least one, of a type that is read from raw
data. -/
inductive Elements
  | singles (values : List Binary32) (hvalues : values ≠ [])
  | doubles (values : List Binary64) (hvalues : values ≠ [])
  | integers {type : DataType} {size : Nat} {least : Int}
      (htype : RawInteger type size least) (values : List Int)
      (hvalues : values ≠ [])
      (hrange : ∀ z ∈ values, least ≤ z ∧ z < least + 256 ^ size)

namespace Elements

/-- The type of the elements. -/
def type : Elements → DataType
  | singles _ _ => .float32
  | doubles _ _ => .float64
  | @integers type _ _ _ _ _ _ => type

/-- The elements as raw data, least significant byte first, and a negative
integer by its residue. -/
def raw : Elements → Bytes
  | singles values _ => values.flatMap fun v =>
      LittleEndian.encode 4 v.bits.toNat
  | doubles values _ => values.flatMap fun v =>
      LittleEndian.encode 8 v.bits.toNat
  | @integers _ size _ _ values _ _ => values.flatMap fun z =>
      LittleEndian.encode size (z % 256 ^ size).toNat

/-- The tensor has the elements in the list for their type. -/
def Listed (t : Tensor) : Elements → Prop
  | singles values _ => t.floatData = values
  | doubles values _ => t.doubleData = values
  | integers _ values _ _ => t.int32Data.map Int32.toInt = values

/-- The tensor is read as these elements. -/
def ReadFrom (t : Tensor) : Elements → Prop
  | singles values _ => t.scales = .ok values
  | doubles values _ => t.scales = .ok (values.map .ofBinary64)
  | integers _ values _ _ => ∃ zs, zs.map Int64.toInt = values
      ∧ t.zeroPoints = .ok zs

end Elements

namespace Tensor

/-- The elements are in the raw data, whatever is in the lists. -/
structure InRaw (t : Tensor) (e : Elements) : Prop where
  type : t.type = e.type
  raw : t.rawData = some e.raw

/-- The elements are in the list for their type, and there is no raw data, or
it is empty. -/
structure InList (t : Tensor) (e : Elements) : Prop where
  type : t.type = e.type
  noRaw : t.rawData = none ∨ t.rawData = some []
  listed : e.Listed t

end Tensor

-- ================================================================== reading

/-- Numbers that are there take up some bytes. -/
theorem flatMap_encode_ne_nil {α : Type} {size : Nat} (hsize : 0 < size)
    {values : List α} (hvalues : values ≠ []) (number : α → Nat) :
    values.flatMap (fun v => LittleEndian.encode size (number v)) ≠ [] := by
  obtain ⟨v, rest, rfl⟩ := List.exists_cons_of_ne_nil hvalues
  rw [List.flatMap_cons]
  refine List.append_ne_nil_of_left_ne_nil ?_ _
  rw [← List.length_pos_iff, LittleEndian.length_encode]
  exact hsize

namespace RawInteger

variable {type : DataType} {size : Nat} {least : Int}
  (h : RawInteger type size least)

include h

theorem size_pos : 0 < size := by
  cases h <;> decide

/-- Every integer of the type fits into 32 bits, some only without a sign. -/
theorem range : -0x80000000 ≤ least ∧ least + 256 ^ size ≤ 0x80000000 := by
  cases h <;> decide

theorem isFloat_eq : type.isFloat = false := by
  cases h <;> rfl

/-- An integer that is read from raw data may be listed instead. -/
theorem mem_listed :
    type ∈ [.int4, .int8, .int16, .int32, .uint8, .uint16] := by
  cases h <;> decide

end RawInteger

/-- Elements make raw data that are not empty. -/
theorem Elements.raw_ne_nil (e : Elements) : e.raw ≠ [] := by
  cases e with
  | singles values hvalues =>
      exact flatMap_encode_ne_nil (by decide) hvalues _
  | doubles values hvalues =>
      exact flatMap_encode_ne_nil (by decide) hvalues _
  | integers htype values hvalues hrange =>
      exact flatMap_encode_ne_nil htype.size_pos hvalues _

/-- Raw data written number by number holds the numbers. -/
theorem holdsNumbers_flatMap {α : Type} {size : Nat} (hsize : 0 < size)
    {values : List α} {number : α → Nat}
    (h : ∀ v ∈ values, number v < 256 ^ size) :
    HoldsNumbers size
      (values.flatMap fun v => LittleEndian.encode size (number v))
      (values.map number) := by
  refine ⟨List.forall_mem_map.mpr h, [], hsize, ?_⟩
  rw [List.flatMap_map, List.append_nil]

/-- An integer of the type is represented by its residue. -/
theorem represents_residue {type : DataType} {size : Nat} {least z : Int}
    (htype : RawInteger type size least)
    (hz : least ≤ z ∧ z < least + 256 ^ size) :
    (Int64.ofInt z).toInt = z ∧ (z % 256 ^ size).toNat < 256 ^ size
      ∧ Represents size least (z % 256 ^ size).toNat (.ofInt z) := by
  obtain ⟨hlower, hupper⟩ := htype.range
  have hpow : (0 : Int) < 256 ^ size := by positivity
  have hnonneg := Int.emod_nonneg z hpow.ne'
  have htoInt : (Int64.ofInt z).toInt = z := by
    apply Int64.toInt_ofInt_of_le
    · omega
    · omega
  refine ⟨htoInt, ?_, ?_, ?_, ?_⟩
  · zify
    rw [Int.toNat_of_nonneg hnonneg]
    exact Int.emod_lt_of_pos z hpow
  · rw [htoInt]
    exact hz.1
  · rw [htoInt]
    exact hz.2
  · rw [htoInt, Int.toNat_of_nonneg hnonneg]

namespace Tensor

variable {t : Tensor} {e : Elements}

/-- Elements are read from their raw data. -/
theorem InRaw.readFrom (h : t.InRaw e) : e.ReadFrom t := by
  have htype := h.type
  have hraw : t.HasRaw e.raw := ⟨h.raw, e.raw_ne_nil⟩
  cases e with
  | singles values hvalues =>
      refine scales_eq_iff.mpr (.rawSingle htype hraw ?_)
      exact holdsNumbers_flatMap (by decide) fun v _ => v.bits.toNat_lt
  | doubles values hvalues =>
      refine scales_eq_iff.mpr (.rawDouble htype hraw ?_)
      exact holdsNumbers_flatMap (by decide) fun v _ => v.bits.toNat_lt
  | @integers type size least hinteger values hvalues hrange =>
      have hinteger : RawInteger t.type size least := htype ▸ hinteger
      have hvalue : ∀ z ∈ values, _ := fun z hz =>
        represents_residue hinteger (hrange z hz)
      refine ⟨values.map Int64.ofInt, ?_, zeroPoints_eq_iff.mpr ?_⟩
      · rw [List.map_map]
        exact (List.map_congr_left fun z hz => (hvalue z hz).1).trans
          (List.map_id _)
      · refine .raw hinteger hraw (holdsNumbers_flatMap hinteger.size_pos
          fun z hz => (hvalue z hz).2.1) ?_
        rw [List.forall₂_map_left_iff, List.forall₂_map_right_iff,
          List.forall₂_same]
        exact fun z hz => (hvalue z hz).2.2

/-- And from their list. -/
theorem InList.readFrom (h : t.InList e) : e.ReadFrom t := by
  have htype := h.type
  have hlisted := h.listed
  have hraw : t.NoRaw := by
    rintro raw ⟨hsome, hne⟩
    rcases h.noRaw with hnone | hempty
    · rw [hnone] at hsome
      cases hsome
    · rw [hempty] at hsome
      exact hne (Option.some.inj hsome).symm
  cases e with
  | singles values hvalues =>
      exact scales_eq_iff.mpr (hlisted ▸ .single htype hraw)
  | doubles values hvalues =>
      exact scales_eq_iff.mpr (hlisted ▸ .double htype hraw)
  | integers hinteger values hvalues hrange =>
      refine ⟨t.int32Data.map Int32.toInt64, ?_, ?_⟩
      · rw [← hlisted, List.map_map]
        exact List.map_congr_left fun i _ => Int32.toInt_toInt64 i
      · exact zeroPoints_of_noRaw hraw (htype ▸ hinteger.mem_listed)

-- =================================================================== tensors

/-- The second tensor has the name of the first one and is read as it is. -/
structure ReadAlike (t t' : Tensor) : Prop where
  name : t'.name = t.name
  scales : t'.scales = t.scales
  zeroPoints : t'.zeroPoints = t.zeroPoints

/-- The two store the same elements under one name, one of them in raw data
and the other in the list. -/
def Restored (t t' : Tensor) : Prop :=
  t'.name = t.name
    ∧ ∃ e, t.InRaw e ∧ t'.InList e ∨ t.InList e ∧ t'.InRaw e

/-- Scales that are no floats are reported. -/
theorem scales_of_not_isFloat (h : t.type.isFloat = false) :
    t.scales = .error (.invalidModel (.scaleType (t.name.getD "") t.type)) :=
  scales_eq_iff.mpr (.notFloat h)

/-- And zero points that are no integers. -/
theorem zeroPoints_of_not_isInteger (h : t.type.isInteger = false) :
    t.zeroPoints
      = .error (.invalidModel (.zeroPointType (t.name.getD "") t.type)) :=
  zeroPoints_eq_iff.mpr (.notInteger h)

/-- Tensors of the same elements are read alike, as the elements or, where
these are of the wrong kind, as the same fault. -/
theorem readAlike_of_readFrom {t' : Tensor} (hname : t'.name = t.name)
    (htype : t.type = e.type) (htype' : t'.type = e.type)
    (h : e.ReadFrom t) (h' : e.ReadFrom t') : t.ReadAlike t' := by
  have hsame : t'.type = t.type := htype'.trans htype.symm
  -- a fault of the wrong kind tells the name and the type, which are the same
  refine ⟨hname, ?_, ?_⟩
  · cases e with
    | singles | doubles => exact Eq.trans h' (Eq.symm h)
    | integers hinteger =>
        have hkind : t.type.isFloat = false := htype ▸ hinteger.isFloat_eq
        rw [scales_of_not_isFloat hkind,
          scales_of_not_isFloat (hsame ▸ hkind), hname, hsame]
  · cases e with
    | singles | doubles =>
        have hkind : t.type.isInteger = false := by
          rw [htype]
          rfl
        rw [zeroPoints_of_not_isInteger hkind,
          zeroPoints_of_not_isInteger (hsame ▸ hkind), hname, hsame]
    | integers hinteger =>
        obtain ⟨zs, hzs, hread⟩ := h
        obtain ⟨zs', hzs', hread'⟩ := h'
        rw [hread, hread', map_toInt_inj.mp (hzs'.trans hzs.symm)]

/-- A tensor is read alike from the one and from the other. -/
theorem Restored.readAlike {t t' : Tensor} (h : t.Restored t') :
    t.ReadAlike t' := by
  obtain ⟨hname, e, ⟨hraw, hlist⟩ | ⟨hlist, hraw⟩⟩ := h
  · exact readAlike_of_readFrom hname hraw.type hlist.type hraw.readFrom
      hlist.readFrom
  · exact readAlike_of_readFrom hname hlist.type hraw.type hlist.readFrom
      hraw.readFrom

end Tensor

-- =================================================================== graphs

/-- The second graph has the same inputs, outputs and operations, and the same
constants, but for how the elements of any of them are stored. -/
structure Graph.Restored (g g' : Graph) : Prop where
  node : g'.node = g.node
  initializer : List.Forall₂ (fun t t' => t' = t ∨ t.Restored t')
    g.initializer g'.initializer
  input : g'.input = g.input
  output : g'.output = g.output

/-- The second model says the same of itself, and has the graph of the first
one with the elements of constants stored in either way. -/
structure Model.Restored (m m' : Model) : Prop where
  modelVersion : m'.modelVersion = m.modelVersion
  producerName : m'.producerName = m.producerName
  producerVersion : m'.producerVersion = m.producerVersion
  graph : Option.Rel Graph.Restored m.graph m'.graph

/-- Searching related lists for what the relation respects finds related
items. -/
theorem find?_rel {α : Type} {R : α → α → Prop} {p : α → Bool} {l l' : List α}
    (h : List.Forall₂ R l l') (hp : ∀ a a', R a a' → p a' = p a) :
    Option.Rel R (l.find? p) (l'.find? p) := by
  induction h with
  | nil => exact .none
  | @cons a a' l l' ha _ ih =>
      rw [List.find?_cons, List.find?_cons, hp a a' ha]
      cases p a with
      | true => exact .some ha
      | false => exact ih

namespace Graph

variable {g g' : Graph}

/-- The constants of a name are read alike. -/
theorem constant?_alike (h : g.Restored g') (name : String) :
    Option.Rel Tensor.ReadAlike (g.constant? name) (g'.constant? name) := by
  unfold constant?
  by_cases hname : name = ""
  · rw [if_pos hname, if_pos hname]
    exact .none
  · rw [if_neg hname, if_neg hname]
    have halike : List.Forall₂ Tensor.ReadAlike g.initializer
        g'.initializer := by
      refine h.initializer.imp fun t t' ht => ?_
      rcases ht with rfl | ht
      · exact ⟨rfl, rfl, rfl⟩
      · exact ht.readAlike
    refine find?_rel (List.forall₂_reverse_iff.mpr halike) ?_
    intro t t' ht
    rw [ht.name]

/-- A parameter is missing in both, or it is read alike. -/
theorem parameter_alike (h : g.Restored g') (operation : String)
    (parameter : Parameter) (name output : String) :
    (∃ e, g.parameter operation parameter name output = .error e
        ∧ g'.parameter operation parameter name output = .error e)
      ∨ ∃ t t', g.parameter operation parameter name output = .ok t
        ∧ g'.parameter operation parameter name output = .ok t'
        ∧ t.ReadAlike t' := by
  unfold Graph.parameter
  have halike := constant?_alike h name
  generalize g.constant? name = found at halike
  generalize g'.constant? name = found' at halike
  cases halike with
  | none => exact .inl ⟨_, rfl, rfl⟩
  | some ht => exact .inr ⟨_, _, rfl, rfl, ht⟩

/-- So is the zero point of an operation, if it has one. -/
theorem zeroPoint?_alike (h : g.Restored g') (node : Node) (output : String) :
    (∃ e, g.zeroPoint? node output = .error e
        ∧ g'.zeroPoint? node output = .error e)
      ∨ ∃ z z', g.zeroPoint? node output = .ok z
        ∧ g'.zeroPoint? node output = .ok z'
        ∧ z'.elim (.ok [0]) Tensor.zeroPoints
          = z.elim (.ok [0]) Tensor.zeroPoints := by
  unfold zeroPoint?
  by_cases hname : node.inputName 2 = ""
  · rw [if_pos hname, if_pos hname]
    exact .inr ⟨none, none, rfl, rfl, rfl⟩
  · rw [if_neg hname, if_neg hname]
    rcases parameter_alike h (node.opType.getD "") .zeroPoint
      (node.inputName 2) output with ⟨e, he, he'⟩ | ⟨t, t', ht, ht', halike⟩
    · rw [he, he']
      exact .inl ⟨e, rfl, rfl⟩
    · rw [ht, ht']
      exact .inr ⟨some t, some t', rfl, rfl, halike.zeroPoints⟩

/-- A value gets its quantization from the operation that gives it, and from
what its constants are read as. -/
theorem quantization_of_restored (h : g.Restored g') (name : String) :
    g'.quantization name = g.quantization name := by
  have hproducer : g'.producer? name = g.producer? name := by
    unfold producer?
    rw [h.node]
  cases hnode : g.producer? name with
  | none =>
      unfold quantization
      rw [hproducer, hnode]
  | some node =>
      rw [hnode] at hproducer
      by_cases hquantizes : node.Quantizes
      · rw [quantization_of_quantizes hnode hquantizes,
          quantization_of_quantizes hproducer hquantizes]
        -- a constant that is missing ends both before anything is read
        rcases parameter_alike h (node.opType.getD "") .scale
          (node.inputName 1) name with ⟨e, he, he'⟩ | ⟨t, t', ht, ht', halike⟩
        · rw [he, he']
          rfl
        rw [ht, ht', ofExcept_ok, pure_bind, ofExcept_ok, pure_bind,
          halike.scales]
        rcases zeroPoint?_alike h node name with
          ⟨e, he, he'⟩ | ⟨z, z', hz, hz', helim⟩
        · rw [he, he']
        · rw [hz, hz', ofExcept_ok, pure_bind, ofExcept_ok, pure_bind, helim]
      · rw [quantization_of_other hnode hquantizes,
          quantization_of_other hproducer hquantizes]

/-- The same inputs are constants. -/
theorem isFed_of_restored (h : g.Restored g') : g'.isFed = g.isFed := by
  funext v
  unfold isFed
  have halike := constant?_alike h v.nameText
  generalize g.constant? v.nameText = found at halike
  generalize g'.constant? v.nameText = found' at halike
  cases halike with
  | none => rfl
  | some _ => rfl

end Graph

-- =================================================================== models

/-- So the models are loaded alike. -/
theorem Metadata.ofModel_of_restored {m m' : Model} (h : m.Restored m') :
    ofModel m' = ofModel m :=
  ofModel_congr h.modelVersion h.producerName h.producerVersion h.graph
    fun _ _ _ hrestored => ⟨hrestored.input, hrestored.output,
      Graph.isFed_of_restored hrestored,
      funext (Graph.quantization_of_restored hrestored)⟩

/-- Elements of a type that is read from raw data are read as they are, in
either storage. So models that differ only in how such elements are stored, of
any constants of the graph, are loaded as the same, with the same log, or are
not loaded for the same reason. -/
theorem Metadata.ofBytes_of_restored :
    (∀ (e : Elements) (t : Tensor), t.InRaw e ∨ t.InList e → e.ReadFrom t)
    ∧ ∀ {m m' : Model} {bytes bytes' : Bytes}, m.Restored m' →
      Model.decode bytes = .ok m → Model.decode bytes' = .ok m' →
      ofBytes bytes' = ofBytes bytes := by
  constructor
  · rintro e t (h | h)
    · exact h.readFrom
    · exact h.readFrom
  · intro m m' bytes bytes' h hm hm'
    unfold ofBytes
    rw [hm, hm']
    exact ofModel_of_restored h

/-- A half. -/
def halfElement : Elements := .singles [⟨0x3F000000⟩] (by decide)

/-- A negative zero point in two bytes. -/
def minusElement : Elements := .integers .int16 [-2] (by decide) (by decide)

/-- An output of single precision. -/
def scaledOutput : ValueInfo where
  name := some "y"
  type := some { tensor := some { elementType := some 1 } }

/-- A graph with these constants for scale and zero point of its output. -/
def scaledGraph (scale zeroPoint : Tensor) : Graph where
  node := [{
    input := ["q", "s", "z"]
    output := ["y"]
    opType := some "DequantizeLinear" }]
  initializer := [scale, zeroPoint]
  output := [scaledOutput]

/-- The model with this graph. -/
def scaledModel (scale zeroPoint : Tensor) : Model where
  graph := some (scaledGraph scale zeroPoint)

/-- The scale in raw data, beside a list that does not count. -/
def rawHalf : Tensor where
  dataType := some 1
  floatData := [⟨0x3F800000⟩, ⟨0x40000000⟩]
  name := some "s"
  rawData := some [0x00, 0x00, 0x00, 0x3f]

/-- The scale in the list, with empty raw data. -/
def listedHalf : Tensor where
  dataType := some 1
  floatData := [⟨0x3F000000⟩]
  name := some "s"
  rawData := some []

def rawMinus : Tensor where
  dataType := some 5
  name := some "z"
  rawData := some [0xfe, 0xff]

def listedMinus : Tensor where
  dataType := some 5
  int32Data := [-2]
  name := some "z"

theorem half_restored : rawHalf.Restored listedHalf :=
  ⟨rfl, halfElement, .inl ⟨⟨rfl, rfl⟩, rfl, .inr rfl, rfl⟩⟩

theorem minus_restored : listedMinus.Restored rawMinus :=
  ⟨rfl, minusElement, .inr ⟨⟨rfl, .inl rfl, rfl⟩, rfl, rfl⟩⟩

/-- Scale and zero point change places with their lists. -/
theorem scaledModel_restored :
    (scaledModel rawHalf listedMinus).Restored
      (scaledModel listedHalf rawMinus) where
  modelVersion := rfl
  producerName := rfl
  producerVersion := rfl
  graph := .some {
    node := rfl
    initializer := .cons (.inr half_restored) (.cons (.inr minus_restored) .nil)
    input := rfl
    output := rfl }

theorem Metadata.ofBytes_scaledModel_restored :
    (∃ zs, zs.map Int64.toInt = [-2] ∧ rawMinus.zeroPoints = .ok zs)
      ∧ ofBytes (scaledModel listedHalf rawMinus).encode
        = ofBytes (scaledModel rawHalf listedMinus).encode := by
  obtain ⟨helements, hmodels⟩ := ofBytes_of_restored
  exact ⟨helements minusElement rawMinus (.inl ⟨rfl, rfl⟩),
    hmodels scaledModel_restored
      (decode_of_spells (Model.encode_spells 94 _) (by decide +kernel))
      (decode_of_spells (Model.encode_spells 94 _) (by decide +kernel))⟩

end DetectorHeader.Onnx
