/-
Messages written one after the other are read as their merge
(`MessageType.decode_append_iff`), wherever a byte string is cut between two
records.

What a merge is, is said here field by field and without the operation by
which messages are assembled: `LatestOf` for single values, `JoinOf` for
messages within, and lists one after the other. That operation gives the merge
(`MessageType.mergeOf_merge`), for each type by its fields.
-/
import DetectorHeader.Proofs.Onnx.Types
import DetectorHeader.Proofs.Protobuf.Assembly

namespace DetectorHeader.Onnx

open Protobuf

-- =============================================================== the rules

/-- A single value gives way to a later one. -/
inductive LatestOf {α : Type} : Option α → Option α → Option α → Prop
  | kept (earlier : Option α) : LatestOf earlier none earlier
  | replaced (earlier : Option α) (later : α) :
      LatestOf earlier (some later) (some later)

/-- Two messages within are merged, one alone is kept. -/
inductive JoinOf {M : Type} (mergeOf : M → M → M → Prop) :
    Option M → Option M → Option M → Prop
  | earlier (a : Option M) : JoinOf mergeOf a none a
  | later (b : Option M) : JoinOf mergeOf none b b
  | both {a b c : M} (h : mergeOf a b c) :
      JoinOf mergeOf (some a) (some b) (some c)

/-- Value and name of a dimension exclude each other: the later one counts. -/
@[mk_iff] structure Dimension.MergeOf (a b c : Dimension) : Prop where
  extent : LatestOf a.extent b.extent c.extent

@[mk_iff] structure Shape.MergeOf (a b c : Shape) : Prop where
  dims : c.dims = a.dims ++ b.dims

@[mk_iff] structure TensorType.MergeOf (a b c : TensorType) : Prop where
  elementType : LatestOf a.elementType b.elementType c.elementType
  shape : JoinOf Shape.MergeOf a.shape b.shape c.shape

/-- Of the kinds of values only tensors are read, and two of these merge. -/
@[mk_iff] structure ValueType.MergeOf (a b c : ValueType) : Prop where
  tensor : JoinOf TensorType.MergeOf a.tensor b.tensor c.tensor

@[mk_iff] structure ValueInfo.MergeOf (a b c : ValueInfo) : Prop where
  name : LatestOf a.name b.name c.name
  type : JoinOf ValueType.MergeOf a.type b.type c.type

@[mk_iff] structure Tensor.MergeOf (a b c : Tensor) : Prop where
  dims : c.dims = a.dims ++ b.dims
  dataType : LatestOf a.dataType b.dataType c.dataType
  floatData : c.floatData = a.floatData ++ b.floatData
  int32Data : c.int32Data = a.int32Data ++ b.int32Data
  int64Data : c.int64Data = a.int64Data ++ b.int64Data
  name : LatestOf a.name b.name c.name
  rawData : LatestOf a.rawData b.rawData c.rawData
  doubleData : c.doubleData = a.doubleData ++ b.doubleData
  uint64Data : c.uint64Data = a.uint64Data ++ b.uint64Data

@[mk_iff] structure Node.MergeOf (a b c : Node) : Prop where
  input : c.input = a.input ++ b.input
  output : c.output = a.output ++ b.output
  name : LatestOf a.name b.name c.name
  opType : LatestOf a.opType b.opType c.opType
  domain : LatestOf a.domain b.domain c.domain

@[mk_iff] structure Graph.MergeOf (a b c : Graph) : Prop where
  node : c.node = a.node ++ b.node
  name : LatestOf a.name b.name c.name
  initializer : c.initializer = a.initializer ++ b.initializer
  input : c.input = a.input ++ b.input
  output : c.output = a.output ++ b.output
  valueInfo : c.valueInfo = a.valueInfo ++ b.valueInfo

@[mk_iff] structure Model.MergeOf (a b c : Model) : Prop where
  irVersion : LatestOf a.irVersion b.irVersion c.irVersion
  producerName : LatestOf a.producerName b.producerName c.producerName
  producerVersion :
    LatestOf a.producerVersion b.producerVersion c.producerVersion
  modelVersion : LatestOf a.modelVersion b.modelVersion c.modelVersion
  graph : JoinOf Graph.MergeOf a.graph b.graph c.graph

/-- The third message is the merge of the two before it. -/
def MessageType.MergeOf : (t : MessageType) → t.Value → t.Value → t.Value →
    Prop
  | .model => Model.MergeOf
  | .graph => Graph.MergeOf
  | .node => Node.MergeOf
  | .tensor => Tensor.MergeOf
  | .valueInfo => ValueInfo.MergeOf
  | .valueType => ValueType.MergeOf
  | .tensorType => TensorType.MergeOf
  | .shape => Shape.MergeOf
  | .dimension => Dimension.MergeOf

-- =========================================================== the operation

/-- Of two values that may be absent the later one counts. -/
theorem latestOf_iff {α : Type} {a b c : Option α} :
    LatestOf a b c ↔ c = latest a b := by
  constructor
  · intro h
    cases h with
    | kept => rw [latest_none]
    | replaced => rfl
  · intro h
    subst h
    cases b with
    | none =>
        rw [latest_none]
        exact .kept a
    | some later => exact .replaced a later

/-- Of two messages that may be absent both count. -/
theorem joinOf_iff {M : Type} [Message M] {mergeOf : M → M → M → Prop}
    (hmerge : ∀ a b c, mergeOf a b c ↔ c = Message.merge a b)
    {a b c : Option M} : JoinOf mergeOf a b c ↔ c = joined a b := by
  constructor
  · intro h
    cases h with
    | earlier => rw [joined_none]
    | later => rw [none_joined]
    | both h => rw [(hmerge _ _ _).mp h]; rfl
  · intro h
    subst h
    cases a with
    | none =>
        rw [none_joined]
        exact .later b
    | some a =>
        cases b with
        | none => exact .earlier (some a)
        | some b => exact .both ((hmerge _ _ _).mpr rfl)

theorem Dimension.mergeOf_merge (a b c : Dimension) :
    Dimension.MergeOf a b c ↔ c = Message.merge a b := by
  obtain ⟨extent⟩ := c
  simp only [Dimension.mergeOf_iff, latestOf_iff, Message.merge,
    Dimension.mk.injEq]

theorem Shape.mergeOf_merge (a b c : Shape) :
    Shape.MergeOf a b c ↔ c = Message.merge a b := by
  obtain ⟨dims⟩ := c
  simp only [Shape.mergeOf_iff, Message.merge, Shape.mk.injEq]

theorem TensorType.mergeOf_merge (a b c : TensorType) :
    TensorType.MergeOf a b c ↔ c = Message.merge a b := by
  cases c
  simp only [TensorType.mergeOf_iff, latestOf_iff,
    joinOf_iff Shape.mergeOf_merge, Message.merge, TensorType.mk.injEq]

theorem ValueType.mergeOf_merge (a b c : ValueType) :
    ValueType.MergeOf a b c ↔ c = Message.merge a b := by
  cases c
  simp only [ValueType.mergeOf_iff, joinOf_iff TensorType.mergeOf_merge,
    Message.merge, ValueType.mk.injEq]

theorem ValueInfo.mergeOf_merge (a b c : ValueInfo) :
    ValueInfo.MergeOf a b c ↔ c = Message.merge a b := by
  cases c
  simp only [ValueInfo.mergeOf_iff, latestOf_iff,
    joinOf_iff ValueType.mergeOf_merge, Message.merge, ValueInfo.mk.injEq]

theorem Tensor.mergeOf_merge (a b c : Tensor) :
    Tensor.MergeOf a b c ↔ c = Message.merge a b := by
  cases c
  simp only [Tensor.mergeOf_iff, latestOf_iff, Message.merge,
    Tensor.mk.injEq]

theorem Node.mergeOf_merge (a b c : Node) :
    Node.MergeOf a b c ↔ c = Message.merge a b := by
  cases c
  simp only [Node.mergeOf_iff, latestOf_iff, Message.merge, Node.mk.injEq]

theorem Graph.mergeOf_merge (a b c : Graph) :
    Graph.MergeOf a b c ↔ c = Message.merge a b := by
  cases c
  simp only [Graph.mergeOf_iff, latestOf_iff, Message.merge, Graph.mk.injEq]

theorem Model.mergeOf_merge (a b c : Model) :
    Model.MergeOf a b c ↔ c = Message.merge a b := by
  cases c
  simp only [Model.mergeOf_iff, latestOf_iff,
    joinOf_iff Graph.mergeOf_merge, Message.merge, Model.mk.injEq]

/-- The merge of every message is the one that is told field by field. -/
theorem MessageType.mergeOf_merge (t : MessageType) (a b c : t.Value) :
    t.MergeOf a b c ↔ c = Message.merge a b := by
  cases t with
  | model => exact Model.mergeOf_merge a b c
  | graph => exact Graph.mergeOf_merge a b c
  | node => exact Node.mergeOf_merge a b c
  | tensor => exact Tensor.mergeOf_merge a b c
  | valueInfo => exact ValueInfo.mergeOf_merge a b c
  | valueType => exact ValueType.mergeOf_merge a b c
  | tensorType => exact TensorType.mergeOf_merge a b c
  | shape => exact Shape.mergeOf_merge a b c
  | dimension => exact Dimension.mergeOf_merge a b c

-- ============================================================ concatenation

/-- Behind the bytes of a message others are read just when they are read
alone, and what is read is the merge of the two messages. -/
theorem MessageType.decode_append_iff (t : MessageType) {a : Bytes}
    {m : t.Value} (ha : t.decode a = .ok m) (b : Bytes) :
    ((∃ n, t.decode (a ++ b) = .ok n) ↔ ∃ m', t.decode b = .ok m')
      ∧ ∀ n, t.decode (a ++ b) = .ok n
        ↔ ∃ m', t.decode b = .ok m' ∧ t.MergeOf m m' n := by
  have happend : t.decode (a ++ b) = (t.decode b).map (Message.merge m) :=
    decode_append (t.field_accepts recursionBudget) ha b
  rw [happend]
  cases t.decode b with
  | error fault => simp [Except.map]
  | ok m' =>
      refine ⟨iff_of_true ⟨_, rfl⟩ ⟨_, rfl⟩, fun n => ?_⟩
      show Except.ok (Message.merge m m') = Except.ok n ↔ _
      simp only [Except.ok.injEq, exists_eq_left', t.mergeOf_merge]
      exact eq_comm

/-- The graph of `splitModel` up to its name. -/
def splitModelStart : Model where
  irVersion := some 7
  graph := some {
    node := [{ output := ["y"] }]
    name := some "draft" }

/-- The rest of the graph of `splitModel`, and a later version. -/
def splitModelEnd : Model where
  irVersion := some 8
  graph := some {
    node := [{ input := ["y"] }]
    name := some "graph"
    output := [{ name := some "y" }] }

/-- A model whose graph comes in two records. -/
def splitModel : Model where
  irVersion := some 8
  graph := some {
    node := [{ output := ["y"] }, { input := ["y"] }]
    name := some "graph"
    output := [{ name := some "y" }] }

/-- A model in two parts, each of which has a part of the graph. -/
theorem splitModel_decode_append :
    MessageType.decode .model splitModelStart.encode = .ok splitModelStart
      ∧ ((∃ n, MessageType.decode .model
          (splitModelStart.encode ++ splitModelEnd.encode) = .ok n)
        ↔ ∃ m', MessageType.decode .model splitModelEnd.encode = .ok m')
      ∧ MessageType.decode .model
          (splitModelStart.encode ++ splitModelEnd.encode)
        = .ok splitModel := by
  have hstart : MessageType.decode .model splitModelStart.encode
      = .ok splitModelStart :=
    decode_of_spells (splitModelStart.encode_spells 94) (by decide +kernel)
  have hend : MessageType.decode .model splitModelEnd.encode
      = .ok splitModelEnd :=
    decode_of_spells (splitModelEnd.encode_spells 94) (by decide +kernel)
  obtain ⟨hiff, hmerge⟩ :=
    MessageType.decode_append_iff .model hstart splitModelEnd.encode
  refine ⟨hstart, hiff, (hmerge splitModel).mpr ⟨splitModelEnd, hend, ?_⟩⟩
  exact {
    irVersion := .replaced _ 8
    producerName := .kept none
    producerVersion := .kept none
    modelVersion := .kept none
    graph := .both {
      node := rfl
      name := .replaced _ "graph"
      initializer := rfl
      input := rfl
      output := rfl
      valueInfo := rfl } }

end DetectorHeader.Onnx
