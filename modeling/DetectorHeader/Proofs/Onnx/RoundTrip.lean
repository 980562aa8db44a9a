/-
A model that has been written is read back (`Model.decode_of_encode`).

Each message type is lawful, and spelled by the bytes that are written for it.
Its fields are spelled one by one, each in a message that has only that field,
and the message is the merge of these. How deeply messages may be nested is
told by the budget of the reader: each type says how much of it is needed.
-/
import DetectorHeader.Onnx.Decode
import DetectorHeader.Onnx.Encode
import DetectorHeader.Proofs.Protobuf.Message

namespace DetectorHeader.Onnx

open Protobuf

-- ================================================================ merging

/-- Of three values the last one that is there counts. -/
theorem latest_assoc {α : Type} (a b c : Option α) :
    latest (latest a b) c = latest a (latest b c) := by
  unfold latest
  rw [Option.or_assoc]

theorem none_latest {α : Type} (a : Option α) : latest none a = a := by
  unfold latest
  rw [Option.or_none]

theorem latest_none {α : Type} (a : Option α) : latest a none = a := by
  unfold latest
  rw [Option.none_or]

section

variable {M : Type} [Message M]

theorem none_joined (a : Option M) : joined none a = a := by
  cases a <;> rfl

theorem joined_none (a : Option M) : joined a none = a := by
  cases a <;> rfl

/-- Three messages are joined in either order of joining. -/
theorem joined_assoc [LawfulMessage M] (a b c : Option M) :
    joined (joined a b) c = joined a (joined b c) := by
  cases a with
  | none => rw [none_joined, none_joined]
  | some a =>
      cases b with
      | none => rw [none_joined, joined_none]
      | some b =>
          cases c with
          | none => rw [joined_none, joined_none]
          | some c => exact congrArg some (LawfulMessage.merge_assoc a b c)

end

instance : LawfulMessage Dimension where
  merge_assoc a b c := by simp only [Message.merge, latest_assoc]
  empty_merge a := by simp only [Message.merge, Message.empty, none_latest]
  merge_empty a := by simp only [Message.merge, Message.empty, latest_none]

instance : LawfulMessage Shape where
  merge_assoc a b c := by simp only [Message.merge, List.append_assoc]
  empty_merge a := by
    simp only [Message.merge, Message.empty, List.nil_append]
  merge_empty a := by
    simp only [Message.merge, Message.empty, List.append_nil]

instance : LawfulMessage TensorType where
  merge_assoc a b c := by
    simp only [Message.merge, latest_assoc, joined_assoc]
  empty_merge a := by
    simp only [Message.merge, Message.empty, none_latest, none_joined]
  merge_empty a := by
    simp only [Message.merge, Message.empty, latest_none, joined_none]

instance : LawfulMessage ValueType where
  merge_assoc a b c := by simp only [Message.merge, joined_assoc]
  empty_merge a := by simp only [Message.merge, Message.empty, none_joined]
  merge_empty a := by simp only [Message.merge, Message.empty, joined_none]

instance : LawfulMessage ValueInfo where
  merge_assoc a b c := by
    simp only [Message.merge, latest_assoc, joined_assoc]
  empty_merge a := by
    simp only [Message.merge, Message.empty, none_latest, none_joined]
  merge_empty a := by
    simp only [Message.merge, Message.empty, latest_none, joined_none]

instance : LawfulMessage Tensor where
  merge_assoc a b c := by
    simp only [Message.merge, latest_assoc, List.append_assoc]
  empty_merge a := by
    simp only [Message.merge, Message.empty, none_latest, List.nil_append]
  merge_empty a := by
    simp only [Message.merge, Message.empty, latest_none, List.append_nil]

instance : LawfulMessage Node where
  merge_assoc a b c := by
    simp only [Message.merge, latest_assoc, List.append_assoc]
  empty_merge a := by
    simp only [Message.merge, Message.empty, none_latest, List.nil_append]
  merge_empty a := by
    simp only [Message.merge, Message.empty, latest_none, List.append_nil]

instance : LawfulMessage Graph where
  merge_assoc a b c := by
    simp only [Message.merge, latest_assoc, List.append_assoc]
  empty_merge a := by
    simp only [Message.merge, Message.empty, none_latest, List.nil_append]
  merge_empty a := by
    simp only [Message.merge, Message.empty, latest_none, List.append_nil]

instance : LawfulMessage Model where
  merge_assoc a b c := by
    simp only [Message.merge, latest_assoc, joined_assoc]
  empty_merge a := by
    simp only [Message.merge, Message.empty, none_latest, none_joined]
  merge_empty a := by
    simp only [Message.merge, Message.empty, latest_none, joined_none]

-- =============================================================== spelling

/-- A dimension is spelled as it is written. -/
theorem Dimension.encode_spells (budget : Nat) (d : Dimension) :
    Spells Dimension.field budget d.encode d := by
  obtain ⟨extent⟩ := d
  cases extent with
  | none => exact Spells.empty
  | some extent =>
      cases extent with
      | value v =>
          exact record_spells Dimension.field budget 1
            (fun v => ⟨some (.value v)⟩) (by decide) rfl (int64_takes v)
      | symbol name =>
          exact text_spells Dimension.field budget 2
            (fun s => ⟨some (.symbol s)⟩) (by decide) rfl name

/-- A shape is, one level above its dimensions. -/
theorem Shape.encode_spells (budget : Nat) (s : Shape) :
    Spells Shape.field (budget + 1) s.encode s :=
  repeatedSubmessage_spells Shape.field budget 1
    (Dimension.encode_spells budget) (fun dims => { dims })
    (by decide) rfl rfl (fun _ _ => rfl) s.dims

/-- A tensor type is, one level above its shape. -/
theorem TensorType.encode_spells (budget : Nat) (t : TensorType) :
    Spells TensorType.field (budget + 2) t.encode t := by
  have helementType := optionalVarint_spells TensorType.field (budget + 2) 1
    int32_takes (fun v => { elementType := v }) (by decide) rfl rfl
    t.elementType
  have hshape := optionalSubmessage_spells TensorType.field (budget + 1) 2
    (Shape.encode_spells budget) (fun s => { shape := s })
    (by decide) rfl rfl t.shape
  unfold TensorType.encode
  simpa only [Message.merge, latest_none, none_joined] using
    helementType.append hshape

/-- A value type is, one level above. -/
theorem ValueType.encode_spells (budget : Nat) (t : ValueType) :
    Spells ValueType.field (budget + 3) t.encode t :=
  optionalSubmessage_spells ValueType.field (budget + 2) 1
    (TensorType.encode_spells budget) (fun t => { tensor := t })
    (by decide) rfl rfl t.tensor

/-- A graph value is, one level above. -/
theorem ValueInfo.encode_spells (budget : Nat) (v : ValueInfo) :
    Spells ValueInfo.field (budget + 4) v.encode v := by
  have hname := optionalText_spells ValueInfo.field (budget + 4) 1
    (fun s => { name := s }) (by decide) rfl rfl v.name
  have htype := optionalSubmessage_spells ValueInfo.field (budget + 3) 2
    (ValueType.encode_spells budget) (fun t => { type := t })
    (by decide) rfl rfl v.type
  unfold ValueInfo.encode
  simpa only [Message.merge, latest_none, none_joined] using
    hname.append htype

/-- A tensor has no messages in it. -/
theorem Tensor.encode_spells (budget : Nat) (t : Tensor) :
    Spells Tensor.field budget t.encode t := by
  have hdims := repeatedVarint_spells Tensor.field budget 1 int64_takes
    (fun vs => { dims := vs }) (by decide) rfl rfl (fun _ _ => rfl) t.dims
  have hdataType := optionalVarint_spells Tensor.field budget 2 int32_takes
    (fun v => { dataType := v }) (by decide) rfl rfl t.dataType
  have hfloatData := packed_spells Tensor.field budget 4
    binary32_takes (fun _ => List.cons_ne_nil _ _)
    (fun xs => { floatData := xs }) (by decide) rfl rfl t.floatData
  have hint32Data := packed_spells Tensor.field budget 5
    int32_takes (fun _ => varint_ne_nil _)
    (fun is => { int32Data := is }) (by decide) rfl rfl t.int32Data
  have hint64Data := packed_spells Tensor.field budget 7
    int64_takes (fun _ => varint_ne_nil _)
    (fun is => { int64Data := is }) (by decide) rfl rfl t.int64Data
  have hname := optionalText_spells Tensor.field budget 8
    (fun s => { name := s }) (by decide) rfl rfl t.name
  have hrawData := optionalBlob_spells Tensor.field budget 9
    (fun x => { rawData := x }) (by decide) rfl rfl t.rawData
  have hdoubleData := packed_spells Tensor.field budget 10
    binary64_takes (fun _ => List.cons_ne_nil _ _)
    (fun xs => { doubleData := xs }) (by decide) rfl rfl t.doubleData
  have huint64Data := packed_spells Tensor.field budget 11
    uint64_takes (fun _ => varint_ne_nil _)
    (fun ns => { uint64Data := ns }) (by decide) rfl rfl t.uint64Data
  unfold Tensor.encode
  simpa only [Message.merge, latest_none, none_latest, List.append_nil,
    List.nil_append] using (((((((hdims.append hdataType).append
      hfloatData).append hint32Data).append hint64Data).append hname).append
      hrawData).append hdoubleData).append huint64Data

/-- Nor has a node. -/
theorem Node.encode_spells (budget : Nat) (n : Node) :
    Spells Node.field budget n.encode n := by
  have hinput := repeatedText_spells Node.field budget 1
    (fun names => { input := names }) (by decide) rfl rfl (fun _ _ => rfl)
    n.input
  have houtput := repeatedText_spells Node.field budget 2
    (fun names => { output := names }) (by decide) rfl rfl (fun _ _ => rfl)
    n.output
  have hname := optionalText_spells Node.field budget 3
    (fun s => { name := s }) (by decide) rfl rfl n.name
  have hopType := optionalText_spells Node.field budget 4
    (fun s => { opType := s }) (by decide) rfl rfl n.opType
  have hdomain := optionalText_spells Node.field budget 7
    (fun s => { domain := s }) (by decide) rfl rfl n.domain
  unfold Node.encode
  simpa only [Message.merge, latest_none, none_latest, List.append_nil,
    List.nil_append] using (((hinput.append houtput).append hname).append
      hopType).append hdomain

/-- A graph is spelled one level above its values. -/
theorem Graph.encode_spells (budget : Nat) (g : Graph) :
    Spells Graph.field (budget + 5) g.encode g := by
  have hnode := repeatedSubmessage_spells Graph.field (budget + 4) 1
    (Node.encode_spells (budget + 4)) (fun ns => { node := ns })
    (by decide) rfl rfl (fun _ _ => rfl) g.node
  have hname := optionalText_spells Graph.field (budget + 5) 2
    (fun s => { name := s }) (by decide) rfl rfl g.name
  have hinitializer := repeatedSubmessage_spells Graph.field (budget + 4) 5
    (Tensor.encode_spells (budget + 4)) (fun ts => { initializer := ts })
    (by decide) rfl rfl (fun _ _ => rfl) g.initializer
  have hinput := repeatedSubmessage_spells Graph.field (budget + 4) 11
    (ValueInfo.encode_spells budget) (fun vs => { input := vs })
    (by decide) rfl rfl (fun _ _ => rfl) g.input
  have houtput := repeatedSubmessage_spells Graph.field (budget + 4) 12
    (ValueInfo.encode_spells budget) (fun vs => { output := vs })
    (by decide) rfl rfl (fun _ _ => rfl) g.output
  have hvalueInfo := repeatedSubmessage_spells Graph.field (budget + 4) 13
    (ValueInfo.encode_spells budget) (fun vs => { valueInfo := vs })
    (by decide) rfl rfl (fun _ _ => rfl) g.valueInfo
  unfold Graph.encode
  simpa only [Message.merge, latest_none, none_latest, List.append_nil,
    List.nil_append] using ((((hnode.append hname).append
      hinitializer).append hinput).append houtput).append hvalueInfo

/-- And a model one level above its graph. -/
theorem Model.encode_spells (budget : Nat) (m : Model) :
    Spells Model.field (budget + 6) m.encode m := by
  have hirVersion := optionalVarint_spells Model.field (budget + 6) 1
    int64_takes (fun v => { irVersion := v }) (by decide) rfl rfl m.irVersion
  have hproducerName := optionalText_spells Model.field (budget + 6) 2
    (fun s => { producerName := s }) (by decide) rfl rfl m.producerName
  have hproducerVersion := optionalText_spells Model.field (budget + 6) 3
    (fun s => { producerVersion := s }) (by decide) rfl rfl m.producerVersion
  have hmodelVersion := optionalVarint_spells Model.field (budget + 6) 5
    int64_takes (fun v => { modelVersion := v }) (by decide) rfl rfl
    m.modelVersion
  have hgraph := optionalSubmessage_spells Model.field (budget + 5) 7
    (Graph.encode_spells budget) (fun g => { graph := g })
    (by decide) rfl rfl m.graph
  unfold Model.encode
  simpa only [Message.merge, latest_none, none_latest, joined_none,
    none_joined] using (((hirVersion.append hproducerName).append
      hproducerVersion).append hmodelVersion).append hgraph

-- ============================================================ whole models

/-- A model is read back from its bytes, field for field and bit for bit. The
bytes are as many as a length can tell, which holds of all that are in a
memory. -/
theorem Model.decode_of_encode (m : Model)
    (h : m.encode.length < 0x10000000000000000) :
    Model.decode m.encode = .ok m :=
  decode_of_spells (m.encode_spells 94) h

/-- A model with a negative dimension, an empty name and two numbers that are
not equal to themselves. -/
def sampleModel : Model where
  irVersion := some 0
  graph := some {
    name := some ""
    initializer := [{
      dims := [-1, 3]
      dataType := some 1
      floatData := [⟨0x7FC00001⟩, ⟨0x80000000⟩]
      doubleData := [⟨0x7FF8000000000001⟩] }]
    output := [{
      name := some "y"
      type := some { tensor := some {
        elementType := some (-2)
        shape := some { dims := [
          { extent := some (.value (-1)) }, { extent := some (.symbol "n") },
          {}] } } } }] }

/-- A model with something in every field. -/
theorem sampleModel_reads_back :
    Model.decode sampleModel.encode = .ok sampleModel :=
  Model.decode_of_encode sampleModel (by decide +kernel)

end DetectorHeader.Onnx
