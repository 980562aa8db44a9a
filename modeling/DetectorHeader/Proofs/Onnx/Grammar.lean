/-
A model is read from exactly the bytes that its grammar allows
(`Model.decode_iff_records`).

The grammar of messages is that of `Protobuf.Records`, at the declarations of
the fields of the message types (`declared`). Each table of readers is matched
with the declarations of its type, those of the messages within first; field
by field the two agree by definition.
-/
import DetectorHeader.Onnx.Decode
import DetectorHeader.Proofs.Protobuf.Accepts

namespace DetectorHeader.Onnx

open Protobuf

-- ============================================================ declarations

/-- The types of messages in a model. -/
inductive MessageType
  | model
  | graph
  | node
  | tensor
  | valueInfo
  | valueType
  | tensorType
  | shape
  | dimension
  deriving DecidableEq

/-- The declared fields of the message types. -/
def declared : Schema MessageType
  | .model, 1 | .model, 5 => some .varint
  | .model, 2 | .model, 3 => some .text
  | .model, 7 => some (.message .graph)
  | .graph, 1 => some (.message .node)
  | .graph, 2 => some .text
  | .graph, 5 => some (.message .tensor)
  | .graph, 11 | .graph, 12 | .graph, 13 => some (.message .valueInfo)
  | .node, 1 | .node, 2 | .node, 3 | .node, 4 | .node, 7 => some .text
  | .tensor, 1 | .tensor, 5 | .tensor, 7 | .tensor, 11 =>
      some (.numbers .varint)
  | .tensor, 2 => some .varint
  | .tensor, 4 => some (.numbers .fixed32)
  | .tensor, 8 => some .text
  | .tensor, 9 => some .bytes
  | .tensor, 10 => some (.numbers .fixed64)
  | .valueInfo, 1 => some .text
  | .valueInfo, 2 => some (.message .valueType)
  | .valueType, 1 => some (.message .tensorType)
  | .tensorType, 1 => some .varint
  | .tensorType, 2 => some (.message .shape)
  | .shape, 1 => some (.message .dimension)
  | .dimension, 1 => some .varint
  | .dimension, 2 => some .text
  | _, _ => none

-- ================================================================== tables

/-- Each field of a dimension is read by the grammar. -/
theorem Dimension.field_accepts (budget : Nat) :
    ∀ k, Accepts (Dimension.field budget k)
      (Payload declared budget .dimension k)
  | ⟨1, _⟩ => varintField_accepts rfl int64_accepts
  | ⟨2, _⟩ => textField_accepts rfl
  | ⟨0, _⟩ | ⟨_ + 3, _⟩ => undeclaredField_accepts rfl

/-- Each field of a shape is. -/
theorem Shape.field_accepts (budget : Nat) :
    ∀ k, Accepts (Shape.field budget k) (Payload declared budget .shape k)
  | ⟨1, _⟩ => submessageField_accepts rfl Dimension.field_accepts
  | ⟨0, _⟩ | ⟨_ + 2, _⟩ => undeclaredField_accepts rfl

/-- Each field of a tensor type is. -/
theorem TensorType.field_accepts (budget : Nat) :
    ∀ k, Accepts (TensorType.field budget k)
      (Payload declared budget .tensorType k)
  | ⟨1, _⟩ => varintField_accepts rfl int32_accepts
  | ⟨2, _⟩ => submessageField_accepts rfl Shape.field_accepts
  | ⟨0, _⟩ | ⟨_ + 3, _⟩ => undeclaredField_accepts rfl

/-- Each field of a value type is. -/
theorem ValueType.field_accepts (budget : Nat) :
    ∀ k, Accepts (ValueType.field budget k)
      (Payload declared budget .valueType k)
  | ⟨1, _⟩ => submessageField_accepts rfl TensorType.field_accepts
  | ⟨0, _⟩ | ⟨_ + 2, _⟩ => undeclaredField_accepts rfl

/-- Each field of a graph value is. -/
theorem ValueInfo.field_accepts (budget : Nat) :
    ∀ k, Accepts (ValueInfo.field budget k)
      (Payload declared budget .valueInfo k)
  | ⟨1, _⟩ => textField_accepts rfl
  | ⟨2, _⟩ => submessageField_accepts rfl ValueType.field_accepts
  | ⟨0, _⟩ | ⟨_ + 3, _⟩ => undeclaredField_accepts rfl

/-- Each field of a tensor is. -/
theorem Tensor.field_accepts (budget : Nat) :
    ∀ k, Accepts (Tensor.field budget k) (Payload declared budget .tensor k)
  | ⟨1, _⟩ | ⟨7, _⟩ => numbersField_accepts rfl int64_accepts
  | ⟨2, _⟩ => varintField_accepts rfl int32_accepts
  | ⟨4, _⟩ => numbersField_accepts rfl binary32_accepts
  | ⟨5, _⟩ => numbersField_accepts rfl int32_accepts
  | ⟨8, _⟩ => textField_accepts rfl
  | ⟨9, _⟩ => bytesField_accepts rfl
  | ⟨10, _⟩ => numbersField_accepts rfl binary64_accepts
  | ⟨11, _⟩ => numbersField_accepts rfl uint64_accepts
  | ⟨0, _⟩ | ⟨3, _⟩ | ⟨6, _⟩ | ⟨_ + 12, _⟩ => undeclaredField_accepts rfl

theorem Node.field_accepts (budget : Nat) :
    ∀ k, Accepts (Node.field budget k) (Payload declared budget .node k)
  | ⟨1, _⟩ | ⟨2, _⟩ | ⟨3, _⟩ | ⟨4, _⟩ | ⟨7, _⟩ => textField_accepts rfl
  | ⟨0, _⟩ | ⟨5, _⟩ | ⟨6, _⟩ | ⟨_ + 8, _⟩ => undeclaredField_accepts rfl

theorem Graph.field_accepts (budget : Nat) :
    ∀ k, Accepts (Graph.field budget k) (Payload declared budget .graph k)
  | ⟨1, _⟩ => submessageField_accepts rfl Node.field_accepts
  | ⟨2, _⟩ => textField_accepts rfl
  | ⟨5, _⟩ => submessageField_accepts rfl Tensor.field_accepts
  | ⟨11, _⟩ | ⟨12, _⟩ | ⟨13, _⟩ =>
      submessageField_accepts rfl ValueInfo.field_accepts
  | ⟨0, _⟩ | ⟨3, _⟩ | ⟨4, _⟩ | ⟨6, _⟩ | ⟨7, _⟩ | ⟨8, _⟩ | ⟨9, _⟩ | ⟨10, _⟩
  | ⟨_ + 14, _⟩ => undeclaredField_accepts rfl

theorem Model.field_accepts (budget : Nat) :
    ∀ k, Accepts (Model.field budget k) (Payload declared budget .model k)
  | ⟨1, _⟩ | ⟨5, _⟩ => varintField_accepts rfl int64_accepts
  | ⟨2, _⟩ | ⟨3, _⟩ => textField_accepts rfl
  | ⟨7, _⟩ => submessageField_accepts rfl Graph.field_accepts
  | ⟨0, _⟩ | ⟨4, _⟩ | ⟨6, _⟩ | ⟨_ + 8, _⟩ => undeclaredField_accepts rfl

-- =================================================================== models

/-- The bytes of a model are exactly the runs of complete records of its
grammar. The key that ends a group is never that of a record, neither of a
message nor of another group. -/
theorem Model.decode_iff_records :
    (∀ bytes, (∃ m, Model.decode bytes = .ok m)
      ↔ Records declared recursionBudget .model bytes)
    ∧ (∀ budget t n x, ¬ Payload declared budget t ⟨n, .endGroup⟩ x)
    ∧ ∀ budget n x, ¬ Undeclared budget ⟨n, .endGroup⟩ x := by
  refine ⟨decode_accepts Model.field_accepts, ?_, ?_⟩
  · intro budget t n x h
    exact h.ne_endGroup rfl
  · intro budget n x h
    exact h.ne_endGroup rfl

/-- A group without contents, of a field that a model does not have. -/
example : Records declared recursionBudget .model [0x4b, 0x4c] := by
  have hstart : KeyOf [0x4b] ⟨9, .startGroup⟩ :=
    ⟨75, ⟨[], 0x4b, rfl, by simp, by decide, by decide, by simp, rfl⟩,
      by decide, by decide, rfl⟩
  have hend : KeyOf [0x4c] ⟨9, .endGroup⟩ :=
    ⟨76, ⟨[], 0x4c, rfl, by simp, by decide, by decide, by simp, rfl⟩,
      by decide, by decide, rfl⟩
  exact .cons hstart (.undeclared rfl (.group (.close hend))) .nil

end DetectorHeader.Onnx
