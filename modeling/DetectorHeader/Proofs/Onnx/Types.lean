/-
The types of messages as one family: for each of them its values, what these
are when empty and merged, and the table by which they are read. What is said
of `MessageType.decode` is said of every type at once, and of a whole model as
the case of one of them.
-/
import DetectorHeader.Proofs.Onnx.Grammar
import DetectorHeader.Proofs.Onnx.RoundTrip

namespace DetectorHeader.Onnx

open Protobuf

namespace MessageType

/-- The messages of a type. -/
def Value : MessageType → Type
  | .model => Model
  | .graph => Graph
  | .node => Node
  | .tensor => Tensor
  | .valueInfo => ValueInfo
  | .valueType => ValueType
  | .tensorType => TensorType
  | .shape => Shape
  | .dimension => Dimension

instance : (t : MessageType) → Message t.Value
  | .model => inferInstanceAs (Message Model)
  | .graph => inferInstanceAs (Message Graph)
  | .node => inferInstanceAs (Message Node)
  | .tensor => inferInstanceAs (Message Tensor)
  | .valueInfo => inferInstanceAs (Message ValueInfo)
  | .valueType => inferInstanceAs (Message ValueType)
  | .tensorType => inferInstanceAs (Message TensorType)
  | .shape => inferInstanceAs (Message Shape)
  | .dimension => inferInstanceAs (Message Dimension)

instance : (t : MessageType) → LawfulMessage t.Value
  | .model => inferInstanceAs (LawfulMessage Model)
  | .graph => inferInstanceAs (LawfulMessage Graph)
  | .node => inferInstanceAs (LawfulMessage Node)
  | .tensor => inferInstanceAs (LawfulMessage Tensor)
  | .valueInfo => inferInstanceAs (LawfulMessage ValueInfo)
  | .valueType => inferInstanceAs (LawfulMessage ValueType)
  | .tensorType => inferInstanceAs (LawfulMessage TensorType)
  | .shape => inferInstanceAs (LawfulMessage Shape)
  | .dimension => inferInstanceAs (LawfulMessage Dimension)

/-- The records of a message of a type. -/
def field : (t : MessageType) → Nat → Key → Reader t.Value
  | .model => Model.field
  | .graph => Graph.field
  | .node => Node.field
  | .tensor => Tensor.field
  | .valueInfo => ValueInfo.field
  | .valueType => ValueType.field
  | .tensorType => TensorType.field
  | .shape => Shape.field
  | .dimension => Dimension.field

/-- Reads a whole byte string as a message of a type. -/
def decode (t : MessageType) (bytes : Bytes) : Except Fault t.Value :=
  Protobuf.decode t.field bytes

example : MessageType.decode .model = Model.decode := rfl

/-- Each field of each message is read by the grammar. -/
theorem field_accepts (t : MessageType) (budget : Nat) (k : Key) :
    Accepts (t.field budget k) (Payload declared budget t k) := by
  cases t with
  | model => exact Model.field_accepts budget k
  | graph => exact Graph.field_accepts budget k
  | node => exact Node.field_accepts budget k
  | tensor => exact Tensor.field_accepts budget k
  | valueInfo => exact ValueInfo.field_accepts budget k
  | valueType => exact ValueType.field_accepts budget k
  | tensorType => exact TensorType.field_accepts budget k
  | shape => exact Shape.field_accepts budget k
  | dimension => exact Dimension.field_accepts budget k

end MessageType

end DetectorHeader.Onnx
