/-
Models of either format, and the source that reads them from files.
-/
import DetectorHeader.Derive
import DetectorHeader.Onnx.Metadata
import DetectorHeader.Storage
import DetectorHeader.Tflite.Metadata

namespace DetectorHeader

/-- What is known of a model that has been loaded. -/
inductive LoadedModel
  | tflite (metadata : Tflite.Metadata)
  | onnx (metadata : Onnx.Metadata)
  deriving DecidableEq

/-- The format of the model in `bytes` from the file at `path`. -/
def Format.detect (path : String) (bytes : Bytes) : Except Error Format :=
  match Format.detect? path bytes with
  | some format => .ok format
  | none => .error (.unsupported (.unknownFormat path))

namespace LoadedModel

/-- The format that the model was in. -/
def format : LoadedModel → Format
  | tflite _ => .tflite
  | onnx _ => .onnx

/-- The inputs or outputs of the model. -/
def slots : LoadedModel → Side → List Slot
  | tflite m, .input => m.inputs
  | tflite m, .output => m.outputs
  | onnx m, .input => m.inputs
  | onnx m, .output => m.outputs

/-- The input or output at an index. -/
def slot (m : LoadedModel) (side : Side) (index : Nat) : Except Error Slot :=
  side.pick (m.slots side) index

open Recorded

/-- Loads a model of a known format. -/
def ofBytes (format : Format) (bytes : Bytes) : Recorded LoadedModel :=
  match format with
  | .tflite => tflite <$> Tflite.Metadata.ofBytes bytes
  | .onnx => onnx <$> Onnx.Metadata.ofBytes bytes

/-- Loads the model in a file that has been read, of the format asked for or
else of the one that it looks like. -/
def ofContents (format : Option Format) (path : String)
    (contents : Except FileFault Bytes) : Recorded LoadedModel := do
  let bytes ← ofExcept (contents.mapError .file)
  let format ←
    match format with
    | some format => pure format
    | none => ofExcept (Format.detect path bytes)
  log (.load path format bytes.length)
  ofBytes format bytes

/-- The source of the models whose files have the given contents. -/
def source (format : Option Format)
    (contents : String → Except FileFault Bytes) :
    ModelSource LoadedModel where
  load path := ofContents format path (contents path)
  count m side := return (m.slots side).length
  slot m side index := ofExcept (m.slot side index)

end LoadedModel

end DetectorHeader
