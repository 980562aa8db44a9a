/-
Telling the format of a model. The identifier in the bytes decides, whatever
the file is called; without it the extension does, in either case of its
letters.
-/
import DetectorHeader.Path
import DetectorHeader.Tflite.Schema

namespace DetectorHeader

/-- The formats that models come in. -/
inductive Format
  | tflite | onnx
  deriving DecidableEq

namespace Format

/-- The name of a format. -/
def name : Format → String
  | tflite => "tflite"
  | onnx => "onnx"

/-- The name of a format in the log. -/
def title : Format → String
  | tflite => "Tflite"
  | onnx => "Onnx"

/-- The format with the given name, in lower case. -/
def ofName? : List Char → Option Format
  | ['t', 'f', 'l', 'i', 't', 'e'] => some tflite
  | ['o', 'n', 'n', 'x'] => some onnx
  | _ => none

/-- The format of the model in `bytes` from the file at `path`. -/
def detect? (path : String) (bytes : List UInt8) : Option Format :=
  if Tflite.hasIdentifier bytes then some tflite
  else (Path.extension? path).bind fun e => ofName? (e.map Char.toLower)

end Format

end DetectorHeader
