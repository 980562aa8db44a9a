/-
The header: include guard, and three groups of macros for the input size, the
quantization of the output and the layout of the detections. Each group, and
the end of the guard, has a blank line before it.

The scale is written as the shortest decimal that reads back, positionally
and with a point, and so is a `float` literal of C with the value it had in
the model. A scale that is not finite has no literal, and then there is no
header.
-/
import DetectorHeader.Recorded
import DetectorHeader.Storage

namespace DetectorHeader

/-- The C literal of a number. -/
def Binary32.literal (x : Binary32) : Except Error (List Char) :=
  if x.isFinite then .ok (x.signText ++ x.shortest.positional ++ ['f'])
  else .error (.unsupported (.literal (String.ofList x.specialName)))

namespace Header

/-- The digits of an integer, after a sign if it is negative. -/
def integer (i : Int64) : List Char := (toString i.toInt).toList

/-- A macro and its body. -/
structure Definition where
  name : String
  body : List Char
  deriving DecidableEq

/-- The groups of macros for the given parameters, the scale being written
already. -/
def groups (p : Params) (scale : List Char) : List (List Definition) := [
  [⟨"MODEL_INPUT_HEIGHT", integer p.inputHeight⟩,
    ⟨"MODEL_INPUT_WIDTH", integer p.inputWidth⟩],
  [⟨"QUANTIZATION_SCALE", scale⟩,
    ⟨"QUANTIZATION_ZERO_POINT", integer p.zeroPoint⟩],
  [⟨"NUM_CLASSES", integer p.classes⟩,
    ⟨"NUM_DETECTIONS", integer p.detections⟩]]

/-- The macro that guards against a second inclusion. -/
def guardName : List Char := "MODEL_PARAMS_H".toList

/-- The line that defines a macro. -/
def Definition.line (d : Definition) : List Char :=
  "#define ".toList ++ d.name.toList ++ ' ' :: d.body

/-- The lines of a header. -/
def lines (groups : List (List Definition)) : List (List Char) :=
  ["#ifndef ".toList ++ guardName, "#define ".toList ++ guardName]
    ++ groups.flatMap (fun group => [] :: group.map Definition.line)
    ++ [[], "#endif // ".toList ++ guardName]

/-- The header for the given parameters. -/
def render (p : Params) : Except Error String := do
  let scale ← p.scale.literal
  return String.ofList ((lines (groups p scale)).flatMap (· ++ ['\n']))

/-- Where the header goes if nothing else is said. -/
def defaultPath : String := "model_params.h"

/-- Writes the header to a path, in place of what is there. It is rendered
before the file is touched. -/
def emit {m : Type → Type} [Monad m] (storage : Storage m) (path : String)
    (p : Params) : m (Recorded Unit) := do
  match render p with
  | .error e => return .fail e
  | .ok text =>
      let contents := Utf8.encode text
      match ← storage.write path contents with
      | .error fault => return .fail (.file fault)
      | .ok () => return .log (.written path contents.length)

end Header

end DetectorHeader
