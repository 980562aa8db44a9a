/-
The parameters that a detection pipeline is compiled against, and their text
in the log.
-/
import DetectorHeader.Binary32.Shortest

namespace DetectorHeader

/-- The numbers that go into a header. -/
structure Params where
  inputHeight : Int64
  inputWidth : Int64
  scale : Binary32
  zeroPoint : Int64
  /-- Zero and negative numbers of classes are kept. -/
  classes : Int64
  detections : Int64
  deriving DecidableEq

/-- The parameters on one line, by name. -/
def Params.describe (p : Params) : String :=
  String.join [
    "ModelParams \x7b input_height: ", toString p.inputHeight.toInt,
    ", input_width: ", toString p.inputWidth.toInt,
    ", quantization_scale: ", p.scale.display,
    ", quantization_zero_point: ", toString p.zeroPoint.toInt,
    ", num_classes: ", toString p.classes.toInt,
    ", num_detections: ", toString p.detections.toInt, " \x7d"]

end DetectorHeader
