import DetectorHeader.Binary32.Basic
import DetectorHeader.Binary32.Round
import DetectorHeader.Binary32.Shortest
import DetectorHeader.Bytes
import DetectorHeader.CommandLine
import DetectorHeader.DataType
import DetectorHeader.Decimal
import DetectorHeader.Derive
import DetectorHeader.Error
import DetectorHeader.Event
import DetectorHeader.FileTree
import DetectorHeader.FlatBuffer.Buffer
import DetectorHeader.FlatBuffer.Build
import DetectorHeader.FlatBuffer.Fault
import DetectorHeader.FlatBuffer.Read
import DetectorHeader.FlatBuffer.Verify
import DetectorHeader.Format
import DetectorHeader.Header
import DetectorHeader.LoadedModel
import DetectorHeader.Main
import DetectorHeader.Onnx.Constant
import DetectorHeader.Onnx.Decode
import DetectorHeader.Onnx.Encode
import DetectorHeader.Onnx.Metadata
import DetectorHeader.Onnx.Schema
import DetectorHeader.Params
import DetectorHeader.Path
import DetectorHeader.Program
import DetectorHeader.Proofs.Arguments
import DetectorHeader.Proofs.Binary32.Fewest
import DetectorHeader.Proofs.Binary32.Nearest
import DetectorHeader.Proofs.Binary32.Shortest
import DetectorHeader.Proofs.CommandLine
import DetectorHeader.Proofs.CrossFormat
import DetectorHeader.Proofs.DataType
import DetectorHeader.Proofs.Demands
import DetectorHeader.Proofs.Derive
import DetectorHeader.Proofs.Detection
import DetectorHeader.Proofs.ExtraOutput
import DetectorHeader.Proofs.FileName
import DetectorHeader.Proofs.FileTree
import DetectorHeader.Proofs.FlatBuffer.Access
import DetectorHeader.Proofs.FlatBuffer.Buffer
import DetectorHeader.Proofs.FlatBuffer.Build
import DetectorHeader.Proofs.FlatBuffer.Course
import DetectorHeader.Proofs.FlatBuffer.Extension
import DetectorHeader.Proofs.FlatBuffer.Places
import DetectorHeader.Proofs.FlatBuffer.Sound
import DetectorHeader.Proofs.FlatBuffer.Spelling
import DetectorHeader.Proofs.FlatBuffer.Steps
import DetectorHeader.Proofs.FlatBuffer.Verify
import DetectorHeader.Proofs.FlatBuffer.Vtable
import DetectorHeader.Proofs.FlatBuffer.Written
import DetectorHeader.Proofs.Header
import DetectorHeader.Proofs.Listed
import DetectorHeader.Proofs.Literal
import DetectorHeader.Proofs.Onnx.Elements
import DetectorHeader.Proofs.Onnx.Front
import DetectorHeader.Proofs.Onnx.Grammar
import DetectorHeader.Proofs.Onnx.GraphOrder
import DetectorHeader.Proofs.Onnx.Loader
import DetectorHeader.Proofs.Onnx.Merge
import DetectorHeader.Proofs.Onnx.Order
import DetectorHeader.Proofs.Onnx.Packing
import DetectorHeader.Proofs.Onnx.Quantization
import DetectorHeader.Proofs.Onnx.Recovery
import DetectorHeader.Proofs.Onnx.RoundTrip
import DetectorHeader.Proofs.Onnx.Storage
import DetectorHeader.Proofs.Onnx.WholeElements
import DetectorHeader.Proofs.Parameters
import DetectorHeader.Proofs.PerChannel
import DetectorHeader.Proofs.Program
import DetectorHeader.Proofs.Protobuf.Accepts
import DetectorHeader.Proofs.Protobuf.Grammar
import DetectorHeader.Proofs.Protobuf.Message
import DetectorHeader.Proofs.Protobuf.Parses
import DetectorHeader.Proofs.Protobuf.Size
import DetectorHeader.Proofs.Rerun
import DetectorHeader.Proofs.Search
import DetectorHeader.Proofs.Text.Utf8
import DetectorHeader.Proofs.Tflite.Depth
import DetectorHeader.Proofs.Tflite.Distant
import DetectorHeader.Proofs.Tflite.Extension
import DetectorHeader.Proofs.Tflite.Finished
import DetectorHeader.Proofs.Tflite.Loader
import DetectorHeader.Proofs.Tflite.Reference
import DetectorHeader.Proofs.Tflite.RoundTrip
import DetectorHeader.Proofs.Tflite.Safety
import DetectorHeader.Proofs.Unquantized
import DetectorHeader.Proofs.Workspace
import DetectorHeader.Protobuf.Fault
import DetectorHeader.Protobuf.Reader
import DetectorHeader.Protobuf.Record
import DetectorHeader.Protobuf.Writer
import DetectorHeader.Recorded
import DetectorHeader.Slot
import DetectorHeader.Storage
import DetectorHeader.Text.Utf8
import DetectorHeader.Tflite.Build
import DetectorHeader.Tflite.Metadata
import DetectorHeader.Tflite.Read
import DetectorHeader.Tflite.Schema
import DetectorHeader.Tflite.Verify
import DetectorHeader.Workspace
