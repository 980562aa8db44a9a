/-
The depth while a model is verified (`verify_depth_balanced`). Each of the four
tables is left by the check that has entered it, so that a check that succeeds
ends at the depth with which it has begun, however many tables it has gone
through. Never are more than four of them inside of one another, which is far
from the limit, and so no model is refused for its depth.

The courses of the four checks are charted one by one, and the rest is what
holds of any balanced course.
-/
import DetectorHeader.Proofs.FlatBuffer.Course
import DetectorHeader.Tflite.Verify

namespace DetectorHeader.Tflite

open FlatBuffer

-- ================================================================== courses

namespace Course

open FlatBuffer.Course

/-- The course through the quantization of a tensor. -/
def quantization : Course :=
  table [
    ⟨"scale", Vtable.quantizationScale, offsetTo (vector .f32)⟩,
    ⟨"zero_point", Vtable.quantizationZeroPoint, offsetTo (vector .i64)⟩,
    ⟨"quantized_dimension", Vtable.quantizationDimension, scalar .i32⟩]

/-- The course through a tensor. -/
def tensor : Course :=
  table [
    ⟨"shape", Vtable.tensorShape, offsetTo (vector .i32)⟩,
    ⟨"type_", Vtable.tensorType, scalar .i8⟩,
    ⟨"buffer", Vtable.tensorBuffer, scalar .u32⟩,
    ⟨"name", Vtable.tensorName, offsetTo string⟩,
    ⟨"quantization", Vtable.tensorQuantization, offsetTo quantization⟩,
    ⟨"shape_signature", Vtable.tensorShapeSignature, offsetTo (vector .i32)⟩]

/-- The course through a subgraph. -/
def subgraph : Course :=
  table [
    ⟨"tensors", Vtable.subgraphTensors, offsetTo (vectorOf tensor)⟩,
    ⟨"inputs", Vtable.subgraphInputs, offsetTo (vector .i32)⟩,
    ⟨"outputs", Vtable.subgraphOutputs, offsetTo (vector .i32)⟩,
    ⟨"name", Vtable.subgraphName, offsetTo string⟩]

/-- The course through a model. -/
def model : Course :=
  table [
    ⟨"version", Vtable.modelVersion, scalar .u32⟩,
    ⟨"subgraphs", Vtable.modelSubgraphs, offsetTo (vectorOf subgraph)⟩,
    ⟨"description", Vtable.modelDescription, offsetTo string⟩]

/-- The course through a whole buffer. -/
def root : Course := offsetTo model

end Course

-- =================================================================== charts

theorem charts_quantization :
    Charts 1 Course.quantization Check.quantization :=
  Charts.table
    (.cons ⟨rfl, rfl, (Charts.vector .f32).offsetTo⟩
    (.cons ⟨rfl, rfl, (Charts.vector .i64).offsetTo⟩
    (.cons ⟨rfl, rfl, Charts.scalar .i32⟩ .nil)))

theorem charts_tensor : Charts 2 Course.tensor Check.tensor :=
  Charts.table
    (.cons ⟨rfl, rfl, (Charts.vector .i32).offsetTo⟩
    (.cons ⟨rfl, rfl, Charts.scalar .i8⟩
    (.cons ⟨rfl, rfl, Charts.scalar .u32⟩
    (.cons ⟨rfl, rfl, Charts.string.offsetTo⟩
    (.cons ⟨rfl, rfl, charts_quantization.offsetTo⟩
    (.cons ⟨rfl, rfl, (Charts.vector .i32).offsetTo⟩ .nil))))))

theorem charts_subgraph : Charts 3 Course.subgraph Check.subgraph :=
  Charts.table
    (.cons ⟨rfl, rfl, charts_tensor.vectorOf.offsetTo⟩
    (.cons ⟨rfl, rfl, (Charts.vector .i32).offsetTo⟩
    (.cons ⟨rfl, rfl, (Charts.vector .i32).offsetTo⟩
    (.cons ⟨rfl, rfl, Charts.string.offsetTo⟩ .nil))))

theorem charts_model : Charts 4 Course.model Check.model :=
  Charts.table
    (.cons ⟨rfl, rfl, Charts.scalar .u32⟩
    (.cons ⟨rfl, rfl, charts_subgraph.vectorOf.offsetTo⟩
    (.cons ⟨rfl, rfl, Charts.string.offsetTo⟩ .nil)))

/-- The tables that are verified. -/
inductive TableKind
  | model | subgraph | tensor | quantization

namespace TableKind

def check : TableKind → Check
  | model => Check.model
  | subgraph => Check.subgraph
  | tensor => Check.tensor
  | quantization => Check.quantization

def course : TableKind → Course
  | model => Course.model
  | subgraph => Course.subgraph
  | tensor => Course.tensor
  | quantization => Course.quantization

/-- The tables that are inside of one another in such a table, with it. -/
def height : TableKind → Nat
  | model => 4
  | subgraph => 3
  | tensor => 2
  | quantization => 1

theorem charts (kind : TableKind) :
    Charts kind.height kind.course kind.check := by
  cases kind with
  | model => exact charts_model
  | subgraph => exact charts_subgraph
  | tensor => exact charts_tensor
  | quantization => exact charts_quantization

end TableKind

-- ==================================================================== depth

/-- A check that succeeds ends at the depth with which it has begun, and has
counted the tables on its course. At any moment the depth has grown by no more
than the tables around, and the tables by those that have been entered. So a
whole buffer is verified at four tables deep at most, and not refused for its
depth. -/
theorem verify_depth_balanced :
    (∀ (kind : TableKind) (b : Buffer) (position : Nat) (usage : Usage),
      kind.check b position usage
          = (run (kind.course b position) usage).map ((), ·)
        ∧ (∀ usage', kind.check b position usage = .ok ((), usage') →
          usage'.depth = usage.depth
            ∧ usage'.tables = usage.tables
              + (entered (kind.course b position)).length)
        ∧ ∀ done usage',
          Reaches (kind.course b position) usage done usage' →
            usage.depth ≤ usage'.depth
              ∧ usage'.depth ≤ usage.depth + kind.height
              ∧ usage'.tables = usage.tables + (entered done).length)
      ∧ ∀ b : Buffer,
        (∀ usage, Check.root b 0 usage
            = (run (Course.root b 0) usage).map ((), ·))
          ∧ (∀ done usage', Reaches (Course.root b 0) {} done usage' →
            usage'.depth ≤ 4)
          ∧ ∀ fault, verify b = .error fault → fault.defect ≠ .depth := by
  constructor
  · -- one kind of table at a time
    intro kind b position usage
    have hbalanced := kind.charts.balanced b position
    refine ⟨congrFun (kind.charts.performed b position) usage, ?_, ?_⟩
    · intro usage' hcheck
      have hrun := kind.charts.check_eq_ok hcheck
      exact ⟨hbalanced.depth_eq hrun, run_tables hrun⟩
    · intro done usage' hreach
      obtain ⟨hlow, hhigh⟩ := hbalanced.depth_le hreach
      exact ⟨hlow, hhigh, run_tables hreach.ran⟩
  · intro b
    -- The offset to the model adds nothing to its depth of four.
    have hcharts := charts_model.offsetTo
    have hbalanced := hcharts.balanced b 0
    refine ⟨congrFun (hcharts.performed b 0), ?_, ?_⟩
    · intro done usage' hreach
      have := (hbalanced.depth_le hreach).2
      omega
    · intro fault hverify
      exact hbalanced.defect_ne_depth (by decide)
        (hcharts.check_eq_error (verify_eq_error_iff.mp hverify))

/-- A buffer with one table of each kind, inside of one another: the four
vtables, and behind them the tables and the vectors between them. -/
def nestedBuffer : Buffer := .ofArray #[
  40, 0, 0, 0,
  10, 0, 8, 0, 0, 0, 0, 0, 4, 0,
  6, 0, 8, 0, 4, 0,
  14, 0, 8, 0, 0, 0, 0, 0, 0, 0, 0, 0, 4, 0,
  4, 0, 4, 0, 0, 0,
  36, 0, 0, 0, 4, 0, 0, 0, 1, 0, 0, 0, 4, 0, 0, 0,
  42, 0, 0, 0, 4, 0, 0, 0, 1, 0, 0, 0, 4, 0, 0, 0,
  52, 0, 0, 0, 4, 0, 0, 0,
  46, 0, 0, 0]

/-- Seven tables deep, the model is left as deep as it has been found. From the
start of the buffer, all of the four are around the last one. -/
theorem nestedBuffer_depth_balanced :
    (∃ usage', Check.model nestedBuffer 40 { depth := 7 } = .ok ((), usage')
        ∧ usage'.depth = 7
        ∧ usage'.tables = (entered (Course.model nestedBuffer 40)).length)
      ∧ ∃ done usage', Reaches (Course.root nestedBuffer 0) {} done usage'
        ∧ usage'.depth = 4 ∧ usage'.depth ≤ 4 := by
  obtain ⟨hkinds, hroot⟩ := verify_depth_balanced
  constructor
  · have hcheck : Check.model nestedBuffer 40 { depth := 7 }
        = .ok ((), { apparentSize := 110, tables := 4, depth := 7 }) := by
      decide +kernel
    obtain ⟨-, hend, -⟩ := hkinds .model nestedBuffer 40 { depth := 7 }
    obtain ⟨hdepth, htables⟩ := hend _ hcheck
    rw [Nat.zero_add] at htables
    exact ⟨_, hcheck, hdepth, htables⟩
  · have hrun : run ((Course.root nestedBuffer 0).take 70) {}
        = .ok { apparentSize := 114, tables := 4, depth := 4 } := by
      decide +kernel
    have hreach : Reaches (Course.root nestedBuffer 0) {}
        ((Course.root nestedBuffer 0).take 70)
        { apparentSize := 114, tables := 4, depth := 4 } :=
      ⟨List.take_prefix 70 _, hrun⟩
    obtain ⟨-, hdeep, -⟩ := hroot nestedBuffer
    exact ⟨_, _, hreach, rfl, hdeep _ _ hreach⟩

end DetectorHeader.Tflite
