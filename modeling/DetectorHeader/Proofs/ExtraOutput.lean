/-
One more output in an ONNX model (`LoadedModel.find_withOutput`).

Parameters are taken from the first output, and a warning says that of several
outputs only that one is read. Yet a model is loaded with all of its outputs,
and each of them has to have a type and a quantization that can be told. So
what is found for a model is found with a further output if that output can be
loaded, and otherwise nothing is found, for what is wrong with that output.
-/
import DetectorHeader.Proofs.Detection
import DetectorHeader.Proofs.Onnx.GraphOrder

namespace DetectorHeader

open Recorded

namespace Onnx

/-- The graph with one more output behind the others. -/
def Graph.withOutput (g : Graph) (v : ValueInfo) : Graph :=
  { g with output := g.output ++ [v] }

/-- The model with one more output of its graph. -/
def Model.withOutput (m : Model) (v : ValueInfo) : Model :=
  { m with graph := m.graph.map (·.withOutput v) }

-- ==================================================================== loading

/-- Outputs are not what lookups by name go through. -/
theorem Graph.resolve_withOutput (g : Graph) (v : ValueInfo) :
    g.Resolve (g.withOutput v) :=
  ⟨fun _ => rfl, fun _ => rfl⟩

/-- The further output is loaded last, and its slot is the last one. -/
theorem Metadata.ofModel_withOutput {m : Model} {g : Graph}
    (hgraph : m.graph = some g) (v : ValueInfo) :
    ofModel (m.withOutput v) = (do
      let metadata ← ofModel m
      let slot ← g.outputSlot v
      return { metadata with outputs := metadata.outputs ++ [slot] }) := by
  have hresolve := g.resolve_withOutput v
  unfold ofModel Model.withOutput
  rw [hgraph]
  dsimp only [Option.map_some]
  rw [hresolve.isFed, hresolve.quantization]
  simp only [Graph.withOutput, List.mapM_append, List.mapM_cons, List.mapM_nil,
    bind_assoc, pure_bind]

end Onnx

-- ==================================================================== finding

/-- Slots behind those that are there change nothing about these. -/
theorem Side.pick_append {side : Side} {slots : List Slot} {index : Nat}
    {slot : Slot} (h : side.pick slots index = .ok slot) (more : List Slot) :
    side.pick (slots ++ more) index = .ok slot := by
  unfold Side.pick at h ⊢
  cases hget : slots[index]? with
  | none =>
      rw [hget] at h
      cases h
  | some found =>
      rw [hget] at h
      cases h
      obtain ⟨hindex, -⟩ := List.getElem?_eq_some_iff.mp hget
      rw [List.getElem?_append_left hindex, hget]

namespace LoadedModel

variable {asked : Option Format} {path : String} {p : Params}
  {contents contents' : String → Except FileFault Bytes}
  {m : Onnx.Model} {v : Onnx.ValueInfo}

/-- What is written for an ONNX model is loaded as the model. -/
theorem outcome_load_encode (hm : m.encode.length < 0x10000000000000000)
    (h : contents path = .ok m.encode)
    (hformat : asked.or (Format.detect? path m.encode) = some .onnx) :
    ((source asked contents).load path).outcome
      = onnx <$> (Onnx.Metadata.ofModel m).outcome := by
  rw [outcome_load_or h hformat, ← Onnx.Metadata.ofBytes_encode hm]
  exact outcome_map _ _

/-- Where parameters are found, they are those of the first input and the first
output. -/
theorem find_eq_ok_iff {model : LoadedModel}
    (hload : ((source asked contents).load path).outcome = .ok model) :
    (find (source asked contents) false path).outcome = .ok p
      ↔ ∃ output, model.slot .output 0 = .ok output
        ∧ ∃ input, model.slot .input 0 = .ok input
        ∧ (Params.ofSlots input output).outcome = .ok p := by
  rw [outcome_find_of_load hload]
  simp only [outcome_bind_eq_ok_iff, outcome_ofExcept]

/-- A model that is loaded has a graph. -/
theorem exists_graph_of_load {metadata : Onnx.Metadata}
    (h : (Onnx.Metadata.ofModel m).outcome = .ok metadata) :
    ∃ g, m.graph = some g := by
  cases Onnx.outcome_ofModel_iff.mp h with
  | graph hgraph _ => exact ⟨_, hgraph⟩

/-- If parameters are found for an ONNX model, then those are found with one
more output that can be loaded, and with an output that cannot be loaded what
is wrong with it is reported instead. Nothing else can come of it. The bytes
are as many as a length can tell, which holds of all that are in a memory. -/
theorem find_withOutput (hm : m.encode.length < 0x10000000000000000)
    (hm' : (m.withOutput v).encode.length < 0x10000000000000000)
    (h : contents path = .ok m.encode)
    (h' : contents' path = .ok (m.withOutput v).encode)
    (hformat : asked.or (Format.detect? path m.encode) = some .onnx)
    (hformat' : asked.or (Format.detect? path (m.withOutput v).encode)
      = some .onnx)
    (hfind : (find (source asked contents) false path).outcome = .ok p) :
    ∃ g, m.graph = some g
      ∧ ((find (source asked contents') false path).outcome = .ok p
        ↔ ∃ slot, g.DescribesOutput v slot)
      ∧ ∀ e, (find (source asked contents') false path).outcome = .error e
        ↔ g.OutputFault v e := by
  have hload := outcome_load_encode hm h hformat
  have hload' := outcome_load_encode hm' h' hformat'
  cases hmodel : (Onnx.Metadata.ofModel m).outcome with
  | error e =>
      rw [hmodel] at hload
      rw [outcome_find_of_error hload] at hfind
      cases hfind
  | ok metadata =>
      rw [hmodel] at hload
      obtain ⟨g, hgraph⟩ := exists_graph_of_load hmodel
      rw [Onnx.Metadata.ofModel_withOutput hgraph, outcome_bind_of_ok hmodel,
        outcome_bind] at hload'
      refine ⟨g, hgraph, ?_⟩
      simp only [← Onnx.Graph.outcome_outputSlot_eq_ok_iff,
        ← Onnx.Graph.outcome_outputSlot_eq_error_iff]
      -- The slot of the new output is the only step that the old load has not
      -- had.
      cases hslot : (g.outputSlot v).outcome with
      | error e =>
          rw [hslot] at hload'
          rw [outcome_find_of_error hload']
          simp
      | ok slot =>
          rw [hslot] at hload'
          have hsame : (find (source asked contents') false path).outcome
              = .ok p := by
            obtain ⟨output, houtput, input, hinput, hp⟩ :=
              (find_eq_ok_iff hload).mp hfind
            exact (find_eq_ok_iff hload').mpr
              ⟨output, Side.pick_append houtput _, input, hinput, hp⟩
          rw [hsame]
          simp

/-- A graph value that is no tensor. -/
def labels : Onnx.ValueInfo where
  name := some "labels"
  type := some {}

/-- The detector's parameters. -/
def sampleParams : Params where
  inputHeight := 640
  inputWidth := 640
  scale := ⟨0x3B807358⟩
  zeroPoint := -128
  classes := 80
  detections := 6300

/-- The parameters of the detector are found in its ONNX model. -/
theorem sample_find :
    (find (source (some .onnx) (everywhere Detector.sample.onnx.encode)) false
      "m.onnx").outcome = .ok sampleParams := by
  rw [Detector.outcome_find_onnx
    ⟨by decide +kernel, by decide +kernel, by decide +kernel⟩ rfl]
  rfl

/-- A second tensor is no harm, and what is no tensor is reported. -/
theorem sample_find_withOutput :
    (find (source (some .onnx) (everywhere
        (Detector.sample.onnx.withOutput (Detector.value "mask" [1])).encode))
      false "m.onnx").outcome = .ok sampleParams
      ∧ (find (source (some .onnx) (everywhere
          (Detector.sample.onnx.withOutput labels).encode))
        false "m.onnx").outcome
        = .error (.unsupported (.notATensor "labels")) := by
  have hshort : Detector.sample.onnx.encode.length < 0x10000000000000000 := by
    decide +kernel
  have hfile : ∀ v, everywhere (Detector.sample.onnx.withOutput v).encode
      "m.onnx" = .ok (Detector.sample.onnx.withOutput v).encode := fun _ => rfl
  constructor
  · obtain ⟨g, hgraph, hfound, -⟩ := find_withOutput hshort
      (by decide +kernel) rfl (hfile (Detector.value "mask" [1])) rfl rfl
      sample_find
    cases hgraph
    obtain ⟨log, hrecovers⟩ := Onnx.Graph.outcome_quantization_iff.mp
      (rfl : (Detector.sample.graph.quantization "mask").outcome = .ok .none)
    exact hfound.mpr ⟨_, .none, log, hrecovers,
      Onnx.slot_eq_ok_iff.mp (rfl : (Detector.value "mask" [1]).slot .none = _)⟩
  · obtain ⟨g, hgraph, -, herror⟩ := find_withOutput hshort
      (by decide +kernel) rfl (hfile labels) rfl rfl sample_find
    cases hgraph
    obtain ⟨log, hrecovers⟩ := Onnx.Graph.outcome_quantization_iff.mp
      (rfl : (Detector.sample.graph.quantization "labels").outcome = .ok .none)
    exact (herror _).mpr (.type hrecovers
      (Onnx.slot_eq_error_iff.mp (rfl : labels.slot .none = _)))

/-- Parameters are not always found when they are without the output. -/
theorem sample_find_labels_ne :
    ¬ ∀ (m : Onnx.Model) (v : Onnx.ValueInfo) (path : String) (p : Params)
      (contents contents' : String → Except FileFault Bytes),
      contents path = .ok m.encode →
      contents' path = .ok (m.withOutput v).encode →
      (find (source (some .onnx) contents) false path).outcome = .ok p →
        (find (source (some .onnx) contents') false path).outcome = .ok p := by
  intro hsame
  have hfound := hsame _ labels "m.onnx" _ (everywhere _) (everywhere _) rfl rfl
    sample_find
  have hload : ((source (some .onnx) (everywhere
      (Detector.sample.onnx.withOutput labels).encode)).load "m.onnx").outcome
      = .error (.unsupported (.notATensor "labels")) := by
    rw [outcome_load_encode (by decide +kernel) rfl rfl]
    rfl
  rw [outcome_find_of_error hload] at hfound
  cases hfound

end LoadedModel

end DetectorHeader
