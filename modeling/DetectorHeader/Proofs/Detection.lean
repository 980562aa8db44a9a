/-
The format that a file looks like, against the format that is asked for
(`LoadedModel.load_detected`).

The identifier of TFLite decides before the name of the file does. A buffer
that has been finished as a TFLite model has it, so it is loaded as what it is
under every name. What is written for an ONNX model has it only if one of the
texts at its front says so; it is then taken for a TFLite model, and loading
it never ends as it would end otherwise. That is so even where both loaders
fail, as nothing that the one fails with is what the other fails with
(`Tflite.LoadFault`).
-/
import DetectorHeader.Proofs.CrossFormat
import DetectorHeader.Proofs.Onnx.Front
import DetectorHeader.Proofs.Onnx.Recovery
import DetectorHeader.Proofs.Tflite.Extension
import DetectorHeader.Proofs.Tflite.Finished
import DetectorHeader.Proofs.Tflite.Reference

namespace DetectorHeader

open Recorded

namespace Tflite

-- ============================================================= errors, TFLite

/-- What loading a TFLite model can fail with: what is wrong with the buffer, or
with the model in it. -/
inductive LoadFault : Error → Prop
  | flatBuffer (fault) : LoadFault (.flatBuffer fault)
  | content {e} (h : ContentFault e) : LoadFault e

/-- A TFLite model fails to load with nothing else. -/
theorem Metadata.ofBytes_loadFault (bytes : Bytes) :
    FailsIn LoadFault (ofBytes bytes) :=
  ofBytes_failsIn (fun _ => .content) .flatBuffer bytes

end Tflite

namespace Onnx

-- =============================================================== errors, ONNX

/-- What loading a TFLite model does not fail with. -/
abbrev Foreign (e : Error) : Prop := ¬ Tflite.LoadFault e

/-- The type of an ONNX value never fails as a TFLite model does. -/
theorem TypeFault.foreign {v : ValueInfo} {e : Error} (h : TypeFault v e) :
    Foreign e := by
  cases h with
  | notATensor _ => nofun
  | noElementType _ _ _ => nofun
  | undefined _ _ _ => nofun

/-- Nor does reading scales. -/
theorem Tensor.ReadsScales.foreign {t : Tensor} {e : Error}
    (h : t.ReadsScales (.error e)) : Foreign e := by
  cases h with
  | notFloat _ => nofun
  | unread _ => nofun

/-- Nor does reading zero points. -/
theorem Tensor.ReadsZeroPoints.foreign {t : Tensor} {e : Error}
    (h : t.ReadsZeroPoints (.error e)) : Foreign e := by
  cases h with
  | notInteger _ => nofun
  | unread _ _ => nofun
  | tooLarge _ _ _ _ => nofun

/-- Nor does the quantization of a value, whose faults are these and two others.
-/
theorem Graph.Recovers.foreign {g : Graph} {name : String} {e : Error}
    {log : List Event} (h : g.Recovers name (.error e) log) : Foreign e := by
  cases h with
  | computedScale _ _ _ => nofun
  | computedZeroPoint _ _ _ _ _ => nofun
  | scaleFault _ hscale => exact hscale.foreign
  | zeroPointFault _ _ hzeroPoint =>
      cases hzeroPoint with
      | constant h => exact h.foreign

/-- Nor does an output. -/
theorem Graph.OutputFault.foreign {g : Graph} {v : ValueInfo} {e : Error}
    (h : g.OutputFault v e) : Foreign e := by
  cases h with
  | quantization h => exact h.foreign
  | type _ hfault => exact hfault.foreign

/-- Nor does a graph. -/
theorem Loads.foreign {m : Model} {e : Error} (h : Loads m (.error e)) :
    Foreign e := by
  cases h with
  | noGraph _ => nofun
  | graph _ hlists =>
      cases hlists with
      | first hinputs =>
          obtain ⟨v, -, hfault⟩ := hinputs.exists_fault
          exact hfault.foreign
      | second _ houtputs =>
          obtain ⟨v, -, hfault⟩ := houtputs.exists_fault
          exact hfault.foreign

/-- An ONNX model never fails to load as a TFLite model does. -/
theorem Metadata.ofBytes_failsIn (bytes : Bytes) :
    FailsIn Foreign (ofBytes bytes) := by
  refine FailsIn.bind (FailsIn.ofExcept fun e he => ?_) fun m e he => ?_
  · cases hdecode : Model.decode bytes with
    | error fault =>
        rw [hdecode] at he
        cases he
        nofun
    | ok m =>
        rw [hdecode] at he
        cases he
  · exact (outcome_ofModel_iff.mp he).foreign

end Onnx

-- ==================================================================== formats

namespace LoadedModel

/-- Bytes are not loaded alike as the one format and as the other. -/
theorem outcome_ofBytes_ne (bytes : Bytes) :
    (ofBytes .tflite bytes).outcome ≠ (ofBytes .onnx bytes).outcome := by
  intro h
  unfold ofBytes at h
  rw [outcome_map, outcome_map] at h
  cases htflite : (Tflite.Metadata.ofBytes bytes).outcome with
  | error e =>
      rw [htflite] at h
      cases honnx : (Onnx.Metadata.ofBytes bytes).outcome with
      | error e' =>
          rw [honnx] at h
          cases h
          exact Onnx.Metadata.ofBytes_failsIn bytes e honnx
            (Tflite.Metadata.ofBytes_loadFault bytes e htflite)
      | ok metadata =>
          rw [honnx] at h
          cases h
  | ok metadata =>
      rw [htflite] at h
      cases honnx : (Onnx.Metadata.ofBytes bytes).outcome with
      | error e =>
          rw [honnx] at h
          cases h
      | ok metadata' =>
          rw [honnx] at h
          cases h

variable {contents : String → Except FileFault Bytes} {path : String}
  {bytes : Bytes} {format : Format}

/-- A file is loaded as its bytes are, after a line in the log. -/
theorem load_eq (h : contents path = .ok bytes) :
    (source (some format) contents).load path
      = log (.load path format bytes.length)
        >>= fun _ => ofBytes format bytes := by
  show ofContents (some format) path (contents path) = _
  rw [h]
  rfl

/-- A file of which the format is told is loaded as one of that format. -/
theorem load_of_detect? (h : contents path = .ok bytes)
    (hformat : Format.detect? path bytes = some format) :
    (source none contents).load path
      = (source (some format) contents).load path := by
  have hdetect : Format.detect path bytes = .ok format := by
    unfold Format.detect
    rw [hformat]
  show ofContents none path (contents path) = _
  rw [load_eq h, h]
  unfold ofContents
  simp only [Except.mapError, ofExcept_ok, pure_bind, hdetect]

/-- A file is loaded as one of the format that is asked for, or else of the
one that it looks like. -/
theorem outcome_load_or {asked : Option Format} (h : contents path = .ok bytes)
    (hformat : asked.or (Format.detect? path bytes) = some format) :
    ((source asked contents).load path).outcome
      = (ofBytes format bytes).outcome := by
  cases asked with
  | none => rw [load_of_detect? h hformat, outcome_load h]
  | some asked =>
      cases hformat
      exact outcome_load h

/-- The identifier decides. -/
theorem load_of_hasIdentifier (h : contents path = .ok bytes)
    (hidentifier : Tflite.hasIdentifier bytes = true) :
    (source none contents).load path
      = (source (some .tflite) contents).load path :=
  load_of_detect? h (if_pos hidentifier)

/-- Without the identifier the extension does, however it is written. -/
theorem load_of_extension (h : contents path = .ok bytes)
    (hidentifier : Tflite.hasIdentifier bytes = false) {e : List Char}
    (he : Path.extension? path = some e)
    (hname : Format.ofName? (e.map Char.toLower) = some format) :
    (source none contents).load path
      = (source (some format) contents).load path := by
  apply load_of_detect? h
  unfold Format.detect?
  simp [hidentifier, he, hname]

/-- A file is not loaded alike as the one format and as the other. -/
theorem outcome_load_ne (h : contents path = .ok bytes) :
    ((source (some .tflite) contents).load path).outcome
      ≠ ((source (some .onnx) contents).load path).outcome := by
  rw [outcome_load h, outcome_load h]
  exact outcome_ofBytes_ne bytes

/-- A file with the extension `onnx` that holds what is written for an ONNX
model is loaded as such a model if the fifth to eighth of its bytes are not the
identifier of TFLite. If they are, one of the texts at the front of the model
has the end of the identifier in it, and the file is loaded as a TFLite model,
which ends otherwise. A file that holds what has been finished as a TFLite model
is loaded as such a model, whatever it is called. -/
theorem load_detected (contents : String → Except FileFault Bytes)
    (path : String) :
    (∀ (m : Onnx.Model) (e : List Char), contents path = .ok m.encode →
      Path.extension? path = some e →
      e.map Char.toLower = ['o', 'n', 'n', 'x'] →
        (Tflite.hasIdentifier m.encode = false →
          (source none contents).load path
            = (source (some .onnx) contents).load path)
        ∧ (Tflite.hasIdentifier m.encode = true →
          (source none contents).load path
              = (source (some .tflite) contents).load path
            ∧ ((source none contents).load path).outcome
              ≠ ((source (some .onnx) contents).load path).outcome
            ∧ ∃ text ∈ m.frontTexts,
              Onnx.identifierTail <:+: Utf8.encode text))
      ∧ ∀ bytes : Bytes, contents path = .ok bytes →
        FlatBuffer.Build.Finished Tflite.identifier bytes →
          (source none contents).load path
            = (source (some .tflite) contents).load path := by
  constructor
  · intro m e h he hname
    constructor
    · intro hidentifier
      refine load_of_extension h hidentifier he ?_
      rw [hname]
      rfl
    · intro hidentifier
      have hload := load_of_hasIdentifier h hidentifier
      refine ⟨hload, ?_, m.exists_of_hasIdentifier hidentifier⟩
      rw [hload]
      exact outcome_load_ne h
  · intro bytes h hfinished
    exact load_of_hasIdentifier h (Tflite.hasIdentifier_of_finished hfinished)

/-- Files with the same contents at every path. -/
def everywhere (bytes : Bytes) : String → Except FileFault Bytes :=
  fun _ => .ok bytes

/-- A detector whose producer's name starts with the identifier of TFLite. -/
def disguisedModel : Onnx.Model :=
  { Detector.sample.onnx with producerName := some "TFL3-to-ONNX" }

/-- Of three models under one path each is loaded as what it is taken for. -/
theorem disguisedModel_load_detected :
    (source none (everywhere disguisedModel.encode)).load "m.Onnx"
        = (source (some .tflite) (everywhere disguisedModel.encode)).load
          "m.Onnx"
      ∧ ((source none (everywhere disguisedModel.encode)).load
          "m.Onnx").outcome
        ≠ ((source (some .onnx) (everywhere disguisedModel.encode)).load
          "m.Onnx").outcome
      ∧ (source none (everywhere Detector.sample.onnx.encode)).load "m.Onnx"
        = (source (some .onnx) (everywhere Detector.sample.onnx.encode)).load
          "m.Onnx"
      ∧ (source none (everywhere Detector.sample.tflite.encode)).load "m.Onnx"
        = (source (some .tflite)
          (everywhere Detector.sample.tflite.encode)).load "m.Onnx" := by
  have hextension : Path.extension? "m.Onnx" = some ['O', 'n', 'n', 'x'] := by
    decide +kernel
  obtain ⟨hdisguised, hne, -⟩ :=
    ((load_detected (everywhere disguisedModel.encode) "m.Onnx").1
      disguisedModel _ rfl hextension rfl).2 (by decide +kernel)
  have hplain :=
    ((load_detected (everywhere Detector.sample.onnx.encode) "m.Onnx").1
      Detector.sample.onnx _ rfl hextension rfl).1 (by decide +kernel)
  have hfinished :=
    (load_detected (everywhere Detector.sample.tflite.encode) "m.Onnx").2 _ rfl
      Detector.sample.tflite.encode_finished
  exact ⟨hdisguised, hne, hplain, hfinished⟩

/-- The extension alone does not decide. -/
theorem disguisedModel_load_ne :
    ¬ ∀ (m : Onnx.Model) (contents : String → Except FileFault Bytes)
      (path : String) (e : List Char), contents path = .ok m.encode →
      Path.extension? path = some e →
      e.map Char.toLower = ['o', 'n', 'n', 'x'] →
        ((source none contents).load path).outcome
          = ((source (some .onnx) contents).load path).outcome := by
  intro hload
  have hsame := hload disguisedModel (everywhere disguisedModel.encode)
    "m.onnx" ['o', 'n', 'n', 'x'] rfl (by decide +kernel) rfl
  rw [load_of_hasIdentifier rfl (by decide +kernel)] at hsame
  exact outcome_load_ne rfl hsame

end LoadedModel

end DetectorHeader
