/-
The loader against a description of the graph (`Model.encode_loads`).

`Loads m outcome` says what a model is loaded as. The inputs are the listed
values that have a name and are no constants, the outputs are all that are
listed, each of them in the order of its list. What is wrong with a list is
what is wrong with its first value that is not described well enough, and an
output needs a quantization before its type is looked at. Where quantizations
come from, and which code is that of which type, is told apart from the loader
as well (`Graph.Recovers`, `DataType.onnxTypes`).
-/
import DetectorHeader.Proofs.DataType
import DetectorHeader.Proofs.Onnx.Recovery
import DetectorHeader.Proofs.Onnx.RoundTrip

namespace DetectorHeader.Onnx

open Protobuf Recorded

-- ============================================================= description

/-- The number that is reported for a dimension. -/
inductive Reports (d : Dimension) : Int64 → Prop
  | value {n} (h : d.extent = some (.value n)) : Reports d n
  | symbol {name} (h : d.extent = some (.symbol name)) : Reports d (-1)
  | unset (h : d.extent = none) : Reports d (-1)

/-- The slot is that of a value of tensor type, with the type that is published
for its code. -/
structure Describes (v : ValueInfo) (q : Quantization) (slot : Slot) :
    Prop where
  name : slot.name = v.name.getD ""
  quantization : slot.quantization = q
  tensor : ∃ type tensor code, v.type = some type
    ∧ type.tensor = some tensor
    ∧ tensor.elementType = some code ∧ code ≠ 0
    ∧ slot.type = .listed DataType.onnxTypes code
    ∧ List.Forall₂ Reports (tensor.shape.elim [] (·.dims)) slot.shape

/-- What is wrong with the type of a value. -/
inductive TypeFault (v : ValueInfo) : Error → Prop
  | notATensor (h : ∀ type, v.type = some type → type.tensor = none) :
      TypeFault v (.unsupported (.notATensor (v.name.getD "")))
  | noElementType {type tensor} (htype : v.type = some type)
      (htensor : type.tensor = some tensor)
      (h : tensor.elementType = none) :
      TypeFault v (.missingField .elementType)
  | undefined {type tensor} (htype : v.type = some type)
      (htensor : type.tensor = some tensor)
      (h : tensor.elementType = some 0) :
      TypeFault v (.invalidModel .undefinedElementType)

/-- The listed input is one: it has a name, and no constant has that name. -/
def Graph.Retains (g : Graph) (v : ValueInfo) : Prop :=
  v.name.getD "" ≠ ""
    ∧ ∀ t ∈ g.initializer, t.name ≠ some (v.name.getD "")

instance (g : Graph) (v : ValueInfo) : Decidable (g.Retains v) :=
  inferInstanceAs (Decidable (_ ∧ _))

/-- The slot is that of an output, with its quantization in the graph. -/
def Graph.DescribesOutput (g : Graph) (v : ValueInfo) (slot : Slot) : Prop :=
  ∃ q log, g.Recovers (v.name.getD "") (.ok q) log ∧ Describes v q slot

/-- What is wrong with an output: its quantization, or else its type. -/
inductive Graph.OutputFault (g : Graph) (v : ValueInfo) : Error → Prop
  | quantization {e log} (h : g.Recovers (v.name.getD "") (.error e) log) :
      g.OutputFault v e
  | type {q log e} (hq : g.Recovers (v.name.getD "") (.ok q) log)
      (h : TypeFault v e) : g.OutputFault v e

/-- What the inputs of a graph are loaded as. -/
abbrev Graph.LoadsInputs (g : Graph) : Except Error (List Slot) → Prop :=
  InOrder (fun v slot => Describes v .none slot) TypeFault
    (g.input.filter (g.Retains ·))

/-- What the outputs of a graph are loaded as. -/
abbrev Graph.LoadsOutputs (g : Graph) : Except Error (List Slot) → Prop :=
  InOrder g.DescribesOutput g.OutputFault g.output

/-- What a model is loaded as: the inputs of its graph, and then the
outputs. -/
inductive Loads (m : Model) : Except Error Metadata → Prop
  | noGraph (h : m.graph = none) :
      Loads m (.error (.invalidModel .noGraph))
  | graph {g outcome} (h : m.graph = some g)
      (hlists : InTurn g.LoadsInputs g.LoadsOutputs (fun inputs outputs => {
        modelVersion := m.modelVersion.getD 0
        producerName := m.producerName.getD ""
        producerVersion := m.producerVersion.getD ""
        inputs, outputs }) outcome) : Loads m outcome

-- =================================================================== values

/-- One number is reported for a dimension. -/
theorem reports_iff {d : Dimension} {n : Int64} :
    Reports d n ↔ d.size = n := by
  unfold Dimension.size
  constructor
  · intro h
    cases h with
    | value h | symbol h | unset h => rw [h]
  · intro h
    subst h
    cases hextent : d.extent with
    | none => exact .unset hextent
    | some extent =>
        cases extent with
        | value n => exact .value hextent
        | symbol name => exact .symbol hextent

/-- And one for each dimension of a shape. -/
theorem forall₂_reports_iff {dims : List Dimension} {shape : List Int64} :
    List.Forall₂ Reports dims shape ↔ dims.map Dimension.size = shape := by
  rw [← List.forall₂_eq_eq_eq, List.forall₂_map_left_iff]
  simp only [← reports_iff]

/-- The slot that is described is made. -/
theorem slot_of_describes {v : ValueInfo} {q : Quantization} {slot : Slot}
    (h : Describes v q slot) : v.slot q = .ok slot := by
  obtain ⟨hname, hquantization, type, tensor, code, htype, htensor, hcode,
    hdefined, hslotType, hshape⟩ := h
  obtain ⟨name, shape, dataType, quantization⟩ := slot
  dsimp only at hname hquantization hslotType hshape
  rw [forall₂_reports_iff] at hshape
  rw [← DataType.ofOnnxCode_eq] at hslotType
  subst hname hquantization hslotType hshape
  unfold ValueInfo.slot
  rw [htype, Option.bind_some, htensor]
  dsimp only
  rw [hcode]
  split
  · rename_i h
    cases h
  · rename_i h
    cases h
    exact absurd rfl hdefined
  · rename_i h
    cases h
    rfl

/-- What is wrong with the type of a value is reported, whatever its
quantization is. -/
theorem slot_of_typeFault {v : ValueInfo} (q : Quantization) {e : Error}
    (h : TypeFault v e) : v.slot q = .error e := by
  unfold ValueInfo.slot
  cases h with
  | notATensor h =>
      rw [Option.bind_eq_none_iff.mpr h]
      rfl
  | noElementType htype htensor h =>
      rw [htype, Option.bind_some, htensor]
      dsimp only
      rw [h]
  | undefined htype htensor h =>
      rw [htype, Option.bind_some, htensor]
      dsimp only
      rw [h]
      rfl

/-- Either the slot is described, or something is wrong with the type. -/
theorem slot_sound (v : ValueInfo) (q : Quantization) :
    (∃ slot, Describes v q slot) ∨ ∃ e, TypeFault v e := by
  cases htype : v.type with
  | none =>
      refine .inr ⟨_, .notATensor fun type h => ?_⟩
      cases htype.symm.trans h
  | some type =>
      cases htensor : type.tensor with
      | none =>
          refine .inr ⟨_, .notATensor fun type' h => ?_⟩
          cases htype.symm.trans h
          exact htensor
      | some tensor =>
          cases hcode : tensor.elementType with
          | none => exact .inr ⟨_, .noElementType htype htensor hcode⟩
          | some code =>
              by_cases hdefined : code = 0
              · subst hdefined
                exact .inr ⟨_, .undefined htype htensor hcode⟩
              · exact .inl ⟨⟨_, _, _, q⟩, rfl, rfl, type, tensor, code, htype,
                  htensor, hcode, hdefined, rfl,
                  forall₂_reports_iff.mpr rfl⟩

/-- No other slot is made. -/
theorem slot_eq_ok_iff {v : ValueInfo} {q : Quantization} {slot : Slot} :
    v.slot q = .ok slot ↔ Describes v q slot := by
  constructor
  · intro h
    rcases slot_sound v q with ⟨slot', hslot⟩ | ⟨e, he⟩
    · cases h.symm.trans (slot_of_describes hslot)
      exact hslot
    · cases h.symm.trans (slot_of_typeFault q he)
  · exact slot_of_describes

/-- And nothing else is reported. -/
theorem slot_eq_error_iff {v : ValueInfo} {q : Quantization} {e : Error} :
    v.slot q = .error e ↔ TypeFault v e := by
  constructor
  · intro h
    rcases slot_sound v q with ⟨slot, hslot⟩ | ⟨e', he⟩
    · cases h.symm.trans (slot_of_describes hslot)
    · cases h.symm.trans (slot_of_typeFault q he)
      exact he
  · exact slot_of_typeFault q

-- ==================================================================== lists

/-- A constant is found for a name just when one has it. -/
theorem Graph.constant?_isNone_iff {g : Graph} {name : String}
    (hname : name ≠ "") :
    (g.constant? name).isNone = true
      ↔ ∀ t ∈ g.initializer, t.name ≠ some name := by
  unfold constant?
  rw [if_neg hname, Option.isNone_iff_eq_none, List.find?_eq_none]
  simp

/-- The loader retains the inputs that it is to retain. -/
theorem Graph.isFed_eq (g : Graph) (v : ValueInfo) :
    g.isFed v = decide (g.Retains v) := by
  unfold isFed ValueInfo.nameText
  rw [Bool.eq_iff_iff, Bool.and_eq_true, decide_eq_true_eq,
    decide_eq_true_eq]
  unfold Retains
  exact and_congr_right constant?_isNone_iff

/-- Inputs are loaded as their description says. -/
theorem Graph.outcome_inputs_iff {g : Graph}
    {outcome : Except Error (List Slot)} :
    ((g.input.filter g.isFed).mapM fun v : ValueInfo =>
        Recorded.ofExcept (v.slot .none)).outcome = outcome
      ↔ g.LoadsInputs outcome := by
  rw [show g.isFed = fun v => decide (g.Retains v) from funext g.isFed_eq]
  exact outcome_mapM_iff (fun _ _ => slot_eq_ok_iff)
    (fun _ _ => slot_eq_error_iff)

/-- The loading of an output. -/
abbrev Graph.outputSlot (g : Graph) (v : ValueInfo) : Recorded Slot := do
  Recorded.ofExcept (v.slot (← g.quantization v.nameText))

/-- The slot of an output is the one that is described. -/
theorem Graph.outcome_outputSlot_eq_ok_iff {g : Graph} {v : ValueInfo}
    {slot : Slot} :
    (g.outputSlot v).outcome = .ok slot ↔ g.DescribesOutput v slot := by
  simp only [outcome_bind_eq_ok_iff, outcome_ofExcept, slot_eq_ok_iff,
    outcome_quantization_iff]
  constructor
  · rintro ⟨q, ⟨log, hq⟩, hslot⟩
    exact ⟨q, log, hq, hslot⟩
  · rintro ⟨q, log, hq, hslot⟩
    exact ⟨q, ⟨log, hq⟩, hslot⟩

/-- And its error is what is wrong with it. -/
theorem Graph.outcome_outputSlot_eq_error_iff {g : Graph} {v : ValueInfo}
    {e : Error} :
    (g.outputSlot v).outcome = .error e ↔ g.OutputFault v e := by
  simp only [outcome_bind_eq_error_iff, outcome_ofExcept, slot_eq_error_iff,
    outcome_quantization_iff]
  constructor
  · intro h
    rcases h with ⟨log, h⟩ | ⟨q, ⟨log, hq⟩, h⟩
    · exact .quantization h
    · exact .type hq h
  · intro h
    cases h with
    | quantization h => exact .inl ⟨_, h⟩
    | type hq h => exact .inr ⟨_, ⟨_, hq⟩, h⟩

/-- Outputs are loaded as their description says. -/
theorem Graph.outcome_outputs_iff {g : Graph}
    {outcome : Except Error (List Slot)} :
    (g.output.mapM fun v : ValueInfo => do
        Recorded.ofExcept (v.slot (← g.quantization v.nameText))).outcome
        = outcome
      ↔ g.LoadsOutputs outcome :=
  outcome_mapM_iff (fun _ _ => outcome_outputSlot_eq_ok_iff)
    (fun _ _ => outcome_outputSlot_eq_error_iff)

-- =================================================================== models

/-- A model is loaded as its description says, and as nothing else. -/
theorem outcome_ofModel_iff {m : Model} {outcome : Except Error Metadata} :
    (Metadata.ofModel m).outcome = outcome ↔ Loads m outcome := by
  unfold Metadata.ofModel
  cases hgraph : m.graph with
  | none =>
      constructor
      · intro h
        rw [← h]
        exact .noGraph hgraph
      · intro h
        cases h with
        | noGraph _ => rfl
        | graph h _ => cases hgraph.symm.trans h
  | some g =>
      dsimp only
      rw [outcome_inTurn_iff g.outcome_inputs_iff g.outcome_outputs_iff]
      constructor
      · exact .graph hgraph
      · intro h
        cases h with
        | noGraph h => cases hgraph.symm.trans h
        | graph h hlists =>
            cases hgraph.symm.trans h
            exact hlists

/-- Nothing is wrong with the type of a value that is described. -/
theorem Describes.not_typeFault {v : ValueInfo} {q : Quantization}
    {slot : Slot} (h : Describes v q slot) {e : Error} : ¬ TypeFault v e := by
  intro hfault
  cases (slot_of_describes h).symm.trans (slot_of_typeFault q hfault)

/-- And nothing with an output. -/
theorem Graph.DescribesOutput.not_outputFault {g : Graph} {v : ValueInfo}
    {slot : Slot} (h : g.DescribesOutput v slot) {e : Error} :
    ¬ g.OutputFault v e := by
  intro hfault
  obtain ⟨q, log, hq, hslot⟩ := h
  cases hfault with
  | quantization herror =>
      -- what a graph says of a quantization it says once
      cases (outcome_quantization_iff.mpr ⟨_, hq⟩).symm.trans
        (outcome_quantization_iff.mpr ⟨_, herror⟩)
  | type _ hfault => exact hslot.not_typeFault hfault

/-- What keeps a model from being loaded. -/
def Model.Faulty (m : Model) : Prop :=
  m.graph = none ∨ ∃ g, m.graph = some g
    ∧ ((∃ v ∈ g.input, g.Retains v ∧ ∃ e, TypeFault v e)
      ∨ ∃ v ∈ g.output, ∃ e, g.OutputFault v e)

/-- An error has a cause in the model. -/
theorem Loads.faulty {m : Model} {e : Error} (h : Loads m (.error e)) :
    m.Faulty := by
  cases h with
  | noGraph hgraph => exact .inl hgraph
  | @graph g _ hgraph hlists =>
      refine .inr ⟨g, hgraph, ?_⟩
      cases hlists with
      | first hinputs =>
          obtain ⟨v, hv, hfault⟩ := hinputs.exists_fault
          obtain ⟨hmem, hretained⟩ := List.mem_filter.mp hv
          exact .inl ⟨v, hmem, of_decide_eq_true hretained, e, hfault⟩
      | second _ houtputs =>
          obtain ⟨v, hv, hfault⟩ := houtputs.exists_fault
          exact .inr ⟨v, hv, e, hfault⟩

/-- And a model that is loaded has none in it. -/
theorem Loads.not_faulty {m : Model} {metadata : Metadata}
    (h : Loads m (.ok metadata)) : ¬ m.Faulty := by
  intro hfaulty
  cases h with
  | @graph g _ hgraph hlists =>
      cases hlists with
      | both hinputs houtputs =>
          rcases hfaulty with hnone | ⟨g', hgraph', hfaulty⟩
          · cases hgraph.symm.trans hnone
          cases hgraph.symm.trans hgraph'
          rcases hfaulty with ⟨v, hv, hretained, e, he⟩ | ⟨v, hv, e, he⟩
          · obtain ⟨slot, hslot⟩ := hinputs.exists_of_mem v
              (List.mem_filter.mpr ⟨hv, decide_eq_true hretained⟩)
            exact hslot.not_typeFault he
          · obtain ⟨slot, hslot⟩ := houtputs.exists_of_mem v hv
            exact hslot.not_outputFault he

/-- So causes in the model are told by the errors. -/
theorem exists_error_iff_faulty {m : Model} :
    (∃ e, (Metadata.ofModel m).outcome = .error e) ↔ m.Faulty := by
  constructor
  · intro h
    obtain ⟨e, he⟩ := h
    exact (outcome_ofModel_iff.mp he).faulty
  · intro hfaulty
    cases hout : (Metadata.ofModel m).outcome with
    | error e => exact ⟨e, rfl⟩
    | ok metadata =>
        exact absurd hfaulty (outcome_ofModel_iff.mp hout).not_faulty

/-- Graphs of which the same is loaded. -/
structure Graph.LoadedAlike (g g' : Graph) : Prop where
  input : g'.input = g.input
  output : g'.output = g.output
  isFed : g'.isFed = g.isFed
  quantization : g'.quantization = g.quantization

/-- Models that say the same of themselves are loaded as the same if their
graphs are. -/
theorem Metadata.ofModel_congr {m m' : Model} {R : Graph → Graph → Prop}
    (modelVersion : m'.modelVersion = m.modelVersion)
    (producerName : m'.producerName = m.producerName)
    (producerVersion : m'.producerVersion = m.producerVersion)
    (hgraph : Option.Rel R m.graph m'.graph)
    (h : ∀ g g', m.graph = some g → R g g' → g.LoadedAlike g') :
    ofModel m' = ofModel m := by
  unfold ofModel
  rw [modelVersion, producerName, producerVersion]
  generalize m.graph = graph at hgraph h
  generalize m'.graph = graph' at hgraph
  cases hgraph with
  | none => rfl
  | some hrelated =>
      have halike := h _ _ rfl hrelated
      dsimp only
      rw [halike.input, halike.output, halike.isFed, halike.quantization]

-- ==================================================================== bytes

/-- The bytes that are written for a model are loaded as the model. -/
theorem Metadata.ofBytes_encode {m : Model}
    (h : m.encode.length < 0x10000000000000000) :
    ofBytes m.encode = ofModel m := by
  have hdecode : Model.decode m.encode = .ok m :=
    decode_of_spells (m.encode_spells 94) h
  unfold ofBytes
  rw [hdecode]
  rfl

/-- The bytes that are written for a model are loaded as the description of
the model says, and they are not loaded just when there is no graph, or
something is wrong with a retained input or an output. The bytes are as many as
a length can tell, which holds of all that are in a memory. -/
theorem Model.encode_loads (m : Model)
    (h : m.encode.length < 0x10000000000000000) :
    (∀ outcome, (Metadata.ofBytes m.encode).outcome = outcome
        ↔ Loads m outcome)
      ∧ ((∃ e, (Metadata.ofBytes m.encode).outcome = .error e)
        ↔ m.Faulty) := by
  have hdecode : Model.decode m.encode = .ok m :=
    decode_of_spells (m.encode_spells 94) h
  have hload : (Metadata.ofBytes m.encode).outcome
      = (Metadata.ofModel m).outcome := by
    unfold Metadata.ofBytes
    rw [hdecode]
    exact outcome_bind_of_ok rfl
  rw [hload]
  exact ⟨fun _ => outcome_ofModel_iff, exists_error_iff_faulty⟩

/-- Of the listed inputs one is a constant and one has no name; the constant
is there twice. The output is dequantized with it. -/
def constantInput : Model where
  graph := some {
    node := [{
      opType := some "DequantizeLinear"
      input := ["x", "w"]
      output := ["y"] }]
    initializer := [
      { name := some "w" },
      {},
      { name := some "w", dataType := some 1, floatData := [⟨0x3E800000⟩] }]
    input := [
      { name := some "x"
        type := some { tensor := some {
          elementType := some 3
          shape := some { dims := [
            { extent := some (.symbol "n") },
            { extent := some (.value 3) }] } } } },
      { name := some "w" },
      {}]
    output := [
      { name := some "y"
        type := some { tensor := some {
          elementType := some 1
          shape := some { dims := [{}, { extent := some (.value 3) }] } } } }] }

/-- One input is left, and the output has the scale of the later constant. -/
theorem constantInput_loads :
    (∀ outcome, (Metadata.ofBytes constantInput.encode).outcome = outcome
        ↔ Loads constantInput outcome)
      ∧ ((∃ e, (Metadata.ofBytes constantInput.encode).outcome = .error e)
        ↔ constantInput.Faulty)
      ∧ (Metadata.ofBytes constantInput.encode).outcome = .ok {
        modelVersion := 0
        producerName := ""
        producerVersion := ""
        inputs := [⟨"x", [-1, 3], .int8, .none⟩]
        outputs := [⟨"y", [-1, 3], .float32, ⟨⟨0x3E800000⟩, 0⟩⟩] } := by
  obtain ⟨hloads, hfaulty⟩ :=
    Model.encode_loads constantInput (by decide +kernel)
  refine ⟨hloads, hfaulty, ?_⟩
  rw [Metadata.ofBytes_encode (by decide +kernel)]
  rfl

end DetectorHeader.Onnx
