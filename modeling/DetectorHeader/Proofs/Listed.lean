/-
What a model of either format has for the quantization of its inputs and
outputs, and what is made of it (`LoadedModel.ofBytes_listed`).

A model lists its inputs and outputs, and has scales and zero points for them:
in a TFLite model they are in the tensor, in an ONNX model they are constants.
A model that is loaded has a slot for each that is listed, with the scale and
the zero point if there is one of each, and what is logged as a warning on the
way is what those that are listed give cause for, in order.
-/
import DetectorHeader.LoadedModel
import DetectorHeader.Proofs.Onnx.Loader
import DetectorHeader.Proofs.Onnx.Recovery
import DetectorHeader.Proofs.Tflite.Extension
import DetectorHeader.Proofs.Tflite.Reference

namespace DetectorHeader

open Recorded

-- ============================================================ what is listed

/-- Scales and zero points that are stored for a tensor, and the axis that they
go along where the format has one. -/
structure Channels where
  scales : List Binary32
  zeroPoints : List Int64
  axis : Option Int32

/-- An input or output that a model lists, by its name, with what is stored for
its quantization. -/
structure Listed where
  name : String
  channels : Option Channels

/-- Whether a warning is due: in a TFLite model for several scales, in an ONNX
model for anything but one scale and one zero point. -/
def Channels.isReported (format : Format) (c : Channels) : Bool :=
  match format with
  | .tflite => 1 < c.scales.length
  | .onnx => c.scales.length ≠ 1 || c.zeroPoints.length ≠ 1

/-- The quantization of the tensor as a whole, where there is exactly one scale
and exactly one zero point. -/
def Channels.quantization (c : Channels) : Quantization :=
  match c.scales, c.zeroPoints with
  | [scale], [zeroPoint] => ⟨scale, zeroPoint⟩
  | _, _ => .none

/-- There is no quantization of the tensor as a whole. -/
theorem Channels.quantization_of_ne {c : Channels}
    (h : c.scales.length ≠ 1 ∨ c.zeroPoints.length ≠ 1) :
    c.quantization = .none := by
  unfold quantization
  split
  · rename_i hscales hzeroPoints
    rw [hscales, hzeroPoints] at h
    rcases h with h | h
    · exact absurd rfl h
    · exact absurd rfl h
  · rfl

namespace Listed

/-- The quantization of the tensor as a whole. -/
def quantization (e : Listed) : Quantization :=
  e.channels.elim .none Channels.quantization

/-- The warnings that are given for it. -/
def warnings (format : Format) (e : Listed) : List Event :=
  (e.channels.filter (·.isReported format)).toList.map fun c =>
    .perChannel e.name c.scales.length c.axis

/-- The slot has the name, and the quantization of the tensor as a whole. -/
structure Makes (e : Listed) (slot : Slot) : Prop where
  name : slot.name = e.name
  quantization : slot.quantization = e.quantization

/-- A tensor that is reported is named in one warning. -/
theorem warnings_of_reported {format : Format} {name : String} {c : Channels}
    (h : c.isReported format = true) :
    (⟨name, some c⟩ : Listed).warnings format
      = [.perChannel name c.scales.length c.axis] := by
  unfold warnings
  dsimp only
  rw [Option.filter_some_pos h]
  rfl

/-- One that is not is named in none. -/
theorem warnings_of_not_reported {format : Format} {name : String}
    {c : Channels} (h : c.isReported format = false) :
    (⟨name, some c⟩ : Listed).warnings format = [] := by
  unfold warnings
  dsimp only
  rw [Option.filter_some_neg h]
  rfl

/-- All of them are shown to every reader of the log. -/
theorem shown_warnings (format : Format) (listed : List Listed) :
    shown false (listed.flatMap (warnings format))
      = listed.flatMap (warnings format) := by
  apply shown_of_warnings
  intro event hevent
  obtain ⟨e, -, hevent⟩ := List.mem_flatMap.mp hevent
  obtain ⟨c, -, rfl⟩ := List.mem_map.mp hevent
  rfl

end Listed

-- ================================================================== TFLite

namespace Tflite

/-- What a tensor has for its quantization. -/
def QuantizationTable.channels (q : QuantizationTable) : Channels where
  scales := q.scale.getD []
  zeroPoints := q.zeroPoint.getD []
  axis := some q.quantizedDimension

/-- A tensor that is listed. -/
def Tensor.listed (t : Tensor) : Listed where
  name := t.name.getD ""
  channels := t.quantization.map (·.channels)

section

variable {σ τ : Type}

/-- The indices that a subgraph lists for a side. -/
def Subgraph.indices (g : Subgraph τ) : Side → Option (List Int32)
  | .input => g.inputs
  | .output => g.outputs

/-- It is the tensor that the index is of. `Stands` tells which tensor an
element of the list stands for. -/
def ListedAt (Stands : τ → Tensor → Prop) (tensors : List τ) (index : Int32)
    (e : Listed) : Prop :=
  ∃ place t, TensorAt tensors index place ∧ Stands place t ∧ e = t.listed

/-- The tensors that a subgraph lists for a side. -/
def Subgraph.Has (Stands : τ → Tensor → Prop) (g : Subgraph τ) (side : Side)
    (listed : List Listed) : Prop :=
  ∃ indices tensors, g.indices side = some indices ∧ g.tensors = some tensors
    ∧ List.Forall₂ (ListedAt Stands tensors) indices listed

/-- A warning is logged for a tensor just when one is due. -/
theorem QuantizationTable.events_perTensor (q : QuantizationTable)
    (name : String) :
    (q.perTensor name).events
      = (⟨name, some q.channels⟩ : Listed).warnings .tflite := by
  -- zero points make a difference beside exactly one scale only
  obtain ⟨scale, zeroPoint, axis⟩ := q
  rcases scale with _ | _ | ⟨a, _ | ⟨b, scales⟩⟩
  · rfl
  · rfl
  · rcases zeroPoint with _ | _ | ⟨z, _ | ⟨y, zs⟩⟩ <;> rfl
  · have hseveral : 1 < (a :: b :: scales).length := by simp
    have hreported : Channels.isReported .tflite
        ⟨a :: b :: scales, zeroPoint.getD [], some axis⟩ = true :=
      decide_eq_true hseveral
    refine Eq.trans ?_ (Listed.warnings_of_reported hreported).symm
    unfold perTensor
    dsimp only
    rw [if_pos hseveral]
    rfl

/-- The slot that describes a tensor is what is due to it. -/
theorem Tensor.makes_described (t : Tensor) : t.listed.Makes t.described := by
  refine ⟨rfl, ?_⟩
  unfold described wholeQuantization listed Listed.quantization
  dsimp only
  rcases t.quantization with _ | ⟨_ | _ | ⟨a, _ | ⟨b, scales⟩⟩, zeroPoint, axis⟩
  · rfl
  · rfl
  · rfl
  · rcases zeroPoint with _ | _ | ⟨z, _ | ⟨y, zs⟩⟩ <;> rfl
  · rfl

/-- Making the slot of a tensor logs the warnings that are due. -/
theorem Tensor.events_slot (t : Tensor) :
    t.slot.events = t.listed.warnings .tflite := by
  unfold slot listed
  dsimp only
  cases hq : t.quantization with
  | none => rfl
  | some q =>
      dsimp only
      rw [events_bind_of_ok (QuantizationTable.outcome_perTensor _ t hq),
        QuantizationTable.events_perTensor, events_pure, List.append_nil]
      rfl

/-- Behind a slot that is picked there is a listed tensor. -/
theorem exists_listed_of_pick {read : τ → Except Error Tensor} {side : Side}
    {tensors : List τ} {index : Int32} {slot : Slot}
    (h : (pick read side tensors index).outcome = .ok slot) :
    ∃ e, ListedAt (fun place t => read place = .ok t) tensors index e
      ∧ e.Makes slot
      ∧ (pick read side tensors index).events = e.warnings .tflite := by
  obtain ⟨place, t, hplace, hread⟩ := exists_of_outcome_pick h
  rw [pick_of_tensorAt hplace hread] at h ⊢
  rw [t.outcome_slot] at h
  cases h
  exact ⟨t.listed, ⟨place, t, hplace, hread, rfl⟩, t.makes_described,
    t.events_slot⟩

/-- Behind the slots of a side there are the tensors that are listed for it. -/
theorem exists_listed_of_slots {read : τ → Except Error Tensor}
    (g : Subgraph τ) (side : Side) {made : List Slot}
    (h : (slots read side (g.indices side) g.tensors).outcome = .ok made) :
    ∃ listed, g.Has (fun place t => read place = .ok t) side listed
      ∧ List.Forall₂ Listed.Makes listed made
      ∧ (slots read side (g.indices side) g.tensors).events
        = listed.flatMap (Listed.warnings .tflite) := by
  cases hindices : g.indices side with
  | none =>
      rw [hindices] at h
      cases h
  | some indices =>
      cases htensors : g.tensors with
      | none =>
          rw [hindices, htensors] at h
          cases h
      | some tensors =>
          rw [hindices, htensors, slots_eq_mapM_pick] at h
          obtain ⟨listed, hlisted, hmade, hevents⟩ :=
            exists_of_mapM (fun _ _ => exists_listed_of_pick) h
          refine ⟨listed, ⟨indices, tensors, hindices, htensors, hlisted⟩,
            hmade, ?_⟩
          rw [slots_eq_mapM_pick, hevents]

/-- Metadata are collected of the first subgraph alone, and so are the warnings
that are logged on the way. -/
theorem Metadata.exists_of_collect {first : σ → Except Error (Subgraph τ)}
    {read : τ → Except Error Tensor} {model : Model σ} {metadata : Metadata}
    (h : (collect first read model).outcome = .ok metadata) :
    ∃ s g, model.first? = some s ∧ first s = .ok g
      ∧ (slots read .input g.inputs g.tensors).outcome = .ok metadata.inputs
      ∧ (slots read .output g.outputs g.tensors).outcome = .ok metadata.outputs
      ∧ shown false (collect first read model).events
        = shown false ((slots read .input g.inputs g.tensors).events
          ++ (slots read .output g.outputs g.tensors).events) := by
  unfold collect at h ⊢
  split at h
  · cases h
  · rename_i s others hcons
    obtain ⟨subgraphs, hsubgraphs, hlist⟩ :
        ∃ subgraphs, model.subgraphs = some subgraphs
          ∧ subgraphs = s :: others := by
      cases hsubgraphs : model.subgraphs with
      | none =>
          rw [hsubgraphs] at hcons
          cases hcons
      | some subgraphs =>
          rw [hsubgraphs] at hcons
          exact ⟨subgraphs, rfl, hcons⟩
    have hfirst : model.first? = some s := by
      unfold Model.first?
      rw [hsubgraphs, hlist]
      rfl
    rw [outcome_when, outcome_bind_eq_ok_iff] at h
    obtain ⟨g, hg, h⟩ := h
    obtain ⟨inputs, hinputs, h⟩ := outcome_bind_eq_ok_iff.mp h
    obtain ⟨outputs, houtputs, h⟩ := outcome_bind_eq_ok_iff.mp h
    cases h
    refine ⟨s, g, hfirst, hg, hinputs, houtputs, ?_⟩
    -- That there are several subgraphs is no warning, so it is not among those
    -- shown.
    have hlevel : (Event.severalSubgraphs (others.length + 1)).level
        ≠ .warning := fun h => nomatch h
    refine (shown_when hlevel _).trans (congrArg (shown false) ?_)
    rw [events_bind_of_ok hg, events_bind_of_ok hinputs,
      events_bind_of_ok houtputs, events_pure, events_ofExcept,
      List.append_nil, List.nil_append]

end

-- ------------------------------------------------------------------- in bytes

/-- The tensor can be read at the place. -/
def TensorReadAt (b : FlatBuffer.Buffer) (place : Nat) (t : Tensor) : Prop :=
  Read.tensor b place = some t

/-- The subgraph that runs, with the places of its tensors, as a verified
buffer has it. The tensors and the other subgraphs need not be readable. -/
structure Runs (b : FlatBuffer.Buffer) (g : Subgraph Nat) : Prop where
  verified : verify b = .ok ()
  first : ∃ m place, Read.root .place b = some m ∧ m.first? = some place
    ∧ Read.subgraph .place b place = some g

/-- Only one subgraph runs. -/
theorem Runs.unique {b : FlatBuffer.Buffer} {g g' : Subgraph Nat}
    (h : Runs b g) (h' : Runs b g') : g = g' := by
  obtain ⟨m, place, hm, hplace, hg⟩ := h.first
  obtain ⟨m', place', hm', hplace', hg'⟩ := h'.first
  cases hm.symm.trans hm'
  cases hplace.symm.trans hplace'
  exact Option.some.inj (hg.symm.trans hg')

/-- What the loader reads is what the reader gives. -/
theorem checked_eq_ok_iff {α : Type} {read : Option α} {a : α} :
    (checked read).mapError .flatBuffer = (.ok a : Except Error α)
      ↔ read = some a := by
  cases read with
  | none => simp [checked, Except.mapError]
  | some a' => simp [checked, Except.mapError]

/-- What the loader takes for verified is verified. -/
theorem verify_eq_ok_of_loader {b : FlatBuffer.Buffer} {u : Unit}
    (h : (verify b).mapError .flatBuffer = (.ok u : Except Error Unit)) :
    verify b = .ok () := by
  cases hverify : verify b with
  | error fault =>
      rw [hverify] at h
      cases h
  | ok u => rfl

/-- The tensor at a place, as the loader reads it. -/
def Tensor.readAt (b : FlatBuffer.Buffer) (place : Nat) :
    Except Error Tensor :=
  (checked (Read.tensor b place)).mapError .flatBuffer

/-- Bytes that are loaded have a subgraph that runs. The slots are those of the
tensors that it lists, and the warnings are logged for these. -/
theorem Metadata.exists_of_ofBytes {bytes : Bytes} {metadata : Metadata}
    (h : (ofBytes bytes).outcome = .ok metadata) :
    ∃ g, Runs bytes.toArray g
      ∧ (slots (Tensor.readAt bytes.toArray) .input g.inputs g.tensors).outcome
        = .ok metadata.inputs
      ∧ (slots (Tensor.readAt bytes.toArray) .output g.outputs
        g.tensors).outcome = .ok metadata.outputs
      ∧ shown false (ofBytes bytes).events = shown false
        ((slots (Tensor.readAt bytes.toArray) .input g.inputs g.tensors).events
        ++ (slots (Tensor.readAt bytes.toArray) .output g.outputs
          g.tensors).events) := by
  unfold ofBytes at h ⊢
  dsimp only at h ⊢
  rw [outcome_when, outcome_bind_eq_ok_iff] at h
  obtain ⟨u, hverify, h⟩ := h
  obtain ⟨m, hroot, h⟩ := outcome_bind_eq_ok_iff.mp h
  obtain ⟨place, g, hfirst, hg, hinputs, houtputs, hlog⟩ := exists_of_collect h
  have hruns : Runs bytes.toArray g :=
    ⟨verify_eq_ok_of_loader hverify, m, place, checked_eq_ok_iff.mp hroot,
      hfirst, checked_eq_ok_iff.mp hg⟩
  have hlevel : Event.noIdentifier.level ≠ .warning := by decide
  refine ⟨g, hruns, hinputs, houtputs, (shown_when hlevel _).trans ?_⟩
  rw [events_bind_of_ok hverify, events_bind_of_ok hroot, events_ofExcept,
    events_ofExcept, List.nil_append, List.nil_append]
  exact hlog

/-- There is a slot for each tensor that is listed, and the warnings are those
that are due to these. -/
theorem exists_listed_of_ofBytes {bytes : Bytes} {metadata : Metadata}
    (h : (Metadata.ofBytes bytes).outcome = .ok metadata) :
    ∃ g inputs outputs, Runs bytes.toArray g
      ∧ g.Has (TensorReadAt bytes.toArray) .input inputs
      ∧ g.Has (TensorReadAt bytes.toArray) .output outputs
      ∧ List.Forall₂ Listed.Makes inputs metadata.inputs
      ∧ List.Forall₂ Listed.Makes outputs metadata.outputs
      ∧ shown false (Metadata.ofBytes bytes).events
        = (inputs ++ outputs).flatMap (Listed.warnings .tflite) := by
  obtain ⟨g, hruns, hinputs, houtputs, hlog⟩ := Metadata.exists_of_ofBytes h
  obtain ⟨listedIn, hasIn, hmadeIn, heventsIn⟩ :=
    exists_listed_of_slots g .input hinputs
  obtain ⟨listedOut, hasOut, hmadeOut, heventsOut⟩ :=
    exists_listed_of_slots g .output houtputs
  simp only [Tensor.readAt, checked_eq_ok_iff] at hasIn hasOut
  refine ⟨g, listedIn, listedOut, hruns, hasIn, hasOut, hmadeIn, hmadeOut, ?_⟩
  rw [hlog, ← Listed.shown_warnings, List.flatMap_append]
  exact congrArg (shown false) (congrArg₂ (· ++ ·) heventsIn heventsOut)

section

variable {τ : Type} {Stands : τ → Tensor → Prop}

/-- The tensors of a list are listed alike by what stands for them. -/
theorem listedAt_iff (hunique : Relator.RightUnique Stands) {places : List τ}
    {tensors : List Tensor} (h : List.Forall₂ Stands places tensors)
    {index : Int32} {e : Listed} :
    ListedAt Stands places index e ↔ ListedAt Eq tensors index e := by
  -- At each index both have an element, or neither has.
  have hrel := rel_getElem? h index.toInt.toNat
  constructor
  · rintro ⟨place, t, ⟨hindex, hplace⟩, ht, rfl⟩
    rw [hplace] at hrel
    cases hwhole : tensors[index.toInt.toNat]? with
    | none =>
        rw [hwhole] at hrel
        cases hrel
    | some t' =>
        rw [hwhole] at hrel
        cases hrel with
        | some ht' =>
            cases hunique ht ht'
            exact ⟨t, t, ⟨hindex, hwhole⟩, rfl, rfl⟩
  · rintro ⟨t, _, ⟨hindex, hwhole⟩, rfl, rfl⟩
    rw [hwhole] at hrel
    cases hplace : places[index.toInt.toNat]? with
    | none =>
        rw [hplace] at hrel
        cases hrel
    | some place =>
        rw [hplace] at hrel
        cases hrel with
        | some ht => exact ⟨place, t, ⟨hindex, hplace⟩, ht, rfl⟩

/-- A subgraph lists the same tensors as it does by what stands for them. -/
theorem Subgraph.has_iff (hunique : Relator.RightUnique Stands)
    {g : Subgraph Tensor} {places : Option (List τ)}
    (h : Option.Rel (List.Forall₂ Stands) places g.tensors) {side : Side}
    {listed : List Listed} :
    { g with tensors := places }.Has Stands side listed
      ↔ g.Has Eq side listed := by
  obtain ⟨name, inputs, outputs, tensors⟩ := g
  dsimp only at h ⊢
  cases h with
  | none =>
      refine iff_of_false ?_ ?_
      · rintro ⟨_, _, _, hnone, _⟩
        cases hnone
      · rintro ⟨_, _, _, hnone, _⟩
        cases hnone
  | some h =>
      have hlisted : ∀ index e, ListedAt Stands _ index e
          ↔ ListedAt Eq _ index e := fun _ _ => listedAt_iff hunique h
      constructor
      · rintro ⟨indices, _, hindices, ⟨⟩, hall⟩
        exact ⟨indices, _, hindices, rfl,
          hall.imp fun index e => (hlisted index e).mp⟩
      · rintro ⟨indices, _, hindices, ⟨⟩, hall⟩
        exact ⟨indices, _, hindices, rfl,
          hall.imp fun index e => (hlisted index e).mpr⟩

end

/-- Of subgraphs that correspond the first ones do. -/
theorem Model.rel_first? {σ σ' : Type} {R : σ → σ' → Prop} {m : Model σ}
    {m' : Model σ'}
    (h : Option.Rel (List.Forall₂ R) m.subgraphs m'.subgraphs) :
    Option.Rel R m.first? m'.first? := by
  unfold first?
  generalize m.subgraphs = subgraphs, m'.subgraphs = subgraphs' at h
  cases h with
  | none => exact .none
  | some h =>
      cases h with
      | nil => exact .none
      | cons hR _ => exact .some hR

/-- Where a model can be read as a whole, its first subgraph runs, with places
for its tensors. -/
theorem exists_runs_of_decode {bytes : Bytes} {m : WholeModel}
    {whole : Subgraph Tensor} (h : WholeModel.decode bytes = .ok m)
    (hwhole : m.first? = some whole) :
    ∃ places, Runs bytes.toArray { whole with tensors := places }
      ∧ Option.Rel (List.Forall₂ (TensorReadAt bytes.toArray)) places
        whole.tensors := by
  obtain ⟨hverify, hroot⟩ := WholeModel.decode_eq_ok_iff.mp h
  obtain ⟨subgraphs, hsubgraphs, hrel⟩ := root_through hroot
  have hfirst := Model.rel_first? (m := { m with subgraphs }) hrel
  generalize hplace : Model.first? _ = first at hfirst
  rw [hwhole] at hfirst
  cases hfirst with
  | @some place _ hread =>
      obtain ⟨places, hplaces, htensors⟩ := subgraph_through hread
      exact ⟨places, ⟨hverify, _, place, hsubgraphs, hplace, hplaces⟩, htensors⟩

/-- And nothing else runs. -/
theorem Runs.exists_first? {bytes : Bytes} {m : WholeModel}
    {g : Subgraph Nat} (hruns : Runs bytes.toArray g)
    (h : WholeModel.decode bytes = .ok m) :
    ∃ whole, m.first? = some whole := by
  obtain ⟨-, hroot⟩ := WholeModel.decode_eq_ok_iff.mp h
  obtain ⟨subgraphs, hsubgraphs, hrel⟩ := root_through hroot
  obtain ⟨_, place, hm, hplace, -⟩ := hruns.first
  cases hsubgraphs.symm.trans hm
  have hfirst := Model.rel_first? (m := { m with subgraphs }) hrel
  rw [hplace] at hfirst
  generalize m.first? = first at hfirst
  cases hfirst with
  | some _ => exact ⟨_, rfl⟩

/-- Where a model can be read as a whole, the subgraph that runs lists for a
side what the first subgraph of the model does. -/
theorem has_iff_of_decode {bytes : Bytes} {m : WholeModel} {side : Side}
    {listed : List Listed} (h : WholeModel.decode bytes = .ok m) :
    (∃ g, Runs bytes.toArray g ∧ g.Has (TensorReadAt bytes.toArray) side listed)
      ↔ ∃ g, m.first? = some g ∧ g.Has Eq side listed := by
  have hunique : Relator.RightUnique (TensorReadAt bytes.toArray) :=
    fun _ _ _ ht ht' => Option.some.inj (ht.symm.trans ht')
  constructor
  · rintro ⟨g, hruns, hhas⟩
    obtain ⟨whole, hwhole⟩ := hruns.exists_first? h
    obtain ⟨places, hplaces, hrel⟩ := exists_runs_of_decode h hwhole
    cases hruns.unique hplaces
    exact ⟨whole, hwhole, (Subgraph.has_iff hunique hrel).mp hhas⟩
  · rintro ⟨whole, hwhole, hhas⟩
    obtain ⟨places, hplaces, hrel⟩ := exists_runs_of_decode h hwhole
    exact ⟨_, hplaces, (Subgraph.has_iff hunique hrel).mpr hhas⟩

end Tflite

-- ==================================================================== ONNX

namespace Onnx

/-- What a graph has for the quantization of a value. -/
inductive Graph.Stores (g : Graph) (name : String) : Option Channels → Prop
  | nothing (h : ∀ scale zeroPoint, ¬ g.HasParameters name scale zeroPoint) :
      Stores g name none
  | constants {scale zeroPoint scales zs}
      (hparameters : g.HasParameters name scale zeroPoint)
      (hscales : scale.ReadsScales (.ok scales))
      (hzs : ReadsZeroPoint zeroPoint (.ok zs)) :
      Stores g name (some ⟨scales, zs, none⟩)

/-- A graph value that is listed. Nothing is stored for an input, which no
operation gives. -/
inductive Graph.ListedAs (g : Graph) : Side → ValueInfo → Listed → Prop
  | input {v} : ListedAs g .input v ⟨v.name.getD "", none⟩
  | output {v channels} (h : g.Stores (v.name.getD "") channels) :
      ListedAs g .output v ⟨v.name.getD "", channels⟩

/-- The values that a graph lists for a side. Constants that are also listed as
inputs are none. -/
def Graph.values (g : Graph) : Side → List ValueInfo
  | .input => g.input.filter (g.Retains ·)
  | .output => g.output

/-- The values that a graph lists for a side, with what it has for them. -/
def Graph.Has (g : Graph) (side : Side) (listed : List Listed) : Prop :=
  List.Forall₂ (g.ListedAs side) (g.values side) listed

namespace Graph

variable {g : Graph} {name : String}

/-- One operation gives a value. -/
theorem GivenBy.unique {node node' : Node} (h : g.GivenBy name node)
    (h' : g.GivenBy name node') : node = node' :=
  Option.some.inj ((producer?_eq_some_iff.mpr h).symm.trans
    (producer?_eq_some_iff.mpr h'))

theorem GivenBy.mem {node : Node} (h : g.GivenBy name node) :
    node ∈ g.node ∧ name ∈ node.output := by
  obtain ⟨before, after, hnode, hname, -⟩ := h
  rw [hnode]
  exact ⟨by simp, hname⟩

/-- A quantization that is found is that of the channels which are stored, and
their warnings are what is logged. -/
theorem Recovers.exists_stores {q : Quantization} {log : List Event}
    (h : g.Recovers name (.ok q) log) :
    ∃ channels, g.Stores name channels
      ∧ q = (⟨name, channels⟩ : Listed).quantization
      ∧ log = (⟨name, channels⟩ : Listed).warnings .onnx := by
  cases h with
  | notGiven h =>
      refine ⟨none, .nothing ?_, rfl, rfl⟩
      rintro scale zeroPoint ⟨node, hnode, -⟩
      exact h node hnode.mem.1 hnode.mem.2
  | otherOperation hnode h =>
      refine ⟨none, .nothing ?_, rfl, rfl⟩
      rintro scale zeroPoint ⟨node', hnode', hquantizes, -⟩
      exact h (hnode.unique hnode' ▸ hquantizes)
  | @single scale zeroPoint a z hparameters ha hz =>
      exact ⟨_, .constants hparameters ha hz, rfl, rfl⟩
  | @notSingle scale zeroPoint scales zs hparameters hscales hzs h =>
      refine ⟨_, .constants hparameters hscales hzs, ?_, ?_⟩
      · exact (Channels.quantization_of_ne h).symm
      · have hreported : Channels.isReported .onnx ⟨scales, zs, none⟩
            = true := by
          simpa [Channels.isReported] using h
        rw [Listed.warnings_of_reported hreported]

end Graph

/-- Behind the slot of an output there is what the graph stores for it. -/
theorem exists_listed_of_outputSlot {g : Graph} {v : ValueInfo} {slot : Slot}
    (h : (g.outputSlot v).outcome = .ok slot) :
    ∃ e, g.ListedAs .output v e ∧ e.Makes slot
      ∧ (g.outputSlot v).events = e.warnings .onnx := by
  obtain ⟨q, log, hrecovers, hslot⟩ :=
    Graph.outcome_outputSlot_eq_ok_iff.mp h
  have hq : (g.quantization v.nameText).outcome = .ok q :=
    Graph.outcome_quantization_iff.mpr ⟨log, hrecovers⟩
  have hevents : (g.quantization v.nameText).events = log := by
    rw [show g.quantization v.nameText = _ from hrecovers.quantization_eq,
      events_mk]
  obtain ⟨channels, hstores, hquantization, hlog⟩ := hrecovers.exists_stores
  refine ⟨_, .output hstores, ⟨hslot.name, ?_⟩, ?_⟩
  · rw [hslot.quantization, hquantization]
  · rw [← hlog]
    refine (events_bind_of_ok hq).trans ?_
    rw [events_ofExcept, List.append_nil, hevents]

/-- Behind the slot of an input there is a listed value. -/
theorem exists_listed_of_input (g : Graph) {v : ValueInfo} {slot : Slot}
    (h : (Recorded.ofExcept (v.slot .none)).outcome = .ok slot) :
    ∃ e, g.ListedAs .input v e ∧ e.Makes slot
      ∧ (Recorded.ofExcept (v.slot .none)).events = e.warnings .onnx := by
  have hslot := slot_eq_ok_iff.mp h
  exact ⟨_, .input, ⟨hslot.name, hslot.quantization⟩, rfl⟩

/-- A model that is loaded has a slot for each value that its graph lists, and
the warnings are those that are due to these. -/
theorem exists_listed_of_ofModel {m : Model} {metadata : Metadata}
    (h : (Metadata.ofModel m).outcome = .ok metadata) :
    ∃ g inputs outputs, m.graph = some g
      ∧ g.Has .input inputs ∧ g.Has .output outputs
      ∧ List.Forall₂ Listed.Makes inputs metadata.inputs
      ∧ List.Forall₂ Listed.Makes outputs metadata.outputs
      ∧ (Metadata.ofModel m).events
        = (inputs ++ outputs).flatMap (Listed.warnings .onnx) := by
  unfold Metadata.ofModel at h ⊢
  cases hgraph : m.graph with
  | none =>
      rw [hgraph] at h
      cases h
  | some g =>
      rw [hgraph] at h
      dsimp only at h ⊢
      rw [show g.isFed = fun v => decide (g.Retains v) from funext g.isFed_eq]
        at h ⊢
      obtain ⟨inputs, hinputs, h⟩ := outcome_bind_eq_ok_iff.mp h
      obtain ⟨outputs, houtputs, h⟩ := outcome_bind_eq_ok_iff.mp h
      cases h
      obtain ⟨listedIn, hasIn, hmadeIn, heventsIn⟩ :=
        exists_of_mapM (fun _ _ => exists_listed_of_input g) hinputs
      obtain ⟨listedOut, hasOut, hmadeOut, heventsOut⟩ :=
        exists_of_mapM (fun _ _ => exists_listed_of_outputSlot) houtputs
      refine ⟨g, listedIn, listedOut, rfl, hasIn, hasOut, hmadeIn, hmadeOut, ?_⟩
      rw [events_bind_of_ok hinputs, events_bind_of_ok houtputs, events_pure,
        List.append_nil, heventsIn, List.flatMap_append]
      exact congrArg _ heventsOut

/-- Bytes that are loaded hold a model, and are loaded as it. -/
theorem exists_decode_of_ofBytes {bytes : Bytes} {metadata : Metadata}
    (h : (Metadata.ofBytes bytes).outcome = .ok metadata) :
    ∃ m, Model.decode bytes = .ok m
      ∧ Metadata.ofBytes bytes = Metadata.ofModel m := by
  unfold Metadata.ofBytes at h ⊢
  cases hdecode : Model.decode bytes with
  | error fault =>
      rw [hdecode] at h
      cases h
  | ok m => exact ⟨m, rfl, rfl⟩

end Onnx

-- ================================================================== formats

namespace LoadedModel

/-- What the model in the bytes, which is of the format, lists for a side. -/
inductive Lists (bytes : Bytes) : Format → Side → List Listed → Prop
  | tflite {g side listed} (hg : Tflite.Runs bytes.toArray g)
      (h : g.Has (Tflite.TensorReadAt bytes.toArray) side listed) :
      Lists bytes .tflite side listed
  | onnx {m g side listed} (hm : Onnx.Model.decode bytes = .ok m)
      (hg : m.graph = some g) (h : g.Has side listed) :
      Lists bytes .onnx side listed

/-- Where a TFLite model can be read as a whole, it is what its first subgraph
lists. -/
theorem lists_tflite_iff {bytes : Bytes} {m : Tflite.WholeModel} {side : Side}
    {listed : List Listed} (hm : Tflite.WholeModel.decode bytes = .ok m) :
    Lists bytes .tflite side listed
      ↔ ∃ g, m.first? = some g ∧ g.Has Eq side listed := by
  rw [← Tflite.has_iff_of_decode hm]
  constructor
  · intro h
    cases h with
    | tflite hg h => exact ⟨_, hg, h⟩
  · rintro ⟨g, hg, h⟩
    exact .tflite hg h

theorem ofBytes_tflite (bytes : Bytes) :
    ofBytes .tflite bytes = tflite <$> Tflite.Metadata.ofBytes bytes := rfl

theorem ofBytes_onnx (bytes : Bytes) :
    ofBytes .onnx bytes = onnx <$> Onnx.Metadata.ofBytes bytes := rfl

/-- A model that is loaded has a slot for each input and output that it lists,
and what is logged as a warning is what these give cause for. -/
theorem ofBytes_listed {format : Format} {bytes : Bytes} {model : LoadedModel}
    (h : (ofBytes format bytes).outcome = .ok model) :
    ∃ inputs outputs, Lists bytes format .input inputs
      ∧ Lists bytes format .output outputs
      ∧ List.Forall₂ Listed.Makes inputs (model.slots .input)
      ∧ List.Forall₂ Listed.Makes outputs (model.slots .output)
      ∧ shown false (ofBytes format bytes).events
        = (inputs ++ outputs).flatMap (Listed.warnings format) := by
  cases format with
  | tflite =>
      rw [ofBytes_tflite] at h ⊢
      obtain ⟨metadata, hmetadata, rfl⟩ := outcome_map_eq_ok_iff.mp h
      obtain ⟨g, inputs, outputs, hg, hasIn, hasOut, hmadeIn, hmadeOut, hlog⟩ :=
        Tflite.exists_listed_of_ofBytes hmetadata
      refine ⟨inputs, outputs, .tflite hg hasIn, .tflite hg hasOut,
        hmadeIn, hmadeOut, ?_⟩
      rw [events_map, hlog]
  | onnx =>
      rw [ofBytes_onnx] at h ⊢
      obtain ⟨metadata, hmetadata, rfl⟩ := outcome_map_eq_ok_iff.mp h
      obtain ⟨m, hm, hload⟩ := Onnx.exists_decode_of_ofBytes hmetadata
      rw [hload] at hmetadata
      obtain ⟨g, inputs, outputs, hg, hasIn, hasOut, hmadeIn, hmadeOut, hlog⟩ :=
        Onnx.exists_listed_of_ofModel hmetadata
      refine ⟨inputs, outputs, .onnx hm hg hasIn, .onnx hm hg hasOut,
        hmadeIn, hmadeOut, ?_⟩
      rw [events_map, hload, hlog, Listed.shown_warnings]

end LoadedModel

end DetectorHeader
