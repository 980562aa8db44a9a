/-
The quantization of a graph value against a description of the graph
(`Graph.quantization_iff_recovers`).

`g.Recovers name outcome log` says where the quantization of a value comes
from, without a lookup: only the first operation that gives the value counts,
and only if it is one of the two that have a scale and a zero point. Both have
to be constants, of which the last one of a name counts, before either of them
is read. A scale and a zero point are the quantization if there is one of each;
any other numbers of them are reported.
-/
import DetectorHeader.Proofs.Log
import DetectorHeader.Proofs.Onnx.Elements

namespace DetectorHeader.Onnx

open Recorded

-- ============================================================= description

namespace Graph

variable (g : Graph)

/-- The operation is the first one that has the name among its outputs. -/
def GivenBy (name : String) (node : Node) : Prop :=
  ∃ before after, g.node = before ++ node :: after ∧ name ∈ node.output
    ∧ ∀ earlier ∈ before, name ∉ earlier.output

/-- The constant is the last one of the name, which is not the empty one. -/
def HasConstant (name : String) (t : Tensor) : Prop :=
  name ≠ "" ∧ ∃ before after, g.initializer = before ++ t :: after
    ∧ t.name = some name ∧ ∀ later ∈ after, later.name ≠ some name

/-- The zero point of an operation is a constant, or there is none. -/
inductive HasZeroPoint (node : Node) : Option Tensor → Prop
  | absent (h : node.inputName 2 = "") : HasZeroPoint node none
  | constant {t} (h : g.HasConstant (node.inputName 2) t) :
      HasZeroPoint node (some t)

/-- The value is given by an operation with a scale and a zero point, and these
are the constants for them. -/
def HasParameters (name : String) (scale : Tensor)
    (zeroPoint : Option Tensor) : Prop :=
  ∃ node, g.GivenBy name node ∧ node.Quantizes
    ∧ g.HasConstant (node.inputName 1) scale ∧ g.HasZeroPoint node zeroPoint

end Graph

/-- What comes of reading a zero point, which is 0 if it is not there. -/
inductive ReadsZeroPoint : Option Tensor → Except Error (List Int64) → Prop
  | absent : ReadsZeroPoint none (.ok [0])
  | constant {t outcome} (h : t.ReadsZeroPoints outcome) :
      ReadsZeroPoint (some t) outcome

/-- What comes of the quantization of a value, and what is logged. -/
inductive Graph.Recovers (g : Graph) (name : String) :
    Except Error Quantization → List Event → Prop
  | notGiven (h : ∀ node ∈ g.node, name ∉ node.output) :
      Recovers g name (.ok .none) []
  | otherOperation {node} (hnode : g.GivenBy name node)
      (h : ¬ node.Quantizes) : Recovers g name (.ok .none) []
  | computedScale {node} (hnode : g.GivenBy name node)
      (hquantizes : node.Quantizes)
      (h : ∀ t, ¬ g.HasConstant (node.inputName 1) t) :
      Recovers g name
        (.error (.unsupported (.notConstant (node.opType.getD "") .scale
          (node.inputName 1) name))) []
  | computedZeroPoint {node scale} (hnode : g.GivenBy name node)
      (hquantizes : node.Quantizes)
      (hscale : g.HasConstant (node.inputName 1) scale)
      (hname : node.inputName 2 ≠ "")
      (h : ∀ t, ¬ g.HasConstant (node.inputName 2) t) :
      Recovers g name
        (.error (.unsupported (.notConstant (node.opType.getD "") .zeroPoint
          (node.inputName 2) name))) []
  | scaleFault {scale zeroPoint e}
      (hparameters : g.HasParameters name scale zeroPoint)
      (h : scale.ReadsScales (.error e)) : Recovers g name (.error e) []
  | zeroPointFault {scale zeroPoint scales e}
      (hparameters : g.HasParameters name scale zeroPoint)
      (hscales : scale.ReadsScales (.ok scales))
      (h : ReadsZeroPoint zeroPoint (.error e)) :
      Recovers g name (.error e) []
  | single {scale zeroPoint a z}
      (hparameters : g.HasParameters name scale zeroPoint)
      (ha : scale.ReadsScales (.ok [a]))
      (hz : ReadsZeroPoint zeroPoint (.ok [z])) :
      Recovers g name (.ok ⟨a, z⟩) []
  | notSingle {scale zeroPoint scales zs}
      (hparameters : g.HasParameters name scale zeroPoint)
      (hscales : scale.ReadsScales (.ok scales))
      (hzs : ReadsZeroPoint zeroPoint (.ok zs))
      (h : scales.length ≠ 1 ∨ zs.length ≠ 1) :
      Recovers g name (.ok .none) [.perChannel name scales.length none]

-- ================================================================= lookups

namespace Graph

variable {g : Graph} {name : String}

/-- The lookup finds the first operation that gives a value. -/
theorem producer?_eq_some_iff {node : Node} :
    g.producer? name = some node ↔ g.GivenBy name node := by
  unfold producer? GivenBy
  rw [List.find?_eq_some_iff_append]
  simp only [Bool.not_eq_true', List.contains_eq_mem, decide_eq_true_eq,
    decide_eq_false_iff_not]
  constructor
  · rintro ⟨hmem, before, after, hnode, hbefore⟩
    exact ⟨before, after, hnode, hmem, hbefore⟩
  · rintro ⟨before, after, hnode, hmem, hbefore⟩
    exact ⟨hmem, before, after, hnode, hbefore⟩

/-- And none if none gives it. -/
theorem producer?_eq_none_iff :
    g.producer? name = none ↔ ∀ node ∈ g.node, name ∉ node.output := by
  unfold producer?
  rw [List.find?_eq_none]
  simp only [List.contains_iff_mem]

/-- The lookup finds the last constant of a name. -/
theorem constant?_eq_some_iff {t : Tensor} :
    g.constant? name = some t ↔ g.HasConstant name t := by
  unfold constant? HasConstant
  by_cases hname : name = ""
  · rw [if_pos hname]
    exact iff_of_false (fun h => nomatch h) fun h => h.1 hname
  · rw [if_neg hname, List.find?_eq_some_iff_append]
    simp only [decide_eq_true_eq, Bool.not_eq_true', decide_eq_false_iff_not]
    -- the search goes backwards: it has passed over all that stands behind
    constructor
    · rintro ⟨ht, after, before, hreverse, hafter⟩
      refine ⟨hname, before.reverse, after.reverse, ?_, ht, ?_⟩
      · rw [← List.reverse_inj, hreverse]
        simp
      · intro later hlater
        exact hafter later (List.mem_reverse.mp hlater)
    · rintro ⟨-, before, after, hinitializer, ht, hafter⟩
      refine ⟨ht, after.reverse, before.reverse, ?_, ?_⟩
      · rw [hinitializer]
        simp
      · intro later hlater
        exact hafter later (List.mem_reverse.mp hlater)

/-- And none if none has it. -/
theorem constant?_eq_none_iff :
    g.constant? name = none ↔ ∀ t, ¬ g.HasConstant name t := by
  rw [Option.eq_none_iff_forall_ne_some]
  exact forall_congr' fun t => not_congr constant?_eq_some_iff

/-- A parameter that is a constant is found. -/
theorem parameter_of_hasConstant {t : Tensor} (h : g.HasConstant name t)
    (operation : String) (parameter : Parameter) (output : String) :
    g.parameter operation parameter name output = .ok t :=
  parameter_of_constant (constant?_eq_some_iff.mpr h) operation parameter
    output

/-- Another one is reported by its name. -/
theorem parameter_of_not_hasConstant (h : ∀ t, ¬ g.HasConstant name t)
    (operation : String) (parameter : Parameter) (output : String) :
    g.parameter operation parameter name output
      = .error (.unsupported (.notConstant operation parameter name output))
    := by
  unfold Graph.parameter
  rw [constant?_eq_none_iff.mpr h]

/-- A zero point that is a constant, or absent, is found. -/
theorem HasZeroPoint.zeroPoint?_eq {node : Node} {zeroPoint : Option Tensor}
    (h : g.HasZeroPoint node zeroPoint) (output : String) :
    g.zeroPoint? node output = .ok zeroPoint := by
  unfold zeroPoint?
  cases h with
  | absent h => rw [if_pos h]
  | constant h =>
      rw [if_neg h.1, parameter_of_hasConstant h]
      rfl

end Graph

/-- A zero point is read as the description says. -/
theorem readsZeroPoint_iff {zeroPoint : Option Tensor}
    {outcome : Except Error (List Int64)} :
    zeroPoint.elim (.ok [0]) Tensor.zeroPoints = outcome
      ↔ ReadsZeroPoint zeroPoint outcome := by
  cases zeroPoint with
  | none =>
      constructor
      · rintro rfl
        exact .absent
      · rintro ⟨⟩
        rfl
  | some t =>
      rw [Option.elim_some, Tensor.zeroPoints_eq_iff]
      constructor
      · exact .constant
      · intro h
        cases h with
        | constant h => exact h

-- ============================================================ quantization

/-- Anything but one scale and one zero point is reported. -/
theorem ofElements_of_ne {name : String} {scales : List Binary32}
    {zs : List Int64} (h : scales.length ≠ 1 ∨ zs.length ≠ 1) :
    ofElements name scales zs
      = ⟨[.event (.perChannel name scales.length none)], .ok .none⟩ := by
  unfold ofElements
  split
  · rcases h with h | h
    · exact absurd rfl h
    · exact absurd rfl h
  · rfl

namespace Graph

variable {g : Graph} {name : String}

/-- With the constants at hand, what is left is to read them. -/
theorem HasParameters.quantization_eq {scale : Tensor}
    {zeroPoint : Option Tensor} (h : g.HasParameters name scale zeroPoint) :
    g.quantization name = (do
      let scales ← ofExcept scale.scales
      let zeroPoints ← ofExcept (zeroPoint.elim (.ok [0]) Tensor.zeroPoints)
      ofElements name scales zeroPoints) := by
  obtain ⟨node, hnode, hquantizes, hscale, hzeroPoint⟩ := h
  rw [quantization_of_quantizes (producer?_eq_some_iff.mpr hnode) hquantizes,
    parameter_of_hasConstant hscale, ofExcept_ok, pure_bind,
    hzeroPoint.zeroPoint?_eq, ofExcept_ok, pure_bind]

/-- A quantization is found as the description says. -/
theorem Recovers.quantization_eq {outcome : Except Error Quantization}
    {log : List Event} (h : g.Recovers name outcome log) :
    g.quantization name = ⟨log.map .event, outcome⟩ := by
  cases h with
  | notGiven h =>
      unfold quantization
      rw [producer?_eq_none_iff.mpr h]
      rfl
  | otherOperation hnode h =>
      exact quantization_of_other (producer?_eq_some_iff.mpr hnode) h
  | computedScale hnode hquantizes h =>
      rw [quantization_of_quantizes (producer?_eq_some_iff.mpr hnode)
        hquantizes, parameter_of_not_hasConstant h]
      rfl
  | computedZeroPoint hnode hquantizes hscale hname h =>
      rw [quantization_of_quantizes (producer?_eq_some_iff.mpr hnode)
        hquantizes, parameter_of_hasConstant hscale, ofExcept_ok, pure_bind]
      unfold zeroPoint?
      rw [if_neg hname, parameter_of_not_hasConstant h]
      rfl
  | scaleFault hparameters h =>
      rw [hparameters.quantization_eq, h.scales_eq]
      rfl
  | zeroPointFault hparameters hscales h =>
      rw [hparameters.quantization_eq, hscales.scales_eq,
        readsZeroPoint_iff.mpr h]
      rfl
  | single hparameters ha hz =>
      rw [hparameters.quantization_eq, ha.scales_eq, readsZeroPoint_iff.mpr hz]
      rfl
  | notSingle hparameters hscales hzs h =>
      rw [hparameters.quantization_eq, hscales.scales_eq,
        readsZeroPoint_iff.mpr hzs, ofExcept_ok, pure_bind, ofExcept_ok,
        pure_bind, ofElements_of_ne h]
      rfl

/-- Constants that are found are read in one way or another. -/
theorem HasParameters.exists_recovers {scale : Tensor}
    {zeroPoint : Option Tensor} (h : g.HasParameters name scale zeroPoint) :
    ∃ outcome log, g.Recovers name outcome log := by
  cases hscales : scale.scales with
  | error e =>
      exact ⟨_, _, .scaleFault h (Tensor.scales_eq_iff.mp hscales)⟩
  | ok scales =>
      have hscales := Tensor.scales_eq_iff.mp hscales
      cases hzs : zeroPoint.elim (.ok [0]) Tensor.zeroPoints with
      | error e =>
          exact ⟨_, _, .zeroPointFault h hscales (readsZeroPoint_iff.mp hzs)⟩
      | ok zs =>
          have hzs := readsZeroPoint_iff.mp hzs
          by_cases hsingle : scales.length = 1 ∧ zs.length = 1
          · obtain ⟨a, rfl⟩ := List.length_eq_one_iff.mp hsingle.1
            obtain ⟨z, rfl⟩ := List.length_eq_one_iff.mp hsingle.2
            exact ⟨_, _, .single h hscales hzs⟩
          · exact ⟨_, _, .notSingle h hscales hzs
              (not_and_or.mp hsingle)⟩

/-- The description says something of every value. -/
theorem exists_recovers (g : Graph) (name : String) :
    ∃ outcome log, g.Recovers name outcome log := by
  by_cases hgiven : ∃ node, g.GivenBy name node
  · obtain ⟨node, hnode⟩ := hgiven
    by_cases hquantizes : node.Quantizes
    · by_cases hscale : ∃ t, g.HasConstant (node.inputName 1) t
      · obtain ⟨scale, hscale⟩ := hscale
        by_cases hzero : ∃ zeroPoint, g.HasZeroPoint node zeroPoint
        · obtain ⟨zeroPoint, hzero⟩ := hzero
          exact HasParameters.exists_recovers
            ⟨node, hnode, hquantizes, hscale, hzero⟩
        · refine ⟨_, _, .computedZeroPoint hnode hquantizes hscale ?_ ?_⟩
          · exact fun hname => hzero ⟨_, .absent hname⟩
          · exact fun t ht => hzero ⟨_, .constant ht⟩
      · exact ⟨_, _, .computedScale hnode hquantizes (not_exists.mp hscale)⟩
    · exact ⟨_, _, .otherOperation hnode hquantizes⟩
  · refine ⟨_, _, .notGiven (producer?_eq_none_iff.mp ?_)⟩
    rw [Option.eq_none_iff_forall_ne_some]
    exact fun node hnode => hgiven ⟨node, producer?_eq_some_iff.mp hnode⟩

/-- So what is found is what it says. -/
theorem recovers_quantization (g : Graph) (name : String) :
    g.Recovers name (g.quantization name).outcome
      (g.quantization name).events := by
  obtain ⟨outcome, log, h⟩ := exists_recovers g name
  rw [h.quantization_eq, events_mk]
  exact h

/-- The quantization of a value is the one that the graph says, whatever is
logged for it. -/
theorem outcome_quantization_iff {outcome : Except Error Quantization} :
    (g.quantization name).outcome = outcome
      ↔ ∃ log, g.Recovers name outcome log := by
  constructor
  · intro h
    exact ⟨_, h ▸ recovers_quantization g name⟩
  · rintro ⟨log, h⟩
    rw [h.quantization_eq]

/-- The quantization of a value, and what is logged for it, are those that the
graph says, and no others. -/
theorem quantization_iff_recovers {outcome : Except Error Quantization}
    {log : List Event} :
    (g.quantization name).outcome = outcome
        ∧ (g.quantization name).events = log
      ↔ g.Recovers name outcome log := by
  constructor
  · rintro ⟨rfl, rfl⟩
    exact recovers_quantization g name
  · intro h
    rw [h.quantization_eq]
    exact ⟨rfl, events_mk log outcome⟩

/-- Of two operations the first one gives the value, and of two constants of
one name the last one is its scale. -/
example : (quantization {
    node := [
      { opType := some "DequantizeLinear"
        input := ["x", "s"]
        output := ["y"] },
      { opType := some "Relu"
        output := ["y"] }]
    initializer := [
      { name := some "s", dataType := some 1, floatData := [⟨0x3E800000⟩] },
      { name := some "s", dataType := some 1, floatData := [⟨0x3F000000⟩] }]
    } "y").outcome = .ok ⟨⟨0x3F000000⟩, 0⟩ := rfl

end Graph

end DetectorHeader.Onnx
