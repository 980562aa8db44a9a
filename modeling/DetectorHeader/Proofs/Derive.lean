/-
Two models that are described alike give the same parameters.

What `find` gives depends on the first input and the first output only
(`outcome_find`), and of these on the shapes and the quantization of the
output (`Params.ofSlots_agree`). The names go into the log and into errors,
so agreement is up to the name in an error about a dimension (`Agree`).
-/
import DetectorHeader.Header
import DetectorHeader.LoadedModel
import DetectorHeader.Proofs.Recorded

namespace DetectorHeader

open Recorded

-- ================================================================ agreement

/-- The same value, or the same dimension that a shape of the same rank does
not have. -/
inductive Agree {α : Type} : Except Error α → Except Error α → Prop
  | ok (a : α) : Agree (.ok a) (.ok a)
  | rank (name name' : String) (index rank : Nat) :
      Agree (.error (.dimensionIndex name index rank))
        (.error (.dimensionIndex name' index rank))

namespace Agree

variable {α β : Type} {x y : Recorded α}

/-- Computations agree if their parts do, one after the other. -/
theorem bind {f g : α → Recorded β} (h : Agree x.outcome y.outcome)
    (hfg : ∀ a, x.outcome = .ok a → Agree (f a).outcome (g a).outcome) :
    Agree (x >>= f).outcome (y >>= g).outcome := by
  rw [outcome_bind, outcome_bind]
  generalize hx : x.outcome = ox at h hfg
  generalize y.outcome = oy at h
  cases h with
  | ok a => exact hfg a rfl
  | rank name name' index rank => exact .rank name name' index rank

/-- What is recorded only sometimes does not bear on agreement. -/
theorem when {c c' : Prop} [Decidable c] [Decidable c'] {event event' : Event}
    {f g : Unit → Recorded β} (h : Agree (f ()).outcome (g ()).outcome) :
    Agree (if c then log event >>= f else f ()).outcome
      (if c' then log event' >>= g else g ()).outcome := by
  rw [outcome_when, outcome_when]
  exact h

/-- The same header is made of outcomes that agree, or none of either. -/
theorem render {x y : Except Error Params} (h : Agree x y) :
    x.toOption.map Header.render = y.toOption.map Header.render := by
  cases h <;> rfl

end Agree

-- ==================================================================== slots

/-- Slots of one shape have the same dimensions, and differ in what is said of
those that are not there. -/
theorem Slot.dim_agree {s t : Slot} (h : s.shape = t.shape) (index : Nat) :
    Agree (ofExcept (s.dim index)).outcome
      (ofExcept (t.dim index)).outcome := by
  rw [outcome_ofExcept, outcome_ofExcept]
  unfold Slot.dim Slot.rank
  rw [h]
  cases t.shape[index]? with
  | none => exact .rank s.name t.name index _
  | some d => exact .ok d

/-- A dimension that is found is one of the shape. -/
theorem Slot.mem_shape_of_dim {s : Slot} {index : Nat} {d : Int64}
    (h : s.dim index = .ok d) : d ∈ s.shape := by
  unfold Slot.dim at h
  cases hget : s.shape[index]? with
  | none =>
      rw [hget] at h
      cases h
  | some d' =>
      rw [hget] at h
      cases h
      exact List.mem_of_getElem? hget

/-- The boxes can be taken from every dimension of 32 bits. -/
theorem classCount_toInt64 (d : Int32) :
    classCount d.toInt64 = .ok (.ofInt (d.toInt - boxFields)) := by
  have hmin : Int64.minValue.toInt = -9223372036854775808 := rfl
  have hd : -2147483648 ≤ d.toInt := Int32.le_toInt d
  have hroom : ¬ d.toInt - boxFields < Int64.minValue.toInt := by
    rw [hmin]
    unfold boxFields
    omega
  unfold classCount
  rw [Int32.toInt_toInt64]
  exact if_neg hroom

/-- Parameters depend on the shapes and on the quantization of the output. -/
theorem Params.ofSlots_agree {input input' output output' : Slot}
    {dims : List Int32} (hinput : input.shape = input'.shape)
    (houtput : output.shape = dims.map Int32.toInt64)
    (houtput' : output'.shape = dims.map Int32.toInt64)
    (hquantization : output.quantization = output'.quantization) :
    Agree (ofSlots input output).outcome (ofSlots input' output').outcome := by
  have hshape : output.shape = output'.shape := houtput.trans houtput'.symm
  unfold ofSlots
  refine (Slot.dim_agree hinput 1).bind fun height _ => ?_
  refine (Slot.dim_agree hinput 2).bind fun width _ => ?_
  refine Agree.when ?_
  refine (Slot.dim_agree hshape 1).bind fun detections _ => ?_
  refine (Slot.dim_agree hshape 2).bind fun values hvalues => ?_
  have hmem := Slot.mem_shape_of_dim hvalues
  rw [houtput] at hmem
  obtain ⟨d, -, rfl⟩ := List.mem_map.mp hmem
  rw [classCount_toInt64, ofExcept_ok, pure_bind, pure_bind]
  refine Agree.when ?_
  rw [hquantization]
  exact .ok _

-- ==================================================================== search

/-- With one input and one output their parameters are found, and asking for
no others changes nothing. -/
theorem outcome_find {Handle : Type} {source : ModelSource Handle}
    {model : Handle} {input output : Slot} {path : String}
    (hload : (source.load path).outcome = .ok model)
    (hcount : ∀ side, (source.count model side).outcome = .ok 1)
    (hinput : (source.slot model .input 0).outcome = .ok input)
    (houtput : (source.slot model .output 0).outcome = .ok output)
    (strict : Bool) :
    (find source strict path).outcome
      = (Params.ofSlots input output).outcome := by
  have hstrict : ¬ (strict && (decide ((1 : Nat) ≠ 1)
      || decide ((1 : Nat) ≠ 1))) = true := by
    rw [decide_eq_false (not_not.mpr rfl), Bool.or_self, Bool.and_false]
    exact Bool.false_ne_true
  have hone : ¬ 1 < 1 := Nat.lt_irrefl 1
  unfold find
  rw [outcome_bind_of_ok (outcome_log _), outcome_bind_of_ok hload,
    outcome_bind_of_ok (hcount .input), outcome_bind_of_ok (hcount .output),
    outcome_bind_of_ok (outcome_log _)]
  dsimp only
  rw [if_neg hstrict, if_neg hone, if_neg hone,
    outcome_bind_of_ok houtput, outcome_bind_of_ok hinput,
    outcome_bind_of_ok (outcome_log _), outcome_bind]
  cases (Params.ofSlots input output).outcome <;> rfl

/-- Where others may be there, nothing is asked but what the first input and
the first output are. -/
theorem outcome_find_lenient {Handle : Type} {source : ModelSource Handle}
    {model : Handle} {inputs outputs : Nat} {path : String}
    (hload : (source.load path).outcome = .ok model)
    (hinputs : (source.count model .input).outcome = .ok inputs)
    (houtputs : (source.count model .output).outcome = .ok outputs) :
    (find source false path).outcome = Recorded.outcome (do
      let output ← source.slot model .output 0
      let input ← source.slot model .input 0
      Params.ofSlots input output) := by
  unfold find
  rw [outcome_bind_of_ok (outcome_log _), outcome_bind_of_ok hload,
    outcome_bind_of_ok hinputs, outcome_bind_of_ok houtputs,
    outcome_bind_of_ok (outcome_log _)]
  dsimp only
  rw [if_neg (by simp), outcome_when, outcome_when]
  simp only [outcome_bind, outcome_log, outcome_pure]
  cases (source.slot model .output 0).outcome with
  | error e => rfl
  | ok output =>
      cases (source.slot model .input 0).outcome with
      | error e => rfl
      | ok input =>
          show ((Params.ofSlots input output).outcome >>= Except.ok)
            = (Params.ofSlots input output).outcome
          exact bind_pure _

/-- Parameters are not found in a model that cannot be loaded. -/
theorem outcome_find_of_error {Handle : Type} {source : ModelSource Handle}
    {path : String} {e : Error} (hload : (source.load path).outcome = .error e)
    (strict : Bool) : (find source strict path).outcome = .error e := by
  unfold find
  rw [outcome_bind_of_ok (outcome_log _), outcome_bind, hload]
  rfl

namespace LoadedModel

variable {contents : String → Except FileFault Bytes} {path : String}

/-- A file of a given format is loaded as its bytes are. -/
theorem outcome_load {format : Format} {bytes : Bytes}
    (h : contents path = .ok bytes) :
    ((source (some format) contents).load path).outcome
      = (ofBytes format bytes).outcome := by
  show (ofContents (some format) path (contents path)).outcome = _
  rw [h]
  rfl

/-- The parameters of a model, from its first input and output. -/
theorem outcome_find_of_load {format : Option Format} {m : LoadedModel}
    (hload : ((source format contents).load path).outcome = .ok m) :
    (find (source format contents) false path).outcome
      = Recorded.outcome (do
          let output ← ofExcept (m.slot .output 0)
          let input ← ofExcept (m.slot .input 0)
          Params.ofSlots input output) :=
  outcome_find_lenient hload rfl rfl

/-- The parameters of a model that has one input and one output. -/
theorem outcome_find {format : Option Format} {m : LoadedModel}
    {input output : Slot}
    (hload : ((source format contents).load path).outcome = .ok m)
    (hinput : m.slots .input = [input]) (houtput : m.slots .output = [output])
    (strict : Bool) :
    (find (source format contents) strict path).outcome
      = (Params.ofSlots input output).outcome := by
  refine DetectorHeader.outcome_find hload (fun side => ?_) ?_ ?_ strict
  · show Except.ok (m.slots side).length = _
    cases side with
    | input => rw [hinput]; rfl
    | output => rw [houtput]; rfl
  · show Side.pick .input (m.slots .input) 0 = _
    rw [hinput]
    rfl
  · show Side.pick .output (m.slots .output) 0 = _
    rw [houtput]
    rfl

end LoadedModel

end DetectorHeader
