/-
What the parameters are derived from, and under which demands
(`Params.ofSlots_derived`).

Parameters are derived under five demands on the input and the output, which
are looked at in a fixed order: four dimensions that have to be there, and room
in the last one for the box fields. `Derived demands P` says of an outcome that
it is a value in `P` where all demands hold, and else the fault of the first one
that does not. The demands of two computations, one after the other, are those
of the first and then those of the second (`Derived.bind`), so the derivation
is gone through once and nothing of it is looked at again.
-/
import DetectorHeader.Derive
import DetectorHeader.Proofs.Recorded

namespace DetectorHeader

open Recorded

-- ================================================================== demands

/-- Something that has to hold, and the error where it does not. -/
structure Demand where
  holds : Prop
  fault : Error

/-- The error is the fault of the first demand in the list that does not
hold. -/
inductive FirstUnmet : List Demand → Error → Prop
  | here {d : Demand} {ds} (h : ¬ d.holds) : FirstUnmet (d :: ds) d.fault
  | later {d : Demand} {ds e} (h : d.holds) (rest : FirstUnmet ds e) :
      FirstUnmet (d :: ds) e

/-- A value that is described by `P` where all demands hold, and else the fault
of the first one that does not. -/
inductive Derived {α : Type} (demands : List Demand) (P : α → Prop) :
    Except Error α → Prop
  | met {a} (h : ∀ d ∈ demands, d.holds) (ha : P a) : Derived demands P (.ok a)
  | unmet {e} (h : FirstUnmet demands e) : Derived demands P (.error e)

namespace FirstUnmet

variable {ds ds' : List Demand} {e : Error}

/-- The first demand that is not met is one of them. -/
theorem exists_mem (h : FirstUnmet ds e) :
    ∃ d ∈ ds, ¬ d.holds ∧ d.fault = e := by
  induction h with
  | @here d ds h => exact ⟨d, List.mem_cons_self, h, rfl⟩
  | later _ _ ih =>
      obtain ⟨d, hd, hno, hfault⟩ := ih
      exact ⟨d, List.mem_cons_of_mem _ hd, hno, hfault⟩

/-- And so not all of them are met. -/
theorem not_all (h : FirstUnmet ds e) : ¬ ∀ d ∈ ds, d.holds := by
  obtain ⟨d, hd, hno, -⟩ := h.exists_mem
  exact fun hall => hno (hall d hd)

/-- There is one first demand that is not met. -/
theorem unique {e' : Error} (h : FirstUnmet ds e) (h' : FirstUnmet ds e') :
    e = e' := by
  induction h with
  | here hd =>
      cases h' with
      | here _ => rfl
      | later hd' _ => exact absurd hd' hd
  | later hd _ ih =>
      cases h' with
      | here hd' => exact absurd hd hd'
      | later _ rest => exact ih rest

/-- It stays the first when demands are added behind. -/
theorem append_right (h : FirstUnmet ds e) : FirstUnmet (ds ++ ds') e := by
  induction h with
  | here h => exact .here h
  | later h _ ih => exact .later h ih

/-- It also stays the first behind demands that are met. -/
theorem append_left (hall : ∀ d ∈ ds, d.holds) (h : FirstUnmet ds' e) :
    FirstUnmet (ds ++ ds') e := by
  induction ds with
  | nil => exact h
  | cons d ds ih =>
      obtain ⟨hd, hds⟩ := List.forall_mem_cons.mp hall
      exact .later hd (ih hds)

end FirstUnmet

namespace Derived

variable {α β : Type} {ds ds' : List Demand} {P : α → Prop} {Q : β → Prop}

/-- The demands of what follows come after those of what it follows. -/
theorem bind {x : Recorded α} {f : α → Recorded β}
    (hx : Derived ds P x.outcome)
    (hf : ∀ a, P a → Derived ds' Q (f a).outcome) :
    Derived (ds ++ ds') Q (x >>= f).outcome := by
  rw [outcome_bind]
  generalize x.outcome = outcome at hx
  cases hx with
  | unmet h => exact .unmet h.append_right
  | met hall ha =>
      have hrest := hf _ ha
      show Derived (ds ++ ds') Q (f _).outcome
      generalize (f _).outcome = outcome at hrest
      cases hrest with
      | met hall' hb => exact .met (List.forall_mem_append.mpr ⟨hall, hall'⟩) hb
      | unmet h => exact .unmet (.append_left hall h)

/-- What is recorded only sometimes demands nothing. -/
theorem when {c : Prop} [Decidable c] {event : Event} {f : Unit → Recorded β}
    (h : Derived ds Q (f ()).outcome) :
    Derived ds Q (if c then log event >>= f else f ()).outcome := by
  rw [outcome_when]
  exact h

variable {outcome : Except Error α}

/-- There is a result just when all demands are met. -/
theorem exists_ok_iff (h : Derived ds P outcome) :
    (∃ a, outcome = .ok a) ↔ ∀ d ∈ ds, d.holds := by
  cases h with
  | met hall ha => exact ⟨fun _ => hall, fun _ => ⟨_, rfl⟩⟩
  | unmet h =>
      refine ⟨fun hok => ?_, fun hall => absurd hall h.not_all⟩
      obtain ⟨a, ha⟩ := hok
      cases ha

/-- The result is what it is to be. -/
theorem of_ok {a : α} (h : Derived ds P (.ok a)) : P a := by
  cases h with
  | met _ ha => exact ha

/-- The error is that of the first demand that is not met. -/
theorem error_iff (h : Derived ds P outcome) {e : Error} :
    outcome = .error e ↔ FirstUnmet ds e := by
  cases h with
  | met hall _ =>
      refine ⟨fun he => ?_, fun he => absurd hall he.not_all⟩
      cases he
  | unmet h =>
      constructor
      · intro he
        cases he
        exact h
      · intro he
        rw [h.unique he]

end Derived

-- =================================================================== slots

/-- The shape has a dimension at the index. -/
def Slot.hasDim (slot : Slot) (index : Nat) : Demand where
  holds := index < slot.rank
  fault := .dimensionIndex slot.name index slot.rank

/-- The box fields can be taken from dimension 2, if there is one. -/
def Slot.hasBoxFields (output : Slot) : Demand where
  holds := ∀ values, output.shape[2]? = some values →
    Int64.minValue.toInt + 5 ≤ values.toInt
  fault := .invalidModel (.boxFields (output.shape.getD 2 0))

/-- All that an input and an output have to meet, in the order in which it is
looked at. -/
def demands (input output : Slot) : List Demand :=
  [input.hasDim 1, input.hasDim 2, output.hasDim 1, output.hasDim 2,
    output.hasBoxFields]

/-- The parameters are the dimensions and the quantization of the slots, with
five values of each detection that are no classes. -/
structure Params.TakenFrom (input output : Slot) (p : Params) : Prop where
  height : input.shape[1]? = some p.inputHeight
  width : input.shape[2]? = some p.inputWidth
  detections : output.shape[1]? = some p.detections
  classes : ∃ values, output.shape[2]? = some values
    ∧ p.classes.toInt + 5 = values.toInt
  scale : p.scale = output.quantization.scale
  zeroPoint : p.zeroPoint = output.quantization.zeroPoint

/-- Of a dimension it is demanded that it is there. -/
theorem Slot.dim_derived (slot : Slot) (index : Nat) :
    Derived [slot.hasDim index] (fun d => slot.shape[index]? = some d)
      (ofExcept (slot.dim index)).outcome := by
  rw [outcome_ofExcept]
  unfold dim
  cases hget : slot.shape[index]? with
  | some d =>
      obtain ⟨hlt, -⟩ := List.getElem?_eq_some_iff.mp hget
      exact .met (List.forall_mem_singleton.mpr hlt) rfl
  | none =>
      have hle := List.getElem?_eq_none_iff.mp hget
      exact .unmet (.here (d := slot.hasDim index) (Nat.not_lt.mpr hle))

/-- Of the classes it is demanded that there is room for the box fields. -/
theorem classCount_derived {output : Slot} {values : Int64}
    (h : output.shape[2]? = some values) :
    Derived [output.hasBoxFields] (fun classes => classes.toInt + 5
      = values.toInt) (ofExcept (classCount values)).outcome := by
  have hmin : Int64.minValue.toInt = -2 ^ 63 := rfl
  have hlt := values.toInt_lt
  rw [outcome_ofExcept]
  unfold classCount boxFields
  dsimp only
  by_cases hroom : values.toInt - 5 < Int64.minValue.toInt
  · have hfault : output.hasBoxFields.fault
        = .invalidModel (.boxFields values) := by
      unfold Slot.hasBoxFields
      rw [List.getD_eq_getElem?_getD, h]
      rfl
    rw [if_pos hroom, ← hfault]
    refine .unmet (.here fun hholds => ?_)
    have := hholds values h
    omega
  · rw [if_neg hroom]
    refine .met (List.forall_mem_singleton.mpr fun values' h' => ?_) ?_
    · cases h.symm.trans h'
      omega
    · rw [Int64.toInt_ofInt_of_le (by omega) (by omega)]
      omega

/-- The derivation, in the order in which it goes. -/
theorem Params.ofSlots_derived (input output : Slot) :
    Derived (demands input output) (TakenFrom input output)
      (ofSlots input output).outcome := by
  unfold ofSlots
  refine (input.dim_derived 1).bind fun height hheight => ?_
  refine (input.dim_derived 2).bind fun width hwidth => Derived.when ?_
  refine (output.dim_derived 1).bind fun detections hdetections => ?_
  refine (output.dim_derived 2).bind fun values hvalues => ?_
  rw [← List.append_nil [output.hasBoxFields]]
  refine (classCount_derived hvalues).bind fun classes hclasses => ?_
  refine Derived.when (.met (List.forall_mem_nil _) ?_)
  exact ⟨hheight, hwidth, hdetections, ⟨values, hvalues, hclasses⟩, rfl, rfl⟩

/-- Two ranks and a dimension are what it comes down to. -/
theorem demands_hold_iff {input output : Slot} :
    (∀ d ∈ demands input output, d.holds)
      ↔ 3 ≤ input.rank ∧ 3 ≤ output.rank
        ∧ ∀ values, output.shape[2]? = some values →
          Int64.minValue.toInt + 5 ≤ values.toInt := by
  unfold demands
  simp only [List.forall_mem_cons, List.not_mem_nil, false_implies,
    implies_true, and_true]
  show (1 < input.rank ∧ 2 < input.rank ∧ 1 < output.rank
    ∧ 2 < output.rank ∧ _) ↔ _
  constructor
  · rintro ⟨-, hinput, -, houtput, hroom⟩
    exact ⟨hinput, houtput, hroom⟩
  · rintro ⟨hinput, houtput, hroom⟩
    exact ⟨by omega, hinput, by omega, houtput, hroom⟩

/-- What is wrong with two slots is a dimension that is not there, or one from
which the box fields cannot be taken. -/
theorem FirstUnmet.dimension_or_boxFields {input output : Slot} {e : Error}
    (h : FirstUnmet (demands input output) e) :
    (∃ name index rank, e = .dimensionIndex name index rank)
      ∨ ¬ output.hasBoxFields.holds ∧ e = output.hasBoxFields.fault := by
  obtain ⟨d, hd, hno, rfl⟩ := h.exists_mem
  simp only [demands, List.mem_cons, List.not_mem_nil, or_false] at hd
  rcases hd with rfl | rfl | rfl | rfl | rfl
  · exact .inl ⟨_, _, _, rfl⟩
  · exact .inl ⟨_, _, _, rfl⟩
  · exact .inl ⟨_, _, _, rfl⟩
  · exact .inl ⟨_, _, _, rfl⟩
  · exact .inr ⟨hno, rfl⟩

end DetectorHeader
