/-
A search for parameters, over any source of models (`find_follows`).

A search asks a source for the model, for the numbers of its inputs and
outputs, and then for the first output and the first input, in this order, and
stops where something is wrong. `Finds` lists what can come of it, each time
with all the steps on the way. A source may record whatever it likes when it
is asked; this stands in the record where the request is in the steps
(`answered`).

All that comes after the numbers depends on the first slots alone
(`ReadsFirst`). So other slots change the numbers that are logged, add a
warning for a side that has more than one, and nothing else.
-/
import DetectorHeader.Proofs.Demands
import DetectorHeader.Proofs.Derive
import DetectorHeader.Proofs.Log

namespace DetectorHeader

open Recorded

-- ============================================================= description

/-- The source has a model with the given slots at the path. What it records
when it is asked for something is its own affair: nothing, the request, or
what it has to log. -/
def ModelSource.Offers {Handle : Type} (source : ModelSource Handle)
    (path : String) (slots : Side → List Slot)
    (recorded : Request → List Step) : Prop :=
  ∃ model, source.load path = ⟨recorded (.load path), .ok model⟩
    ∧ (∀ side, source.count model side
      = ⟨recorded (.count side), .ok (slots side).length⟩)
    ∧ ∀ side index, source.slot model side index
      = ⟨recorded (.slot side index), side.pick (slots side) index⟩

/-- The steps, with what a source records in place of each request. -/
def answered (recorded : Request → List Step) (steps : List Step) :
    List Step :=
  steps.flatMap fun
    | .event event => [.event event]
    | .request request => recorded request

/-- There is one input and one output. -/
def Paired (slots : Side → List Slot) : Prop :=
  ∀ side, (slots side).length = 1

/-- What a search does before it looks at any slot. -/
def opening (path : String) (slots : Side → List Slot) : List Step :=
  [.event (.search path), .request (.load path), .request (.count .input),
    .request (.count .output),
    .event (.loaded (slots .input).length (slots .output).length)]

/-- The warning about a side with more slots than the one that is read. -/
def unread (slots : Side → List Slot) (side : Side) : List Event :=
  if 1 < (slots side).length then
    [.severalSlots side (slots side).length]
  else []

/-- The warnings about both sides. -/
def excess (slots : Side → List Slot) : List Step :=
  (unread slots .input ++ unread slots .output).map .event

/-- What comes of the first output and the first input, as far as there are
any: the outcome, and the steps that lead to it. -/
inductive ReadsFirst :
    (output input : Option Slot) → Except Error Params → List Step → Prop
  | noOutput {input} :
      ReadsFirst none input (.error (.slotIndex .output 0 0))
        [.request (.slot .output 0)]
  | noInput {output} :
      ReadsFirst (some output) none (.error (.slotIndex .input 0 0))
        [.request (.slot .output 0), .request (.slot .input 0)]
  | failed {output input e}
      (h : (Params.ofSlots input output).outcome = .error e) :
      ReadsFirst (some output) (some input) (.error e)
        ([.request (.slot .output 0), .request (.slot .input 0),
            .event (.selected input output)]
          ++ (Params.ofSlots input output).events.map .event)
  | found {output input p}
      (h : (Params.ofSlots input output).outcome = .ok p) :
      ReadsFirst (some output) (some input) (.ok p)
        ([.request (.slot .output 0), .request (.slot .input 0),
            .event (.selected input output)]
          ++ ((Params.ofSlots input output).events
            ++ [Event.derived p]).map .event)

/-- What comes of a search: it is rejected for the numbers of slots, where
there must be no others, or goes on with the first ones. -/
inductive Finds (strict : Bool) (path : String) (slots : Side → List Slot) :
    Except Error Params → List Step → Prop
  | rejected (hstrict : strict = true) (h : ¬ Paired slots) :
      Finds strict path slots
        (.error (.invalidModel (.slotCounts (slots .input).length
          (slots .output).length)))
        (opening path slots)
  | read {outcome steps} (hadmitted : strict = true → Paired slots)
      (h : ReadsFirst (slots .output).head? (slots .input).head? outcome
        steps) :
      Finds strict path slots outcome
        (opening path slots ++ excess slots ++ steps)

-- =============================================================== recording

namespace Recorded

variable {α β : Type}

/-- Steps in front of a computation. -/
def after (steps : List Step) (x : Recorded α) : Recorded α :=
  ⟨steps ++ x.steps, x.outcome⟩

theorem after_after (steps steps' : List Step) (x : Recorded α) :
    after steps (after steps' x) = after (steps ++ steps') x :=
  congrArg (Recorded.mk · _) (List.append_assoc ..).symm

theorem ok_bind (steps : List Step) (a : α) (f : α → Recorded β) :
    ((⟨steps, .ok a⟩ : Recorded α) >>= f) = after steps (f a) := rfl

theorem log_bind (event : Event) (f : Unit → Recorded β) :
    (log event >>= f) = after [.event event] (f ()) := rfl

theorem error_bind (steps : List Step) (e : Error) (f : α → Recorded β) :
    ((⟨steps, .error e⟩ : Recorded α) >>= f) = ⟨steps, .error e⟩ := rfl

theorem fail_bind (e : Error) (f : α → Recorded β) :
    (fail e >>= f) = ⟨[], .error e⟩ := rfl

theorem after_when (c : Prop) [Decidable c] (event : Event)
    (f : Unit → Recorded β) :
    (if c then log event >>= f else f ())
      = after ((if c then [event] else []).map .event) (f ()) := by
  split
  · rfl
  · rfl

/-- Nothing is asked for: all steps are events. -/
def Unasked (x : Recorded α) : Prop := x.steps = x.events.map .event

theorem Unasked.bind {x : Recorded α} {f : α → Recorded β} (h : x.Unasked)
    (hf : ∀ a, (f a).Unasked) : (x >>= f).Unasked := by
  unfold Unasked events at *
  rw [steps_bind, List.filterMap_append, List.map_append, ← h]
  cases x.outcome with
  | error e => rfl
  | ok a => exact congrArg _ (hf a)

theorem Unasked.bind_of_ok {x : Recorded α} {a : α} (h : x.Unasked)
    (ha : x.outcome = .ok a) (f : α → Recorded β) :
    (x >>= f) = after (x.events.map .event) (f a) := by
  obtain ⟨steps, outcome⟩ := x
  subst ha
  rw [← h]
  rfl

theorem Unasked.bind_of_error {x : Recorded α} {e : Error} (h : x.Unasked)
    (he : x.outcome = .error e) (f : α → Recorded β) :
    (x >>= f) = ⟨x.events.map .event, .error e⟩ := by
  obtain ⟨steps, outcome⟩ := x
  subst he
  rw [← h]
  rfl

theorem Unasked.ofExcept (outcome : Except Error α) :
    (ofExcept outcome).Unasked := rfl

theorem Unasked.when (c : Prop) [Decidable c] (event : Event)
    {f : Unit → Recorded β} (h : (f ()).Unasked) :
    (if c then log event >>= f else f ()).Unasked := by
  split
  · exact Unasked.bind rfl fun _ => h
  · exact h

end Recorded

-- ================================================================== slots

namespace Params

/-- Deriving parameters asks nothing of the source. -/
theorem ofSlots_unasked (input output : Slot) :
    (ofSlots input output).Unasked := by
  unfold ofSlots
  refine (Unasked.ofExcept _).bind fun height => ?_
  refine (Unasked.ofExcept _).bind fun width => Unasked.when _ _ ?_
  refine (Unasked.ofExcept _).bind fun detections => ?_
  refine (Unasked.ofExcept _).bind fun values => ?_
  exact (Unasked.ofExcept _).bind fun classes => Unasked.when _ _ rfl

end Params

/-- There is a slot at the front, or the list is empty. -/
theorem Side.pick_zero (side : Side) (slots : List Slot) :
    side.pick slots 0
      = slots.head?.elim (.error (.slotIndex side 0 0)) .ok := by
  cases slots with
  | nil => rfl
  | cons slot slots => rfl

-- ================================================================== searches

section

variable {Handle : Type} {source : ModelSource Handle} {path : String}
  {slots : Side → List Slot} {recorded : Request → List Step}

@[simp] theorem answered_nil : answered recorded [] = [] := rfl

@[simp] theorem answered_event (event : Event) (steps : List Step) :
    answered recorded (.event event :: steps)
      = .event event :: answered recorded steps := rfl

@[simp] theorem answered_request (request : Request) (steps : List Step) :
    answered recorded (.request request :: steps)
      = recorded request ++ answered recorded steps := rfl

@[simp] theorem answered_append (steps steps' : List Step) :
    answered recorded (steps ++ steps')
      = answered recorded steps ++ answered recorded steps' :=
  List.flatMap_append

@[simp] theorem answered_events (events : List Event) :
    answered recorded (events.map .event) = events.map .event := by
  unfold answered
  rw [List.flatMap_map]
  exact List.flatMap_pure_eq_map _ _

theorem paired_iff :
    Paired slots ↔ (slots .input).length = 1 ∧ (slots .output).length = 1 := by
  constructor
  · exact fun h => ⟨h .input, h .output⟩
  · intro h side
    cases side with
    | input => exact h.1
    | output => exact h.2

/-- What is left of a search when the first slots are asked for. -/
def firstParams (slots : Side → List Slot)
    (recorded : Request → List Step) : Recorded Params := do
  let output ← ⟨recorded (.slot .output 0),
    Side.pick .output (slots .output) 0⟩
  let input ← ⟨recorded (.slot .input 0), Side.pick .input (slots .input) 0⟩
  log (.selected input output)
  let params ← Params.ofSlots input output
  log (.derived params)
  return params

theorem ReadsFirst.firstParams_eq {outcome : Except Error Params}
    {steps : List Step}
    (h : ReadsFirst (slots .output).head? (slots .input).head? outcome
      steps) :
    firstParams slots recorded = ⟨answered recorded steps, outcome⟩ := by
  unfold firstParams
  rw [Side.pick_zero, Side.pick_zero]
  generalize (slots .output).head? = output? at h
  generalize (slots .input).head? = input? at h
  cases h with
  | noOutput =>
      rw [Option.elim_none, error_bind]
      simp
  | noInput =>
      rw [Option.elim_some, ok_bind, Option.elim_none, error_bind]
      simp [after]
  | @failed output input e h =>
      have hunasked := Params.ofSlots_unasked input output
      rw [Option.elim_some, ok_bind, Option.elim_some, ok_bind, log_bind,
        hunasked.bind_of_error h]
      simp [after]
  | @found output input p h =>
      have hunasked := Params.ofSlots_unasked input output
      rw [Option.elim_some, ok_bind, Option.elim_some, ok_bind, log_bind,
        hunasked.bind_of_ok h, log_bind]
      simp [after]

/-- The numbers of slots are all that a rejected search asks for. -/
theorem find_of_rejected (h : source.Offers path slots recorded)
    (hrejected : ¬ Paired slots) :
    find source true path
      = ⟨answered recorded (opening path slots),
          .error (.invalidModel (.slotCounts (slots .input).length
            (slots .output).length))⟩ := by
  obtain ⟨model, hload, hcount, -⟩ := h
  rw [paired_iff] at hrejected
  unfold find
  rw [log_bind, hload, ok_bind, hcount, ok_bind, hcount, ok_bind, log_bind]
  dsimp only
  rw [if_pos (by simpa [imp_iff_not_or] using hrejected), fail_bind]
  simp [after, opening]

/-- If strictness admits the slots, the first of each side are asked for. -/
theorem find_of_admitted {strict : Bool}
    (h : source.Offers path slots recorded)
    (hadmitted : strict = true → Paired slots) :
    find source strict path
      = after (answered recorded (opening path slots ++ excess slots))
          (firstParams slots recorded) := by
  obtain ⟨model, hload, hcount, hslot⟩ := h
  rw [paired_iff] at hadmitted
  unfold find
  rw [log_bind, hload, ok_bind, hcount, ok_bind, hcount, ok_bind, log_bind]
  dsimp only
  rw [if_neg (by simpa [imp_iff_not_or] using hadmitted), after_when,
    after_when, hslot, hslot]
  simp only [after_after]
  show after _ (firstParams slots recorded) = _
  congr 1
  simp [opening, excess, unread]

/-- Whatever can come of a search is what the search does. -/
theorem Finds.find_eq (h : source.Offers path slots recorded) {strict : Bool}
    {outcome : Except Error Params} {steps : List Step}
    (hfinds : Finds strict path slots outcome steps) :
    find source strict path = ⟨answered recorded steps, outcome⟩ := by
  cases hfinds with
  | rejected hstrict hrejected =>
      rw [hstrict]
      exact find_of_rejected h hrejected
  | @read _ rest hadmitted hfirst =>
      rw [find_of_admitted h hadmitted, hfirst.firstParams_eq,
        answered_append _ rest]
      rfl

/-- Whatever stands first on the two sides, reading it has an outcome. -/
theorem exists_readsFirst (output input : Option Slot) :
    ∃ outcome steps, ReadsFirst output input outcome steps := by
  cases output with
  | none => exact ⟨_, _, .noOutput⟩
  | some output =>
      cases input with
      | none => exact ⟨_, _, .noInput⟩
      | some input =>
          cases h : (Params.ofSlots input output).outcome with
          | error e => exact ⟨_, _, .failed h⟩
          | ok p => exact ⟨_, _, .found h⟩

/-- And so has every search. -/
theorem exists_finds (strict : Bool) (path : String)
    (slots : Side → List Slot) :
    ∃ outcome steps, Finds strict path slots outcome steps := by
  by_cases hrejected : strict = true ∧ ¬ Paired slots
  · exact ⟨_, _, .rejected hrejected.1 hrejected.2⟩
  · obtain ⟨outcome, steps, h⟩ :=
      exists_readsFirst (slots .output).head? (slots .input).head?
    refine ⟨_, _, .read (fun hstrict => ?_) h⟩
    exact not_not.mp fun hpaired => hrejected ⟨hstrict, hpaired⟩

/-- The first slots are not rejected for the numbers of slots. -/
theorem ReadsFirst.outcome_ne {output input : Option Slot}
    {outcome : Except Error Params} {steps : List Step}
    (h : ReadsFirst output input outcome steps) (inputs outputs : Nat) :
    outcome ≠ .error (.invalidModel (.slotCounts inputs outputs)) := by
  rintro rfl
  cases h with
  | @failed output input _ h =>
      have hunmet := (Params.ofSlots_derived input output).error_iff.mp h
      rcases hunmet.dimension_or_boxFields with ⟨_, _, _, he⟩ | ⟨-, he⟩
      · cases he
      · cases he

/-- Strictness rejects iff the slots are not one pair. -/
theorem find_rejected_iff (h : source.Offers path slots recorded)
    (strict : Bool) :
    (∃ inputs outputs, (find source strict path).outcome
        = .error (.invalidModel (.slotCounts inputs outputs)))
      ↔ strict = true ∧ ¬ Paired slots := by
  constructor
  · rintro ⟨inputs, outputs, hrejected⟩
    obtain ⟨outcome, steps, hfinds⟩ := exists_finds strict path slots
    rw [hfinds.find_eq h] at hrejected
    cases hfinds with
    | rejected hstrict hpaired => exact ⟨hstrict, hpaired⟩
    | read _ hfirst => exact absurd hrejected (hfirst.outcome_ne _ _)
  · rintro ⟨rfl, hpaired⟩
    rw [find_of_rejected h hpaired]
    exact ⟨_, _, rfl⟩

/-- Where other slots are a reason to reject a model, parameters that are found
are found in the same way where they are not. -/
theorem find_lenient_of_strict (h : source.Offers path slots recorded)
    {p : Params} (hp : (find source true path).outcome = .ok p) :
    find source false path = find source true path := by
  obtain ⟨outcome, steps, hfinds⟩ := exists_finds true path slots
  cases hfinds with
  | rejected _ hpaired =>
      rw [find_of_rejected h hpaired] at hp
      cases hp
  | read hadmitted hfirst =>
      have hstrict : Finds true path slots _ _ := .read hadmitted hfirst
      have hlenient : Finds false path slots _ _ :=
        .read (fun hno => nomatch hno) hfirst
      rw [hstrict.find_eq h, hlenient.find_eq h]

/-- A search comes to what can come of the slots that are offered, with the
steps that lead there, and to nothing else. It is rejected just when there must
be no other slots and there are, or none. What is found with that demand is
found without it. Without it two sources with the same first slots, or none,
give the same outcome after the same steps, but for the numbers of slots, where
these are logged, and the warnings about more than one. -/
theorem find_follows (h : source.Offers path slots recorded) :
    (∀ strict outcome steps,
      find source strict path = ⟨steps, outcome⟩
        ↔ ∃ plan, Finds strict path slots outcome plan
          ∧ steps = answered recorded plan)
      ∧ (∀ strict, (∃ inputs outputs, (find source strict path).outcome
          = .error (.invalidModel (.slotCounts inputs outputs)))
        ↔ strict = true ∧ ¬ Paired slots)
      ∧ (∀ p, (find source true path).outcome = .ok p →
        find source false path = find source true path)
      ∧ ∀ {Handle' : Type} (source' : ModelSource Handle') (path' : String)
        (slots' : Side → List Slot) (recorded' : Request → List Step),
        source'.Offers path' slots' recorded' →
        (∀ side, (slots' side).head? = (slots side).head?) →
        ∃ outcome rest,
          find source false path
            = ⟨answered recorded (opening path slots ++ excess slots ++ rest),
                outcome⟩
          ∧ find source' false path'
            = ⟨answered recorded'
                (opening path' slots' ++ excess slots' ++ rest), outcome⟩ := by
  refine ⟨fun strict outcome steps => ?_, find_rejected_iff h,
    fun p => find_lenient_of_strict h, ?_⟩
  · constructor
    · intro hfind
      obtain ⟨outcome', plan, hfinds⟩ := exists_finds strict path slots
      rw [hfinds.find_eq h] at hfind
      cases hfind
      exact ⟨plan, hfinds, rfl⟩
    · rintro ⟨plan, hfinds, rfl⟩
      exact hfinds.find_eq h
  · intro Handle' source' path' slots' recorded' h' hfirst
    obtain ⟨outcome, rest, hreads⟩ :=
      exists_readsFirst (slots .output).head? (slots .input).head?
    -- The two searches read the same first slots, so one reading is of both.
    have hreads' : ReadsFirst (slots' .output).head? (slots' .input).head?
        outcome rest := by
      rwa [hfirst, hfirst]
    have hfinds : Finds false path slots _ _ :=
      .read (fun hno => nomatch hno) hreads
    have hfinds' : Finds false path' slots' _ _ :=
      .read (fun hno => nomatch hno) hreads'
    exact ⟨outcome, rest, hfinds.find_eq h, hfinds'.find_eq h'⟩

end

-- =================================================================== sources

/-- The slots of two lists. -/
def slotsOf (inputs outputs : List Slot) : Side → List Slot
  | .input => inputs
  | .output => outputs

/-- A source that hands out lists records what it is asked for and nothing
else. -/
theorem ModelSource.fixed_offers (inputs outputs : List Slot)
    (path : String) :
    (fixed inputs outputs).Offers path (slotsOf inputs outputs)
      fun request => [.request request] := by
  refine ⟨(), rfl, fun side => ?_, fun side index => ?_⟩
  · cases side with
    | input => rfl
    | output => rfl
  · cases side with
    | input => rfl
    | output => rfl

/-- Only loading is logged. -/
def LoadedModel.recorded (loading : List Step) : Request → List Step
  | .load _ => loading
  | .count _ | .slot .. => []

/-- A file that can be loaded is a model with its slots. -/
theorem LoadedModel.source_offers {format : Option Format}
    {contents : String → Except FileFault Bytes} {path : String}
    {m : LoadedModel} {loading : List Step}
    (h : (source format contents).load path = ⟨loading, .ok m⟩) :
    (source format contents).Offers path m.slots (recorded loading) :=
  ⟨m, h, fun _ => rfl, fun _ _ => rfl⟩

/-- An image of three channels. -/
def images : Slot := ⟨"images", [1, 640, 640, 3], .uint8, .none⟩

/-- Boxes with the scores of 80 classes. -/
def boxes : Slot := ⟨"boxes", [1, 6300, 85], .int8, ⟨⟨0x3B807358⟩, -128⟩⟩

/-- A tensor that no parameters come from. -/
def mask : Slot := ⟨"mask", [1], .float32, .none⟩

/-- With the mask there is nothing to be found if there must be no other slots,
and else what there is without it. -/
theorem mask_find_follows :
    (ModelSource.fixed [images] [boxes, mask]).Offers "m"
        (slotsOf [images] [boxes, mask]) (fun request => [.request request])
      ∧ (∃ inputs outputs,
        (find (.fixed [images] [boxes, mask]) true "m").outcome
          = .error (.invalidModel (.slotCounts inputs outputs)))
      ∧ (find (.fixed [images] [boxes, mask]) false "m").outcome
        = (find (.fixed [images] [boxes]) false "m").outcome := by
  have h := ModelSource.fixed_offers [images] [boxes, mask] "m"
  have h' := ModelSource.fixed_offers [images] [boxes] "m"
  obtain ⟨-, hrejected, -, hother⟩ := find_follows h
  refine ⟨h, (hrejected true).mpr ⟨rfl, fun hpaired => ?_⟩, ?_⟩
  · cases hpaired .output
  · obtain ⟨outcome, rest, hfind, hfind'⟩ :=
      hother _ _ _ _ h' fun side => by cases side <;> rfl
    rw [hfind, hfind']

end DetectorHeader
