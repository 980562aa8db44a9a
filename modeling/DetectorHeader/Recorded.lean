/-
Computations that keep a record. A `Recorded α` is what is left of one when it
has ended: the steps that it went through, in order, and a value or the error
at which it stopped. The steps before an error are kept.
-/
import DetectorHeader.Event

namespace DetectorHeader

/-- A step worth keeping. -/
inductive Step
  | event (event : Event)
  | request (request : Request)
  deriving DecidableEq

/-- The steps of a computation, and how it ended. -/
structure Recorded (α : Type) where
  steps : List Step
  outcome : Except Error α

namespace Recorded

instance : Monad Recorded where
  pure a := ⟨[], .ok a⟩
  bind x f :=
    match x.outcome with
    | .error e => ⟨x.steps, .error e⟩
    | .ok a =>
        let y := f a
        ⟨x.steps ++ y.steps, y.outcome⟩

-- ================================================================= laws

variable {α β : Type}

@[simp] theorem outcome_pure (a : α) : (pure a : Recorded α).outcome = .ok a :=
  rfl

@[simp] theorem steps_pure (a : α) : (pure a : Recorded α).steps = [] := rfl

/-- The outcome of two parts is that of the second one after the first. -/
theorem outcome_bind (x : Recorded α) (f : α → Recorded β) :
    (x >>= f).outcome = x.outcome >>= fun a => (f a).outcome := by
  obtain ⟨steps, outcome⟩ := x
  cases outcome <;> rfl

/-- The steps before are kept, whatever comes after. -/
theorem steps_bind (x : Recorded α) (f : α → Recorded β) :
    (x >>= f).steps
      = x.steps ++ match x.outcome with
          | .error _ => []
          | .ok a => (f a).steps := by
  obtain ⟨steps, outcome⟩ := x
  cases outcome with
  | error e => exact (List.append_nil steps).symm
  | ok a => rfl

instance : LawfulMonad Recorded :=
  LawfulMonad.mk' Recorded
    (fun ⟨steps, outcome⟩ => by
      cases outcome with
      | error e => rfl
      | ok a => exact congrArg (Recorded.mk · _) (List.append_nil steps))
    (fun _ _ => rfl)
    (fun ⟨steps, outcome⟩ f g => by
      cases outcome with
      | error e => rfl
      | ok a =>
          simp only [bind]
          cases (f a).outcome with
          | error e => rfl
          | ok b => exact congrArg (Recorded.mk · _) (List.append_assoc ..))

-- ======================================================= recording steps

/-- Stops at an error. -/
def fail (e : Error) : Recorded α := ⟨[], .error e⟩

/-- The computation that has no steps. -/
def ofExcept (outcome : Except Error α) : Recorded α :=
  ⟨[], outcome⟩

/-- Records an event. -/
def log (event : Event) : Recorded Unit := ⟨[.event event], .ok ()⟩

/-- Records a request. -/
def request (request : Request) : Recorded Unit :=
  ⟨[.request request], .ok ()⟩

/-- The events among the steps. -/
def events (x : Recorded α) : List Event :=
  x.steps.filterMap fun
    | .event e => some e
    | .request _ => none

/-- The requests among the steps. -/
def requests (x : Recorded α) : List Request :=
  x.steps.filterMap fun
    | .event _ => none
    | .request r => some r

end Recorded

/-- The events that a reader of the log gets to see: all of them, or the
warnings. -/
def shown (verbose : Bool) (events : List Event) : List Event :=
  if verbose then events else events.filter (·.level = .warning)

end DetectorHeader
