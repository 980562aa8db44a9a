/-
What is logged along a computation. The events of two computations, one after
the other, are those of the first and then those of the second
(`events_bind_of_ok`), so the events of a list that is gone through are those of
its items, in order (`events_mapM_of_ok`).
-/
import DetectorHeader.Proofs.Recorded

namespace DetectorHeader.Recorded

variable {α β : Type} {x : Recorded α}

@[simp] theorem events_pure (a : α) : (pure a : Recorded α).events = [] := rfl

@[simp] theorem events_ofExcept (outcome : Except Error α) :
    (ofExcept outcome).events = [] := rfl

@[simp] theorem events_log (event : Event) : (log event).events = [event] := rfl

/-- Steps that are all events. -/
theorem events_mk (log : List Event) (outcome : Except Error α) :
    (⟨log.map .event, outcome⟩ : Recorded α).events = log := by
  unfold events
  rw [List.filterMap_map]
  exact List.filterMap_some

/-- After a value the events of what follows come behind. -/
theorem events_bind_of_ok {f : α → Recorded β} {a : α}
    (h : x.outcome = .ok a) : (x >>= f).events = x.events ++ (f a).events := by
  unfold events
  rw [steps_bind, h, List.filterMap_append]

/-- What is made of a value is not logged. -/
theorem events_map (f : α → β) (x : Recorded α) :
    (f <$> x).events = x.events := by
  obtain ⟨steps, outcome⟩ := x
  cases outcome with
  | error e => rfl
  | ok a => exact congrArg (List.filterMap _) (List.append_nil steps)

/-- What is logged only sometimes comes before what follows. -/
theorem events_when (c : Prop) [Decidable c] (event : Event)
    (f : Unit → Recorded β) :
    (if c then log event >>= f else f ()).events
      = (if c then [event] else []) ++ (f ()).events := by
  split
  · rw [events_bind_of_ok (outcome_log event), events_log]
  · rfl

/-- The events of a list are those of its items, in order. -/
theorem events_mapM_of_ok {f : α → Recorded β} {items : List α}
    {results : List β} (h : (items.mapM f).outcome = .ok results) :
    (items.mapM f).events = items.flatMap fun a => (f a).events := by
  induction items generalizing results with
  | nil =>
      rw [List.mapM_nil, List.flatMap_nil]
      rfl
  | cons a items ih =>
      rw [List.mapM_cons, outcome_bind_eq_ok_iff] at h
      obtain ⟨b, hb, h⟩ := h
      obtain ⟨rest, hrest, -⟩ := outcome_bind_eq_ok_iff.mp h
      rw [List.mapM_cons, events_bind_of_ok hb, events_bind_of_ok hrest,
        ih hrest, events_pure, List.append_nil, List.flatMap_cons]

/-- A list that is gone through, where `P` says what is behind an item, `R` what
that makes, and `log` what is logged for it. -/
theorem exists_of_mapM {γ : Type} {f : α → Recorded β} {P : α → γ → Prop}
    {R : γ → β → Prop} {log : γ → List Event}
    (h : ∀ a b, (f a).outcome = .ok b →
      ∃ c, P a c ∧ R c b ∧ (f a).events = log c)
    {items : List α} {results : List β}
    (hok : (items.mapM f).outcome = .ok results) :
    ∃ behind, List.Forall₂ P items behind ∧ List.Forall₂ R behind results
      ∧ (items.mapM f).events = behind.flatMap log := by
  rw [events_mapM_of_ok hok]
  rw [outcome_mapM_eq_ok_iff] at hok
  induction hok with
  | nil => exact ⟨[], .nil, .nil, rfl⟩
  | @cons a b items results hb _ ih =>
      obtain ⟨c, hP, hR, hlog⟩ := h a b hb
      obtain ⟨behind, hPs, hRs, hlogs⟩ := ih
      refine ⟨c :: behind, .cons hP hPs, .cons hR hRs, ?_⟩
      rw [List.flatMap_cons, List.flatMap_cons, hlog, hlogs]

/-- Of events that are all warnings none is left out. -/
theorem shown_of_warnings {verbose : Bool} {events : List Event}
    (h : ∀ e ∈ events, e.level = .warning) : shown verbose events = events := by
  unfold shown
  split
  · rfl
  · exact List.filter_eq_self.mpr fun e he => decide_eq_true (h e he)

/-- Of two parts of a log as much is shown as of each. -/
theorem shown_append (verbose : Bool) (events events' : List Event) :
    shown verbose (events ++ events')
      = shown verbose events ++ shown verbose events' := by
  unfold shown
  split
  · rfl
  · exact List.filter_append ..

/-- What is logged only sometimes and is no warning is not shown. -/
theorem shown_when {c : Prop} [Decidable c] {event : Event}
    (h : event.level ≠ .warning) (f : Unit → Recorded β) :
    shown false (if c then log event >>= f else f ()).events
      = shown false (f ()).events := by
  rw [events_when, shown_append]
  split
  · have hhidden : shown false [event] = [] := by
      unfold shown
      simp [h]
    rw [hhidden, List.nil_append]
  · rfl

end DetectorHeader.Recorded
