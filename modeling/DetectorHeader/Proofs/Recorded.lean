/-
How computations that keep a record end. One that has two parts stops where
the first part does, and only else where the second one does (`InTurn`,
`outcome_inTurn_iff`), and one that goes through a list stops at the first item
that something is wrong with (`InOrder`, `outcome_mapM_iff`).

`x.FailsIn P` says that every error that `x` stops at is in `P`; the lemmas go
along the ways in which computations are put together, so that the errors of a
whole are those that its parts name.
-/
import DetectorHeader.Recorded
import Mathlib

namespace DetectorHeader.Recorded

variable {α β : Type} {P : Error → Prop} {x : Recorded α}

/-- A value that is at hand is no step. -/
theorem ofExcept_ok (a : α) : ofExcept (.ok a) = pure a := rfl

@[simp] theorem outcome_ofExcept (outcome : Except Error α) :
    (ofExcept outcome).outcome = outcome := rfl

@[simp] theorem outcome_log (event : Event) : (log event).outcome = .ok () :=
  rfl

/-- A function applied to a result is applied to the outcome. -/
theorem outcome_map (f : α → β) (x : Recorded α) :
    (f <$> x).outcome = f <$> x.outcome := by
  obtain ⟨steps, outcome⟩ := x
  cases outcome <;> rfl

theorem outcome_map_eq_ok_iff {f : α → β} {b : β} :
    (f <$> x).outcome = .ok b ↔ ∃ a, x.outcome = .ok a ∧ f a = b := by
  rw [outcome_map]
  cases x.outcome with
  | error e => simp
  | ok a => simp

/-- After a value the outcome is that of what follows. -/
theorem outcome_bind_of_ok {f : α → Recorded β} {a : α}
    (h : x.outcome = .ok a) : (x >>= f).outcome = (f a).outcome := by
  rw [outcome_bind, h]
  rfl

/-- What is recorded only sometimes does not bear on the outcome. -/
theorem outcome_when (c : Prop) [Decidable c] (event : Event)
    (f : Unit → Recorded β) :
    (if c then log event >>= f else f ()).outcome = (f ()).outcome := by
  split <;> rfl

/-- Two steps succeed iff the one does and then the other. -/
theorem outcome_bind_eq_ok_iff {f : α → Recorded β} {b : β} :
    (x >>= f).outcome = .ok b
      ↔ ∃ a, x.outcome = .ok a ∧ (f a).outcome = .ok b := by
  rw [outcome_bind]
  cases x.outcome with
  | error e => simp [bind, Except.bind]
  | ok a => simp [bind, Except.bind]

/-- They fail iff the first fails, or the second on its result. -/
theorem outcome_bind_eq_error_iff {f : α → Recorded β} {e : Error} :
    (x >>= f).outcome = .error e
      ↔ x.outcome = .error e
        ∨ ∃ a, x.outcome = .ok a ∧ (f a).outcome = .error e := by
  rw [outcome_bind]
  cases x.outcome with
  | error e' => simp [bind, Except.bind]
  | ok a => simp [bind, Except.bind]

/-- What is made with `mk` of two parts, where `X` and `Y` say how each of them
ends. The second part is looked at only after a value of the first one. -/
inductive InTurn {γ : Type} (X : Except Error α → Prop)
    (Y : Except Error β → Prop) (mk : α → β → γ) : Except Error γ → Prop
  | first {e} (hx : X (.error e)) : InTurn X Y mk (.error e)
  | second {a e} (hx : X (.ok a)) (hy : Y (.error e)) :
      InTurn X Y mk (.error e)
  | both {a b} (hx : X (.ok a)) (hy : Y (.ok b)) :
      InTurn X Y mk (.ok (mk a b))

theorem InTurn.imp {γ : Type} {X X' : Except Error α → Prop}
    {Y Y' : Except Error β → Prop} {mk : α → β → γ}
    {outcome : Except Error γ} (h : InTurn X Y mk outcome)
    (hX : ∀ outcome, X outcome → X' outcome)
    (hY : ∀ outcome, Y outcome → Y' outcome) : InTurn X' Y' mk outcome := by
  cases h with
  | first hx => exact .first (hX _ hx)
  | second hx hy => exact .second (hX _ hx) (hY _ hy)
  | both hx hy => exact .both (hX _ hx) (hY _ hy)

/-- Of two steps in turn the outcome follows from those of both. -/
theorem outcome_inTurn_iff {γ : Type} {x : Recorded α} {y : Recorded β}
    {mk : α → β → γ} {X : Except Error α → Prop} {Y : Except Error β → Prop}
    (hX : ∀ {outcome}, x.outcome = outcome ↔ X outcome)
    (hY : ∀ {outcome}, y.outcome = outcome ↔ Y outcome)
    {outcome : Except Error γ} :
    (do
        let a ← x
        let b ← y
        return mk a b : Recorded γ).outcome = outcome
      ↔ InTurn X Y mk outcome := by
  constructor
  · intro h
    cases outcome with
    | ok c =>
        simp only [outcome_bind_eq_ok_iff, hX, hY] at h
        obtain ⟨a, ha, b, hb, hc⟩ := h
        rw [← hc]
        exact .both ha hb
    | error e =>
        simp only [outcome_bind_eq_error_iff, hX, hY] at h
        rcases h with he | ⟨a, ha, he | ⟨_, -, h⟩⟩
        · exact .first he
        · exact .second ha he
        · cases h
  · intro h
    cases h with
    | first hx =>
        rw [outcome_bind, hX.mpr hx]
        rfl
    | second hx hy =>
        rw [outcome_bind_of_ok (hX.mpr hx), outcome_bind, hY.mpr hy]
        rfl
    | both hx hy =>
        rw [outcome_bind_of_ok (hX.mpr hx), outcome_bind_of_ok (hY.mpr hy)]
        rfl

/-- Items are all processed iff each of them is. -/
theorem outcome_mapM_eq_ok_iff {f : α → Recorded β} {items : List α}
    {results : List β} :
    (items.mapM f).outcome = .ok results
      ↔ List.Forall₂ (fun a b => (f a).outcome = .ok b) items results := by
  induction items generalizing results with
  | nil =>
      rw [List.mapM_nil, List.forall₂_nil_left_iff]
      exact ⟨fun h => (Except.ok.inj h).symm, fun h => h ▸ rfl⟩
  | cons a items ih =>
      rw [List.mapM_cons, outcome_bind_eq_ok_iff, List.forall₂_cons_left_iff]
      refine exists_congr fun b => ?_
      simp only [outcome_bind_eq_ok_iff, ih, outcome_pure, Except.ok.injEq]
      constructor
      · intro h
        obtain ⟨hb, rest, hrest, hresults⟩ := h
        exact ⟨rest, hb, hrest, hresults.symm⟩
      · intro h
        obtain ⟨rest, hb, hrest, hresults⟩ := h
        exact ⟨hb, rest, hrest, hresults.symm⟩

/-- The error is that of the first item which cannot be. -/
theorem outcome_mapM_eq_error_iff {f : α → Recorded β} {items : List α}
    {e : Error} :
    (items.mapM f).outcome = .error e
      ↔ ∃ before a after, items = before ++ a :: after
        ∧ (∀ c ∈ before, ∃ b, (f c).outcome = .ok b)
        ∧ (f a).outcome = .error e := by
  induction items with
  | nil =>
      rw [List.mapM_nil]
      refine iff_of_false (fun h => nomatch h) ?_
      intro h
      obtain ⟨before, a, after, hitems, -⟩ := h
      exact List.append_ne_nil_of_right_ne_nil before (List.cons_ne_nil a after)
        hitems.symm
  | cons a items ih =>
      rw [List.mapM_cons, outcome_bind_eq_error_iff]
      simp only [outcome_bind_eq_error_iff, ih, outcome_pure, reduceCtorEq,
        and_false, exists_false, or_false]
      constructor
      · intro h
        rcases h with ha | ⟨b, hb, before, c, after, hitems, hbefore, hc⟩
        · exact ⟨[], a, items, rfl, by simp, ha⟩
        · refine ⟨a :: before, c, after, by rw [hitems]; rfl, ?_, hc⟩
          exact List.forall_mem_cons.mpr ⟨⟨b, hb⟩, hbefore⟩
      · intro h
        obtain ⟨before, c, after, hitems, hbefore, hc⟩ := h
        cases before with
        | nil =>
            cases hitems
            exact .inl hc
        | cons d before =>
            cases hitems
            obtain ⟨⟨b, hb⟩, hbefore⟩ := List.forall_mem_cons.mp hbefore
            exact .inr ⟨b, hb, before, c, after, rfl, hbefore, hc⟩

/-- What is made of a list item by item, where `P` says what an item is made
into and `E` what is wrong with one: a result for each item, in order, or what
is wrong with the first item that cannot be made into anything. -/
inductive InOrder (P : α → β → Prop) (E : α → Error → Prop) :
    List α → Except Error (List β) → Prop
  | all {items results} (h : List.Forall₂ P items results) :
      InOrder P E items (.ok results)
  | first {before a after e} (hbefore : ∀ c ∈ before, ∃ b, P c b)
      (h : E a e) : InOrder P E (before ++ a :: after) (.error e)

/-- So the outcome for a list follows from those of its items in their order. -/
theorem outcome_mapM_iff {f : α → Recorded β} {P : α → β → Prop}
    {E : α → Error → Prop} (hP : ∀ a b, (f a).outcome = .ok b ↔ P a b)
    (hE : ∀ a e, (f a).outcome = .error e ↔ E a e) {items : List α}
    {outcome : Except Error (List β)} :
    (items.mapM f).outcome = outcome ↔ InOrder P E items outcome := by
  cases outcome with
  | ok results =>
      simp only [outcome_mapM_eq_ok_iff, hP]
      constructor
      · exact .all
      · intro h
        cases h with
        | all h => exact h
  | error e =>
      simp only [outcome_mapM_eq_error_iff, hP, hE]
      constructor
      · intro h
        obtain ⟨before, a, after, rfl, hbefore, ha⟩ := h
        exact .first hbefore ha
      · intro h
        cases h with
        | first hbefore ha => exact ⟨_, _, _, rfl, hbefore, ha⟩

/-- Only what is said of the items of the list matters. -/
theorem InOrder.imp {P P' : α → β → Prop} {E E' : α → Error → Prop}
    {items : List α} {outcome : Except Error (List β)}
    (h : InOrder P E items outcome)
    (hP : ∀ a ∈ items, ∀ b, P a b → P' a b)
    (hE : ∀ a ∈ items, ∀ e, E a e → E' a e) :
    InOrder P' E' items outcome := by
  cases h with
  | all h =>
      have hmem := (List.forall₂_and_left _ _).mpr ⟨fun a ha => ha, h⟩
      exact .all (hmem.imp fun a b hab => hP a hab.1 b hab.2)
  | @first before a after e hbefore ha =>
      refine .first (fun c hc => ?_) (hE a (by simp) e ha)
      obtain ⟨b, hb⟩ := hbefore c hc
      exact ⟨b, hP c (List.mem_append_left _ hc) b hb⟩

theorem InOrder.forall₂ {P : α → β → Prop} {E : α → Error → Prop}
    {items : List α} {results : List β}
    (h : InOrder P E items (.ok results)) : List.Forall₂ P items results := by
  cases h with
  | all h => exact h

/-- Where there are results, every item has one. -/
theorem InOrder.exists_of_mem {P : α → β → Prop} {E : α → Error → Prop}
    {items : List α} {results : List β}
    (h : InOrder P E items (.ok results)) : ∀ a ∈ items, ∃ b, P a b := by
  cases h with
  | all h =>
      have hresult : List.Forall₂ (fun a b => (∃ b, P a b) ∧ P a b) items
          results := h.imp fun a b hab => ⟨⟨b, hab⟩, hab⟩
      exact ((List.forall₂_and_left _ _).mp hresult).1

/-- Where there is an error, it is what is wrong with some item. -/
theorem InOrder.exists_fault {P : α → β → Prop} {E : α → Error → Prop}
    {items : List α} {e : Error} (h : InOrder P E items (.error e)) :
    ∃ a ∈ items, E a e := by
  cases h with
  | @first before a after _ _ ha => exact ⟨a, by simp, ha⟩

/-- Every error at which the computation stops is in `P`. -/
def FailsIn (P : Error → Prop) (x : Recorded α) : Prop :=
  ∀ e, x.outcome = .error e → P e

namespace FailsIn

theorem pure (a : α) : FailsIn P (pure a : Recorded α) :=
  fun _ h => nomatch h

theorem log (event : Event) : FailsIn P (log event) := fun _ h => nomatch h

theorem fail {e : Error} (he : P e) : FailsIn P (fail e : Recorded α) := by
  intro e' h
  cases h
  exact he

theorem ofExcept {outcome : Except Error α}
    (h : ∀ e, outcome = .error e → P e) : FailsIn P (ofExcept outcome) := h

theorem bind {f : α → Recorded β} (hx : FailsIn P x)
    (hf : ∀ a, FailsIn P (f a)) : FailsIn P (x >>= f) := by
  intro e h
  rw [outcome_bind] at h
  cases hout : x.outcome with
  | error e' =>
      rw [hout] at h
      cases h
      exact hx e hout
  | ok a =>
      rw [hout] at h
      exact hf a e h

theorem mapM {items : List α} {f : α → Recorded β}
    (h : ∀ a ∈ items, FailsIn P (f a)) : FailsIn P (items.mapM f) := by
  induction items with
  | nil =>
      rw [List.mapM_nil]
      exact FailsIn.pure _
  | cons a items ih =>
      obtain ⟨ha, hitems⟩ := List.forall_mem_cons.mp h
      rw [List.mapM_cons]
      exact ha.bind fun _ => (ih hitems).bind fun _ => FailsIn.pure _

end FailsIn

end DetectorHeader.Recorded
