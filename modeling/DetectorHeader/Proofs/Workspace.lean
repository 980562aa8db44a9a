/-
A workspace against the program (`Workspace.runOn_eq`).

A workspace does the steps of a run one at a time, and keeps what they give: a
model is loaded, parameters are derived from it or found in a file, a header is
written for them. A step that fails leaves the workspace as it was
(`load_of_error`, `emit_of_error`), and finding and then writing does what a
run does.
-/
import DetectorHeader.Proofs.Derive
import DetectorHeader.Proofs.Program
import DetectorHeader.Workspace

namespace DetectorHeader.Workspace

open Recorded

variable {w : Workspace} {name path : String} {format : Option Format}

-- =================================================================== loading

/-- What a workspace loads is what is in the file. -/
theorem load_snd (w : Workspace) (name path : String)
    (format : Option Format) : (w.load name path format).2
      = LoadedModel.ofContents format path (w.tree.read path) := by
  unfold load
  dsimp only
  split <;> rfl

/-- A model that cannot be loaded leaves the workspace as it was. -/
theorem load_of_error {e : Error}
    (h : (w.load name path format).2.outcome = .error e) :
    (w.load name path format).1 = w := by
  rw [load_snd] at h
  unfold load
  dsimp only
  rw [h]

/-- A model that is loaded has the name, and nothing else has changed. -/
theorem load_of_ok {m : LoadedModel}
    (h : (w.load name path format).2.outcome = .ok m) :
    (w.load name path format).1.model? name = some m
      ∧ (∀ other ≠ name,
        (w.load name path format).1.model? other = w.model? other)
      ∧ (w.load name path format).1.tree = w.tree
      ∧ (w.load name path format).1.params = w.params := by
  rw [load_snd] at h
  unfold load model?
  dsimp only
  rw [h]
  dsimp only
  refine ⟨?_, fun other hother => ?_, rfl, rfl⟩
  · rw [List.lookup_cons, beq_self_eq_true]
  · rw [List.lookup_cons, beq_false_of_ne hother]

/-- Parameters are derived from the first input and output of a model that has
been loaded just when they are found in its file. -/
theorem derive_eq_ok_iff {m : LoadedModel} {p : Params}
    (h : (w.load name path format).2.outcome = .ok m) :
    (derive m 0 0).outcome = .ok p
      ↔ (w.find path format false).outcome = .ok p := by
  rw [load_snd] at h
  have hload : ((LoadedModel.source format w.tree.read).load path).outcome
      = .ok m := h
  show _ ↔ (DetectorHeader.find (LoadedModel.source format w.tree.read) false
    path).outcome = .ok p
  rw [LoadedModel.outcome_find_of_load hload]
  -- the two look at input and output in different orders
  unfold derive
  simp only [outcome_bind_eq_ok_iff, outcome_ofExcept]
  constructor
  · rintro ⟨input, hinput, output, houtput, hp⟩
    exact ⟨output, houtput, input, hinput, hp⟩
  · rintro ⟨output, houtput, input, hinput, hp⟩
    exact ⟨input, hinput, output, houtput, hp⟩

-- =================================================================== writing

/-- A header that cannot be written leaves the workspace as it was. -/
theorem emit_of_error {p : Params} {e : Error}
    (h : (w.emit path p).2.outcome = .error e) : (w.emit path p).1 = w := by
  unfold emit at h ⊢
  rcases Program.emit_run w.tree path p with ⟨e', hrun, -⟩
    | ⟨text, after, -, -, hrun⟩
  · rw [hrun]
  · rw [hrun] at h
    cases h

/-- A header that is written is in the file, and nothing else has changed. -/
theorem emit_of_ok {p : Params} (h : (w.emit path p).2.outcome = .ok ()) :
    ∃ text, Header.render p = .ok text
      ∧ w.tree.Replaced (w.emit path p).1.tree path (Utf8.encode text)
      ∧ (w.emit path p).1.models = w.models
      ∧ (w.emit path p).1.params = w.params := by
  unfold emit at h ⊢
  rcases Program.emit_run w.tree path p with ⟨e, hrun, -⟩
    | ⟨text, after, htext, hwrite, hrun⟩
  · rw [hrun] at h
    cases h
  · rw [hrun]
    exact ⟨text, htext, FileTree.replaced_of_write hwrite, rfl, rfl⟩

-- ====================================================================== runs

/-- A run with a model finds its parameters and writes their header, as they
are found and it is written in a workspace with the same files; and it ends
with status 0 just when neither fails. -/
theorem runOn_eq (w : Workspace) {arguments : List String}
    {o : CommandLine.Options} (hparse : CommandLine.parse arguments = .run o)
    (hmodel : o.model = some path) :
    (Program.runOn w.tree arguments).2
        = (match (w.find path o.format o.strict).outcome with
          | .ok p => (w.emit o.output p).1.tree
          | .error _ => w.tree)
      ∧ ((Program.runOn w.tree arguments).1.status = 0
        ↔ ∃ p, (w.find path o.format o.strict).outcome = .ok p
          ∧ (w.emit o.output p).2.outcome = .ok ()) := by
  have hrun : Program.runOn w.tree arguments
      = (Program.conclude o path o.verbose
        (w.find path o.format o.strict)).run w.tree := by
    unfold Program.runOn Program.run
    rw [hparse]
    dsimp only
    rw [hmodel]
    rfl
  rw [hrun]
  unfold Program.conclude
  cases (w.find path o.format o.strict).outcome with
  | error e => exact ⟨rfl, by simp⟩
  | ok p =>
      dsimp only
      rw [StateT.run_bind]
      unfold emit
      rcases Program.emit_run w.tree o.output p with ⟨e, hemit, -⟩
        | ⟨text, after, -, -, hemit⟩
      · rw [hemit]
        refine ⟨rfl, iff_of_false (fun h => nomatch h) ?_⟩
        rintro ⟨_, ⟨⟩, hwritten⟩
        rw [hemit] at hwritten
        cases hwritten
      · rw [hemit]
        refine ⟨rfl, iff_of_true rfl ⟨p, rfl, ?_⟩⟩
        rw [hemit]
        rfl

end DetectorHeader.Workspace
