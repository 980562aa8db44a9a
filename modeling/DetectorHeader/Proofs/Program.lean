/-
What a run of the program leaves behind (`runOn_frame`).

The header is written last, when all that can fail but the writing has been
done, and a write that fails changes nothing. So a run either ends with status
0 and has put the header, and nothing else, where it was asked to, or the
files are as they were. How a run with a model can end, with which files, is
said once (`Ends`); the flag for the whole log only decides how much of the
log is shown of it (`extract_ends`).
-/
import DetectorHeader.Onnx.Encode
import DetectorHeader.Program
import DetectorHeader.Proofs.CommandLine
import DetectorHeader.Proofs.FileTree

namespace DetectorHeader.Program

open CommandLine

variable {tree after : FileTree} {o : Options} {path : String}

-- ============================================================= confirmation

/-- The only line that a run prints. -/
theorem savedText_eq (path : String) :
    savedText path = "Model parameters have been saved to " ++ path ++ ".\n" :=
  rfl

/-- The confirmation ends its line, and has no other end of a line than the
path has. -/
theorem count_newline_savedText (path : String) :
    (savedText path).toList.count '\n' = path.toList.count '\n' + 1 := by
  have hfront : "Model parameters have been saved to ".toList.count '\n' = 0 :=
    by decide +kernel
  have hback : ".\n".toList.count '\n' = 1 := by decide +kernel
  rw [savedText_eq, String.toList_append, String.toList_append,
    List.count_append, List.count_append, hfront, hback, Nat.zero_add]

-- ================================================================== headers

/-- Looking for parameters in the files of a tree. -/
def search (tree : FileTree) (o : Options) (path : String) : Recorded Params :=
  find (LoadedModel.source o.format tree.read) o.strict path

/-- A write that fails leaves the files as they are. -/
theorem storage_write_run (tree : FileTree) (path : String)
    (contents : Bytes) :
    (FileTree.storage.write path contents).run tree
      = match tree.write path contents with
        | .error fault => (.error fault, tree)
        | .ok after => (.ok (), after) := by
  show StateT.run (match tree.write path contents with
    | .error fault => pure (.error fault)
    | .ok after => do
        set after
        pure (.ok ()) : StateM FileTree (Except FileFault Unit)) tree = _
  cases tree.write path contents <;> rfl

/-- A header that has no text, or cannot be written to where it should go,
leaves the files as they are. -/
theorem emit_run (tree : FileTree) (path : String) (p : Params) :
    (∃ e, (Header.emit FileTree.storage path p).run tree = (.fail e, tree)
      ∧ ∀ text, Header.render p = .ok text →
          ∀ after, tree.write path (Utf8.encode text) ≠ .ok after)
    ∨ ∃ text after, Header.render p = .ok text
      ∧ tree.write path (Utf8.encode text) = .ok after
      ∧ (Header.emit FileTree.storage path p).run tree
        = (.log (.written path (Utf8.encode text).length), after) := by
  unfold Header.emit
  cases Header.render p with
  | error e => exact .inl ⟨e, rfl, fun text h => nomatch h⟩
  | ok text =>
      dsimp only
      rw [StateT.run_bind, storage_write_run]
      cases hwrite : tree.write path (Utf8.encode text) with
      | error fault =>
          refine .inl ⟨.file fault, rfl, fun text' htext after h => ?_⟩
          cases htext
          rw [hwrite] at h
          cases h
      | ok after => exact .inr ⟨text, after, rfl, hwrite, rfl⟩

/-- How a run that has a model to look at can end, with the whole log, and
with which files. -/
inductive Ends (tree : FileTree) (o : Options) (path : String) :
    Ending → FileTree → Prop
  /-- No parameters are found. -/
  | lost {e : Error} (hfound : (search tree o path).outcome = .error e) :
      Ends tree o path {
        status := 1
        failure := some (report s!"failed to read parameters from {path}" e)
        log := (search tree o path).events } tree
  /-- There is no header for the parameters, or no file for it. -/
  | refused {p : Params} {e : Error}
      (hfound : (search tree o path).outcome = .ok p)
      (hwrite : ∀ text, Header.render p = .ok text →
        ∀ after, tree.write o.output (Utf8.encode text) ≠ .ok after) :
      Ends tree o path {
        status := 1
        failure := some (report s!"failed to write {o.output}" e)
        log := (search tree o path).events ++ [] } tree
  /-- The header is written. -/
  | saved {p : Params} {text : String} {after : FileTree}
      (hfound : (search tree o path).outcome = .ok p)
      (htext : Header.render p = .ok text)
      (hwrite : tree.write o.output (Utf8.encode text) = .ok after) :
      Ends tree o path {
        status := 0
        output := savedText o.output
        log := (search tree o path).events
          ++ [.written o.output (Utf8.encode text).length] } after

/-- The rest of a run that has looked for parameters. -/
def conclude (o : Options) (path : String) (verbose : Bool)
    (found : Recorded Params) : StateM FileTree Ending :=
  match found.outcome with
  | .error e => pure {
      status := 1
      failure := some (report s!"failed to read parameters from {path}" e)
      log := shown verbose found.events }
  | .ok params => do
      let written ← Header.emit FileTree.storage o.output params
      let log := shown verbose (found.events ++ written.events)
      match written.outcome with
      | .error e => pure {
          status := 1
          failure := some (report s!"failed to write {o.output}" e)
          log }
      | .ok () => pure {
          status := 0
          output := savedText o.output
          log }

/-- A run looks for parameters and then concludes. -/
theorem extract_run (tree : FileTree) (o : Options) (path : String)
    (verbose : Bool) :
    (extract FileTree.storage { o with verbose } path).run tree
      = (conclude o path verbose (search tree o path)).run tree := by
  rfl

/-- A run with a model ends in one of these ways, and shows as much of its
log as it is asked to. -/
theorem extract_ends (tree : FileTree) (o : Options) (path : String) :
    ∃ ending after, Ends tree o path ending after
      ∧ ∀ verbose, (extract FileTree.storage { o with verbose } path).run tree
          = ({ ending with log := shown verbose ending.log }, after) := by
  cases hfound : (search tree o path).outcome with
  | error e =>
      refine ⟨_, _, .lost hfound, fun verbose => ?_⟩
      rw [extract_run, conclude, hfound]
      rfl
  | ok p =>
      rcases emit_run tree o.output p with ⟨e, hrun, hnone⟩
        | ⟨text, after, htext, hwrite, hrun⟩
      · refine ⟨_, _, .refused (e := e) hfound hnone, fun verbose => ?_⟩
        rw [extract_run, conclude, hfound]
        dsimp only
        rw [StateT.run_bind, hrun]
        rfl
      · refine ⟨_, _, .saved hfound htext hwrite, fun verbose => ?_⟩
        rw [extract_run, conclude, hfound]
        dsimp only
        rw [StateT.run_bind, hrun]
        rfl

/-- The parameters in the model that a command names have a header. -/
def HasHeader (tree : FileTree) (o : Options) (text : String) : Prop :=
  ∃ path p, o.model = some path ∧ (search tree o path).outcome = .ok p
    ∧ Header.render p = .ok text

namespace Ends

variable {ending : Ending}

/-- A run that fails leaves the tree as it was. -/
theorem tree_eq (h : Ends tree o path ending after)
    (hstatus : ending.status ≠ 0) : after = tree := by
  cases h with
  | lost _ => rfl
  | refused _ _ => rfl
  | saved _ _ _ => exact absurd rfl hstatus

/-- A run on a model that succeeds has written its header. -/
theorem saved_of_status (h : Ends tree o path ending after)
    (hmodel : o.model = some path) (hstatus : ending.status = 0) :
    ∃ text, HasHeader tree o text ∧ ending.output = savedText o.output
      ∧ tree.write o.output (Utf8.encode text) = .ok after := by
  cases h with
  | lost _ => cases hstatus
  | refused _ _ => cases hstatus
  | @saved p text _ hfound htext hwrite =>
      exact ⟨text, ⟨path, p, hmodel, hfound, htext⟩, rfl, hwrite⟩

/-- If there is a header for the model and a place to write it, the run
succeeds. -/
theorem status_of_header (h : Ends tree o path ending after)
    (hmodel : o.model = some path) {text : String} {l : Location}
    (hheader : HasHeader tree o text) (htarget : tree.target o.output = .ok l) :
    ending.status = 0 := by
  obtain ⟨path', p, hmodel', hfound, htext⟩ := hheader
  cases hmodel.symm.trans hmodel'
  cases h with
  | lost hlost =>
      rw [hfound] at hlost
      cases hlost
  | refused hfound' hwrite =>
      rw [hfound] at hfound'
      cases hfound'
      exact absurd (FileTree.write_eq_ok_iff.mpr ⟨l, htarget, rfl⟩)
        (hwrite text htext _)
  | saved _ _ _ => rfl

end Ends

-- ================================================================== all runs

/-- Two runs that end alike, up to their logs, and leave the same files. -/
def Alike (x y : Ending × FileTree) : Prop :=
  x.1.status = y.1.status ∧ x.1.output = y.1.output
    ∧ x.1.failure = y.1.failure ∧ x.2 = y.2

/-- Whether a command looks for a model, which one without the path of a model
does not. -/
def Looks : Command → Prop
  | .run o => o.model.isSome
  | .help | .version | .misuse => False

/-- A run that does not look for a model leaves the files alone. -/
theorem runOn_of_not_looks {arguments : List String}
    (h : ¬ Looks (parse arguments)) :
    ∃ ending, (∀ tree, runOn tree arguments = (ending, tree))
      ∧ (ending.status = 0
        ↔ parse arguments = .help ∨ parse arguments = .version) := by
  unfold runOn run
  cases hparse : parse arguments with
  | help => exact ⟨_, fun _ => rfl, by simp⟩
  | version => exact ⟨_, fun _ => rfl, by simp⟩
  | misuse => exact ⟨_, fun _ => rfl, by simp⟩
  | run o =>
      rw [hparse] at h
      have hmodel : o.model = none := by simpa [Looks] using h
      dsimp only
      rw [hmodel]
      exact ⟨_, fun _ => rfl, by simp⟩

/-- A run that looks for a model ends in one of the ways that there are, the
same one whether or not the whole log is asked for. -/
theorem runOn_ends (tree : FileTree) (hmodel : o.model = some path) :
    ∃ ending after, Ends tree o path ending after
      ∧ ∀ arguments verbose, parse arguments = .run { o with verbose } →
        runOn tree arguments
          = ({ ending with log := shown verbose ending.log }, after) := by
  obtain ⟨ending, after, hends, hrun⟩ := extract_ends tree o path
  refine ⟨ending, after, hends, fun arguments verbose hparse => ?_⟩
  rw [← hrun verbose]
  unfold runOn run
  rw [hparse]
  dsimp only
  rw [hmodel]

/-- A run that looks for a model, with the options that it has. -/
theorem runOn_of_looks (tree : FileTree) {arguments : List String}
    (h : Looks (parse arguments)) :
    ∃ o path ending after, parse arguments = .run o ∧ o.model = some path
      ∧ Ends tree o path ending after
      ∧ runOn tree arguments
        = ({ ending with log := shown o.verbose ending.log }, after) := by
  cases hparse : parse arguments with
  | run o =>
      rw [hparse] at h
      obtain ⟨path, hmodel⟩ := Option.isSome_iff_exists.mp h
      obtain ⟨ending, after, hends, hrun⟩ := runOn_ends tree hmodel
      exact ⟨o, path, ending, after, rfl, hmodel, hends, hrun _ _ hparse⟩
  | help | version | misuse =>
      rw [hparse] at h
      exact h.elim

/-- A run that ends with status 0 looks for a model, unless it is asked for
help or the version. -/
theorem looks_of_status {arguments : List String}
    (hparse : parse arguments = .run o)
    (hstatus : (runOn tree arguments).1.status = 0) :
    Looks (parse arguments) := by
  by_contra hlooks
  obtain ⟨ending, hrun, hzero⟩ := runOn_of_not_looks hlooks
  rw [hrun] at hstatus
  rcases hzero.mp hstatus with h | h
  · rw [hparse] at h
    cases h
  · rw [hparse] at h
    cases h

/-- A run that ends with status 0 and has options has written a header. -/
theorem saved_of_runOn {arguments : List String}
    (hparse : parse arguments = .run o)
    (hstatus : (runOn tree arguments).1.status = 0) :
    ∃ text, HasHeader tree o text
      ∧ (runOn tree arguments).1.output = savedText o.output
      ∧ tree.write o.output (Utf8.encode text)
        = .ok (runOn tree arguments).2 := by
  obtain ⟨o', path, ending, after, hparse', hmodel, hends, hrun⟩ :=
    runOn_of_looks tree (looks_of_status hparse hstatus)
  cases hparse.symm.trans hparse'
  rw [hrun] at hstatus ⊢
  exact hends.saved_of_status hmodel hstatus

/-- A run that finds parameters with a header, and a place for it, ends with
status 0. -/
theorem status_of_header {arguments : List String}
    (hparse : parse arguments = .run o) {text : String} {l : Location}
    (hheader : HasHeader tree o text)
    (htarget : tree.target o.output = .ok l) :
    (runOn tree arguments).1.status = 0 := by
  obtain ⟨path, p, hmodel, -⟩ := id hheader
  obtain ⟨ending, after, hends, hrun⟩ := runOn_ends tree hmodel
  rw [hrun arguments o.verbose hparse]
  exact hends.status_of_header hmodel hheader htarget

/-- What is asked for decides how a run ends, up to its log. -/
theorem runOn_alike (tree : FileTree) {arguments arguments' : List String}
    (h : (parse arguments').quiet = (parse arguments).quiet) :
    Alike (runOn tree arguments') (runOn tree arguments) := by
  rcases Command.eq_of_quiet_eq h with hsame | ⟨o, verbose, hparse, hparse'⟩
  · unfold runOn run
    rw [hsame]
    exact ⟨rfl, rfl, rfl, rfl⟩
  · cases hmodel : o.model with
    | some path =>
        obtain ⟨ending, after, -, hrun⟩ := runOn_ends tree hmodel
        rw [hrun arguments o.verbose hparse, hrun arguments' verbose hparse']
        exact ⟨rfl, rfl, rfl, rfl⟩
    | none =>
        unfold runOn run
        rw [hparse, hparse']
        dsimp only
        rw [hmodel]
        exact ⟨rfl, rfl, rfl, rfl⟩

/-- A run ends with status 0 if it is asked for help or the version, or finds
parameters with a header in a model and can write the header; it then confirms
that in one line with the path of the header, and of all files the one that it
was to write is as the header says, and the others as they were. A run that
ends otherwise, or is not asked to look at a model, leaves the files as they
were. All this holds whether or not the whole log is asked for. -/
theorem runOn_frame (tree : FileTree) (arguments : List String) :
    ((runOn tree arguments).1.status ≠ 0 → (runOn tree arguments).2 = tree)
    ∧ (¬ Looks (parse arguments) → (runOn tree arguments).2 = tree)
    ∧ ((runOn tree arguments).1.status = 0
      ↔ parse arguments = .help ∨ parse arguments = .version
        ∨ ∃ o text l, parse arguments = .run o ∧ HasHeader tree o text
          ∧ tree.target o.output = .ok l)
    ∧ (∀ o, parse arguments = .run o → (runOn tree arguments).1.status = 0 →
        ∃ text, HasHeader tree o text
          ∧ (runOn tree arguments).1.output
            = "Model parameters have been saved to " ++ o.output ++ ".\n"
          ∧ (runOn tree arguments).1.output.toList.count '\n'
            = o.output.toList.count '\n' + 1
          ∧ tree.Replaced (runOn tree arguments).2 o.output
              (Utf8.encode text))
    ∧ (∀ arguments', (parse arguments').quiet = (parse arguments).quiet →
        Alike (runOn tree arguments') (runOn tree arguments))
    ∧ ∀ before rest, arguments = before ++ rest → "--" ∉ before →
        ∀ flag ∈ verboseFlags, parse (before ++ flag :: rest) ≠ .misuse →
          Alike (runOn tree (before ++ flag :: rest))
            (runOn tree arguments) := by
  refine ⟨fun hstatus => ?_, fun hlooks => ?_, ?_, fun o hparse hstatus => ?_,
    fun _ => runOn_alike tree, ?_⟩
  · -- what looks at no model writes nothing, and what does has failed before
    by_cases hlooks : Looks (parse arguments)
    · obtain ⟨o, path, ending, after, -, -, hends, hrun⟩ :=
        runOn_of_looks tree hlooks
      rw [hrun] at hstatus ⊢
      exact hends.tree_eq hstatus
    · obtain ⟨ending, hrun, -⟩ := runOn_of_not_looks hlooks
      rw [hrun]
  · obtain ⟨ending, hrun, -⟩ := runOn_of_not_looks hlooks
    rw [hrun]
  · constructor
    · intro hstatus
      cases hparse : parse arguments with
      | help => exact .inl rfl
      | version => exact .inr (.inl rfl)
      | misuse =>
          unfold runOn run at hstatus
          rw [hparse] at hstatus
          cases hstatus
      | run o =>
          obtain ⟨text, hheader, -, hwrite⟩ := saved_of_runOn hparse hstatus
          obtain ⟨l, htarget, -⟩ := FileTree.write_eq_ok_iff.mp hwrite
          exact .inr (.inr ⟨o, text, l, rfl, hheader, htarget⟩)
    · intro h
      rcases h with hparse | hparse | ⟨o, text, l, hparse, hheader, htarget⟩
      · unfold runOn run
        rw [hparse]
        rfl
      · unfold runOn run
        rw [hparse]
        rfl
      · exact status_of_header hparse hheader htarget
  · obtain ⟨text, hheader, houtput, hwrite⟩ := saved_of_runOn hparse hstatus
    rw [houtput]
    exact ⟨text, hheader, savedText_eq o.output, count_newline_savedText _,
      FileTree.replaced_of_write hwrite⟩
  · -- the flag changes nothing that a run asks for but the log
    rintro before rest rfl hbefore flag hflag hparse
    rcases parse_insert_verbose hflag hbefore rest with hmisuse | hquiet
    · exact absurd hmisuse hparse
    · exact runOn_alike tree hquiet

/-- A graph value with the given dimensions. -/
def sampleValue (name : String) (dims : List Int64) : Onnx.ValueInfo where
  name := some name
  type := some { tensor := some {
    elementType := some 1
    shape := some { dims := dims.map fun d => ⟨some (.value d)⟩ } } }

/-- A model in the working directory, and a header from before below it. -/
def sampleTree : FileTree where
  home := ["projects", "detector"]
  entries := [
    (["projects", "detector", "model.onnx"],
      .file (Onnx.Model.encode { graph := some {
        input := [sampleValue "x" [1, 2, 3]]
        output := [sampleValue "y" [1, 2, 6]] } })),
    (["projects", "detector", "include"], .directory),
    (["projects", "detector", "include", "params.h"], .file [0x31])]

/-- The path of the header leads out of the working directory and back. -/
def sampleArguments : List String :=
  ["model.onnx", "-vo", "../detector/include/params.h"]

/-- The header from before is replaced, and the line names its path as it was
given. -/
theorem sampleTree_saved :
    ∃ o text, parse sampleArguments = .run o
      ∧ (runOn sampleTree sampleArguments).1.status = 0
      ∧ HasHeader sampleTree o text
      ∧ (runOn sampleTree sampleArguments).1.output
        = "Model parameters have been saved to ../detector/include/params.h.\n"
      ∧ sampleTree.Replaced (runOn sampleTree sampleArguments).2 o.output
          (Utf8.encode text) := by
  have hparse : parse sampleArguments = .run {
      model := some "model.onnx"
      output := "../detector/include/params.h"
      verbose := true } := by decide +kernel
  have hstatus : (runOn sampleTree sampleArguments).1.status = 0 := by
    decide +kernel
  obtain ⟨-, -, -, hsaved, -⟩ := runOn_frame sampleTree sampleArguments
  obtain ⟨text, hheader, houtput, -, hreplaced⟩ := hsaved _ hparse hstatus
  exact ⟨_, text, hparse, hstatus, hheader, houtput, hreplaced⟩

end DetectorHeader.Program
