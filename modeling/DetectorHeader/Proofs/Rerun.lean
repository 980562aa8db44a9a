/-
A run of the program that is repeated (`runOn_runOn`).

A run that does not end with status 0 leaves the files alone, so the next one
finds what it found. A run that ends with status 0 has written a header, and
what it was made from is as it was, unless it was written over: the same model
is read, and the same header is written to the same place. Nor does it matter
what was in that place (`runOn_of_write`).
-/
import DetectorHeader.Proofs.Program

namespace DetectorHeader.Program

open CommandLine

variable {tree before : FileTree} {o : Options} {path : String}

/-- The header does not go where the model is: the path of the model leads to
another location, or nowhere. -/
def Apart (tree : FileTree) (o : Options) : Prop :=
  ∀ path l, o.model = some path → tree.locate path = .ok l →
    tree.target o.output ≠ .ok l

-- =================================================================== searches

/-- Of the files only the one at the path is looked at. -/
theorem search_congr {after : FileTree} (h : after.read path = tree.read path) :
    search after o path = search tree o path := by
  show find (LoadedModel.source o.format fun _ => after.read path) o.strict
    path = find (LoadedModel.source o.format fun _ => tree.read path) o.strict
    path
  rw [h]

/-- Parameters are found in a file that can be read. -/
theorem exists_read_of_search {p : Params}
    (h : (search tree o path).outcome = .ok p) :
    ∃ bytes, tree.read path = .ok bytes := by
  cases hread : tree.read path with
  | ok bytes => exact ⟨bytes, rfl⟩
  | error fault =>
      have hfails : (search tree o path).outcome = .error (.file fault) := by
        show (find (LoadedModel.source o.format fun _ => tree.read path)
          o.strict path).outcome = _
        rw [hread]
        rfl
      rw [hfails] at h
      cases h

/-- A search that finds parameters finds the same after a write elsewhere. -/
theorem search_of_write {contents : Bytes} {p : Params} (hapart : Apart tree o)
    (hmodel : o.model = some path)
    (hfound : (search tree o path).outcome = .ok p)
    (hwrite : tree.write o.output contents = .ok before) :
    search before o path = search tree o path := by
  obtain ⟨bytes, hread⟩ := exists_read_of_search hfound
  apply search_congr
  rw [hread]
  exact FileTree.read_of_write hwrite hread
    fun l => hapart path l hmodel

-- ======================================================================= runs

/-- A run that writes a header ends the same, and leaves the same files, if
something else has been written to the place of the header before. -/
theorem runOn_of_write {arguments : List String} {contents : Bytes}
    (hparse : parse arguments = .run o) (hapart : Apart tree o)
    (hstatus : (runOn tree arguments).1.status = 0)
    (hwrite : tree.write o.output contents = .ok before) :
    runOn before arguments = runOn tree arguments := by
  obtain ⟨o', path, ending, after, hparse', hmodel, hends, hrun⟩ :=
    runOn_of_looks tree (looks_of_status hparse hstatus)
  cases hparse.symm.trans hparse'
  rw [hrun] at hstatus ⊢
  obtain ⟨ending', after', hends', hrun'⟩ := runOn_ends before hmodel
  rw [hrun' arguments o.verbose hparse]
  cases hends with
  | lost _ => cases hstatus
  | refused _ _ => cases hstatus
  | @saved p text _ hfound htext hsaved =>
      -- The search does not see what is at the place of the header.
      have hsearch := search_of_write hapart hmodel hfound hwrite
      have hagain : before.write o.output (Utf8.encode text) = .ok after := by
        rw [FileTree.write_write hwrite]
        exact hsaved
      cases hends' with
      | lost hlost =>
          rw [hsearch, hfound] at hlost
          cases hlost
      | refused hfound' hrefused =>
          rw [hsearch, hfound] at hfound'
          cases hfound'
          exact absurd hagain (hrefused text htext after)
      | @saved p' text' _ hfound' htext' hsaved' =>
          rw [hsearch, hfound] at hfound'
          cases hfound'
          cases htext.symm.trans htext'
          cases hagain.symm.trans hsaved'
          rw [hsearch]

/-- A run that is repeated ends as it did, and leaves the files as it left
them, as long as the header does not go where the model is. In particular the
header is the same, whatever was in its place before. -/
theorem runOn_runOn (tree : FileTree) (arguments : List String)
    (hapart : ∀ o, parse arguments = .run o → Apart tree o) :
    runOn (runOn tree arguments).2 arguments = runOn tree arguments
      ∧ ∀ o contents before, parse arguments = .run o →
        (runOn tree arguments).1.status = 0 →
        tree.write o.output contents = .ok before →
          runOn before arguments = runOn tree arguments := by
  refine ⟨?_, fun o contents before hparse hstatus hwrite =>
    runOn_of_write hparse (hapart o hparse) hstatus hwrite⟩
  by_cases hlooks : Looks (parse arguments)
  · obtain ⟨o, path, ending, after, hparse, hmodel, hends, hrun⟩ :=
      runOn_of_looks tree hlooks
    by_cases hstatus : (runOn tree arguments).1.status = 0
    · obtain ⟨text, -, -, hwrite⟩ := saved_of_runOn hparse hstatus
      exact runOn_of_write hparse (hapart o hparse) hstatus hwrite
    · have hsame : after = tree := by
        rw [hrun] at hstatus
        exact hends.tree_eq hstatus
      rw [hrun, hsame, hrun, hsame]
  · obtain ⟨ending, hrun, -⟩ := runOn_of_not_looks hlooks
    rw [hrun tree]
    exact hrun tree

theorem sampleTree_runOn :
    (runOn sampleTree sampleArguments).1.status = 0
      ∧ runOn (runOn sampleTree sampleArguments).2 sampleArguments
        = runOn sampleTree sampleArguments := by
  have hparse : parse sampleArguments = .run {
      model := some "model.onnx"
      output := "../detector/include/params.h"
      verbose := true } := by decide +kernel
  have hlocate : sampleTree.locate "model.onnx"
      = .ok ["projects", "detector", "model.onnx"] := by decide +kernel
  have htarget : sampleTree.target "../detector/include/params.h"
      = .ok ["projects", "detector", "include", "params.h"] := by
    decide +kernel
  have hapart : ∀ o, parse sampleArguments = .run o → Apart sampleTree o := by
    intro o ho
    cases hparse.symm.trans ho
    intro path l hpath hl
    cases hpath
    cases hlocate.symm.trans hl
    rw [htarget]
    decide
  exact ⟨by decide +kernel, (runOn_runOn sampleTree _ hapart).1⟩

end DetectorHeader.Program
