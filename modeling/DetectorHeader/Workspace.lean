/-
A workspace: the files of a working directory, the models that have been
loaded from them under names, and the parameters found last, which are those
that a header is written for.

The program goes from a model to its header in one run. A workspace takes the
same steps one at a time, for callers that load a model once and ask it several
things, or that write the header of parameters which they have from elsewhere.
-/
import DetectorHeader.Header
import DetectorHeader.LoadedModel

namespace DetectorHeader

/-- The state of a workspace. -/
structure Workspace where
  tree : FileTree := {}
  /-- Models by name, the last one loaded under a name first. -/
  models : List (String × LoadedModel) := []
  params : Option Params := none

namespace Workspace

/-- The model of the given name. -/
def model? (w : Workspace) (name : String) : Option LoadedModel :=
  w.models.lookup name

/-- Loads the model at a path under a name. If that fails, the name keeps the
model that it had. -/
def load (w : Workspace) (name path : String) (format : Option Format) :
    Workspace × Recorded LoadedModel :=
  let loaded := LoadedModel.ofContents format path (w.tree.read path)
  match loaded.outcome with
  | .ok m => ({ w with models := (name, m) :: w.models }, loaded)
  | .error _ => (w, loaded)

/-- Reads the metadata of the model at a path with the given loader. -/
def metadata {α : Type} (w : Workspace) (path : String)
    (loader : Bytes → Recorded α) : Recorded α := do
  loader (← .ofExcept ((w.tree.read path).mapError .file))

/-- The workspace with the parameters that were found, if they were. -/
def keep (w : Workspace) (found : Recorded Params) : Workspace :=
  match found.outcome with
  | .ok p => { w with params := some p }
  | .error _ => w

/-- The parameters that the given input and output of a model give. -/
def derive (m : LoadedModel) (input output : Nat) : Recorded Params := do
  let input ← .ofExcept (m.slot .input input)
  let output ← .ofExcept (m.slot .output output)
  Params.ofSlots input output

/-- Finds the parameters of the model at a path. -/
def find (w : Workspace) (path : String) (format : Option Format)
    (strict : Bool) : Recorded Params :=
  DetectorHeader.find (LoadedModel.source format w.tree.read) strict path

/-- Writes the header for the given parameters. -/
def emit (w : Workspace) (path : String) (p : Params) :
    Workspace × Recorded Unit :=
  let (written, tree) := (Header.emit FileTree.storage path p).run w.tree
  ({ w with tree }, written)

end Workspace

end DetectorHeader
