/-
Where the program keeps its files. A `Storage` is the two things that the
program does with files, as actions of some monad: over `FileTree` they are
state, and the outer layer has them over the real file system. The program is
written once, over any storage.
-/
import DetectorHeader.FileTree

namespace DetectorHeader

/-- Files to read and to write. -/
structure Storage (m : Type → Type) where
  read : (path : String) → m (Except FileFault Bytes)
  write : (path : String) → (contents : Bytes) → m (Except FileFault Unit)

/-- The files of a tree, which is the state: a write that fails leaves it as
it was. -/
def FileTree.storage : Storage (StateM FileTree) where
  read path := do return (← get).read path
  write path contents := do
    match (← get).write path contents with
    | .error fault => return .error fault
    | .ok tree =>
        set tree
        return .ok ()

end DetectorHeader
