/-
A tree of files as a value, with a working directory in it. Paths are followed
step by step, so that a missing directory, a file where a directory is needed
and a name that is too long are each met where they stand, and the first of
them is the fault. What a path leads to is told from the root, so two paths to
one file lead to one location, however they are spelled.

Writing replaces the file at its location or adds it, and touches nothing
else (`write`); reading changes nothing. The last section is not for the
program, which only reads and writes: it sets a tree up for a run, takes away
from it between runs, and tells afterwards what a run has written.
-/
import DetectorHeader.Bytes
import DetectorHeader.Path
import DetectorHeader.Text.Utf8

namespace DetectorHeader

/-- Why a file cannot be read or written. -/
inductive FileFault
  | notFound | notDirectory | isDirectory | nameTooLong | nulInName
  /-- A fault that only a real file system has. -/
  | other (reason : String)
  deriving DecidableEq

/-- The fault in words. -/
def FileFault.message : FileFault → String
  | notFound => "No such file or directory (os error 2)"
  | notDirectory => "Not a directory (os error 20)"
  | isDirectory => "Is a directory (os error 21)"
  | nameTooLong => "File name too long (os error 36)"
  | nulInName => "file name contained an unexpected NUL byte"
  | other reason => reason

/-- What is at a location. -/
inductive Entry
  | file (contents : Bytes)
  | directory
  deriving DecidableEq

/-- The way from the root down to a file or directory, name by name. -/
abbrev Location := List String

/-- The files and directories, each at its own location. -/
structure FileTree where
  /-- The working directory, in which a path starts that is not absolute. It is
  there without being made, and so are the directories around it. -/
  home : Location := ["work", "here"]
  entries : List (Location × Entry) := []
  /-- No location has two entries. -/
  unique : (entries.map (·.1)).Nodup := by decide
  deriving DecidableEq

namespace FileTree

/-- The working directory and those around it, up to the root. -/
def isGiven (tree : FileTree) (l : Location) : Bool := l.isPrefixOf tree.home

/-- What is at a location, if there is something. -/
def find? (tree : FileTree) (l : Location) : Option Entry :=
  if tree.isGiven l then some .directory else tree.entries.lookup l

/-- Without some of its entries a tree still has no two at one location. -/
theorem unique_filter (tree : FileTree) (p : Location × Entry → Bool) :
    ((tree.entries.filter p).map (·.1)).Nodup :=
  tree.unique.sublist (List.filter_sublist.map _)

/-- An entry goes where no other one is. -/
theorem unique_cons (tree : FileTree) (l : Location) :
    (l :: (tree.entries.filter (·.1 ≠ l)).map (·.1)).Nodup := by
  refine List.nodup_cons.mpr ⟨fun h => ?_, tree.unique_filter _⟩
  obtain ⟨e, he, rfl⟩ := List.mem_map.mp h
  exact of_decide_eq_true (List.mem_filter.mp he).2 rfl

/-- The tree with `entry` at a location, in place of what was there. -/
def insert (tree : FileTree) (l : Location) (entry : Entry) : FileTree where
  home := tree.home
  entries := (l, entry) :: tree.entries.filter (·.1 ≠ l)
  unique := tree.unique_cons l

-- ============================================================ following

/-- The longest name in bytes. -/
def maxName : Nat := 255

/-- The longest path in bytes. -/
def maxPath : Nat := 4095

/-- One step from a location that has to be a directory. -/
def step (tree : FileTree) (l : Location) (segment : String) :
    Except FileFault Location :=
  if tree.find? l ≠ some .directory then .error .notDirectory
  else if segment = "." then .ok l
  else if segment = ".." then .ok l.dropLast
  else if maxName < segment.utf8ByteSize then .error .nameTooLong
  else if (tree.find? (l ++ [segment])).isNone then .error .notFound
  else .ok (l ++ [segment])

/-- The segments of a path that are steps; `.` is one, as it can only be
taken in a directory. -/
def steps (path : String) : List String :=
  ((path.toList.splitOn '/').filter (· ≠ [])).map String.ofList

/-- Where a path starts. -/
def start (tree : FileTree) (path : String) : Location :=
  if Path.isAbsolute path then [] else tree.home

/-- What is wrong with a path whatever the tree holds. -/
def pathFault? (path : String) : Option FileFault :=
  if path.toList.contains '\x00' then some .nulInName
  else if path.isEmpty then some .notFound
  else if maxPath < path.utf8ByteSize then some .nameTooLong
  else none

/-- The location of what a path names. -/
def locate (tree : FileTree) (path : String) : Except FileFault Location := do
  if let some fault := pathFault? path then throw fault
  let l ← (steps path).foldlM tree.step (tree.start path)
  if Path.endsInSlash path && tree.find? l ≠ some .directory then
    throw .notDirectory
  return l

/-- Where a file that a path names is, or would be made. -/
def target (tree : FileTree) (path : String) : Except FileFault Location := do
  if let some fault := pathFault? path then throw fault
  match (steps path).reverse with
  | [] => throw .isDirectory
  | name :: before =>
      let l ← before.reverse.foldlM tree.step (tree.start path)
      if tree.find? l ≠ some .directory then throw .notDirectory
      if name = "." || name = ".." || Path.endsInSlash path then
        throw .isDirectory
      if maxName < name.utf8ByteSize then throw .nameTooLong
      if tree.find? (l ++ [name]) = some .directory then throw .isDirectory
      return l ++ [name]

-- =========================================================== operations

/-- The contents of the file at a path. -/
def read (tree : FileTree) (path : String) : Except FileFault Bytes := do
  match tree.find? (← tree.locate path) with
  | some (.file contents) => return contents
  | some .directory => throw .isDirectory
  | none => throw .notFound

/-- The tree with `contents` in the file at a path. -/
def write (tree : FileTree) (path : String) (contents : Bytes) :
    Except FileFault FileTree := do
  return tree.insert (← tree.target path) (.file contents)

-- ==================================================== around the program

/-- The tree with directories along the given steps, made where nothing is;
a file in the way ends the path. -/
def makeDirectories (tree : FileTree) (l : Location) :
    List String → FileTree
  | [] => tree
  | "." :: rest => tree.makeDirectories l rest
  | ".." :: rest => tree.makeDirectories l.dropLast rest
  | name :: rest =>
      match tree.find? (l ++ [name]) with
      | some (.file _) => tree
      | some .directory => tree.makeDirectories (l ++ [name]) rest
      | none =>
          (tree.insert (l ++ [name]) .directory).makeDirectories (l ++ [name])
            rest

/-- The tree with a directory at a path, and with those around it, for a run
that is to find them. -/
def makeDirectory (tree : FileTree) (path : String) : FileTree :=
  tree.makeDirectories (tree.start path) (steps path)

/-- The tree with a file at a path, and with the directories around it, for a
run that is to find them. -/
def place (tree : FileTree) (path : String) (contents : Bytes) :
    Except FileFault FileTree :=
  (tree.makeDirectories (tree.start path) (steps path).dropLast).write path
    contents

/-- The tree without what is at a path and below, if there is something. -/
def remove? (tree : FileTree) (path : String) : Option FileTree :=
  match tree.locate path with
  | .error _ => none
  | .ok l =>
      if tree.isGiven l then none
      else some {
        home := tree.home
        entries := tree.entries.filter fun e => !l.isPrefixOf e.1
        unique := tree.unique_filter _ }

/-- Whether the location is below the working directory. -/
def isBelow (tree : FileTree) (l : Location) : Bool :=
  tree.home.isPrefixOf l && l ≠ tree.home

/-- The path of a location below the working directory. -/
def pathOf (tree : FileTree) (l : Location) : String :=
  "/".intercalate (l.drop tree.home.length)

/-- What a run has written in the working directory and below: the files that
are not as they were before, by path. -/
def changedSince (tree before : FileTree) : List (String × Bytes) :=
  tree.entries.filterMap fun (l, entry) =>
    match entry with
    | .file contents =>
        if tree.isBelow l && before.find? l ≠ some entry then
          some (tree.pathOf l, contents)
        else none
    | .directory => none

end FileTree

end DetectorHeader
