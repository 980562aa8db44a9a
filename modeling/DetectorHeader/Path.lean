/-
Paths, which are texts with `/` between their segments. Empty segments and
`.` stand for nothing, so `a//b/.` names what `a/b` does, and the last
segment that stands for something is the name of the file.
-/
namespace DetectorHeader.Path

/-- The segments of a path that stand for something. -/
def segments (path : String) : List (List Char) :=
  (path.toList.splitOn '/').filter fun s => s ≠ [] && s ≠ ['.']

/-- The name of the file at the end of a path. A path that ends in `..`, or
has no segments, names a directory and none. -/
def fileName? (path : String) : Option (List Char) :=
  match (segments path).getLast? with
  | none => none
  | some name => if name = ['.', '.'] then none else some name

/-- What follows the last dot of the file's name. A name whose only dot is
its first character has no extension. -/
def extension? (path : String) : Option (List Char) := do
  let name ← fileName? path
  let after := (name.reverse.takeWhile (· ≠ '.')).reverse
  if after.length + 1 < name.length then some after else none

/-- Whether the path starts at the root. -/
def isAbsolute (path : String) : Bool := path.toList.head? = some '/'

/-- Whether a slash at its end says that the path names a directory. -/
def endsInSlash (path : String) : Bool := path.toList.getLast? = some '/'

end DetectorHeader.Path
