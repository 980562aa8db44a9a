/-
The program on the real file system: the storage, and what is printed where.
-/
import DetectorHeader.Program

namespace DetectorHeader

/-- The fault with a given number, which a system may give as negative. -/
def FileFault.ofCode? (code : UInt32) : Option FileFault :=
  match code.toInt32.toInt.natAbs with
  | 2 => some .notFound
  | 20 => some .notDirectory
  | 21 => some .isDirectory
  | 36 => some .nameTooLong
  | _ => none

/-- What went wrong with a file. -/
def faultOf (e : IO.Error) : FileFault :=
  let known :=
    match e with
    | .noFileOrDirectory _ code _ => FileFault.ofCode? code
    | .inappropriateType _ code _ => FileFault.ofCode? code
    | .invalidArgument _ code _ => FileFault.ofCode? code
    | _ => none
  known.getD (.other (toString e))

/-- The real file system. -/
def realStorage : Storage IO where
  read path := do
    try
      return .ok (← IO.FS.readBinFile path).toList
    catch e => return .error (faultOf e)
  write path contents := do
    try
      IO.FS.writeBinFile path ⟨contents.toArray⟩
      return .ok ()
    catch e => return .error (faultOf e)

/-- The line of the log for an event. -/
def Event.line (e : Event) : String :=
  let field : String × Event.Value → String
    | (name, .integer i) => s!" {name}={i}"
    | (name, .text t) => s!" {name}={t}"
  s!"{e.level.title} {e.message}" ++ String.join (e.fields.map field)

end DetectorHeader

open DetectorHeader in
def main (arguments : List String) : IO UInt32 := do
  let ending ← Program.run realStorage arguments
  for event in ending.log do
    IO.eprintln event.line
  IO.print ending.output
  if let some failure := ending.failure then IO.eprint failure
  return UInt32.ofNat ending.status
