/-
The program: from the arguments and the files to what it prints, the status
with which it ends, its log and the header. `run` is the whole of it, over any
storage.

It reads one file and writes at most one, and that one last, when nothing but
the writing itself can fail any more.
-/
import DetectorHeader.CommandLine
import DetectorHeader.LoadedModel

namespace DetectorHeader.Program

/-- How a run of the program ends. -/
structure Ending where
  status : Nat
  /-- What goes to the standard output. -/
  output : String := ""
  /-- The report of a failure. -/
  failure : Option String := none
  /-- The events that the log shows. -/
  log : List Event := []
  deriving DecidableEq

/-- Text with all its lines but the first moved to the right. -/
def indent (columns : Nat) (text : String) : String :=
  String.ofList <| text.toList.flatMap fun c =>
    if c = '\n' then '\n' :: List.replicate columns ' ' else [c]

/-- The causes of a failure, one below the other, numbered if there are
several. -/
def describeCauses : List String → String
  | [cause] => s!"    {indent 4 cause}\n"
  | causes => String.join <| causes.mapIdx fun i cause =>
      s!"    {i}: {indent 7 cause}\n"

/-- The report of a failure: what could not be done, and why. -/
def report (failed : String) (e : Error) : String :=
  s!"Error: {failed}\n\nCaused by:\n"
    ++ describeCauses (e.message :: e.sources)

/-- The text that `--version` prints. -/
def versionText : String := "param-finder 0.1.0\n"

/-- The text that `--help` prints. -/
def helpText : String := String.join <| List.map (· ++ "\n") [
  "Extracts input shape and output quantization parameters from TFLite and "
    ++ "ONNX detection models into a C header",
  "",
  "Usage: param-finder [OPTIONS] [MODEL]",
  "",
  "Arguments:",
  "  [MODEL]  Model file (.tflite or .onnx)",
  "",
  "Options:",
  "  -o, --output <FILE>    Header to write, overwritten if it exists "
    ++ "[default: model_params.h]",
  "      --format <FORMAT>  Model format, detected from the file when "
    ++ "\x60auto\x60 [default: auto] [possible values: auto, tflite, onnx]",
  "      --strict-io        Fail on models without exactly one input and one "
    ++ "output",
  "  -v, --verbose          Log debug details to stderr",
  "  -h, --help             Print help",
  "  -V, --version          Print version"]

/-- The complaint about arguments without a model. -/
def noModelText : String :=
  "Error: No model path provided as parameter. Please provide a path as a "
    ++ "command-line argument.\n"

/-- The confirmation that a header has been written. -/
def savedText (path : String) : String :=
  s!"Model parameters have been saved to {path}.\n"

/-- Finds the parameters of the model at a path and writes their header. -/
def extract {m : Type → Type} [Monad m] (storage : Storage m)
    (options : CommandLine.Options) (path : String) : m Ending := do
  let contents ← storage.read path
  let found := find (LoadedModel.source options.format fun _ => contents)
    options.strict path
  match found.outcome with
  | .error e => return {
      status := 1
      failure := some (report s!"failed to read parameters from {path}" e)
      log := shown options.verbose found.events }
  | .ok params =>
      let written ← Header.emit storage options.output params
      let log := shown options.verbose (found.events ++ written.events)
      match written.outcome with
      | .error e => return {
          status := 1
          failure := some (report s!"failed to write {options.output}" e)
          log }
      | .ok () => return {
          status := 0
          output := savedText options.output
          log }

/-- Runs the program. -/
def run {m : Type → Type} [Monad m] (storage : Storage m)
    (arguments : List String) : m Ending :=
  match CommandLine.parse arguments with
  | .help => return { status := 0, output := helpText }
  | .version => return { status := 0, output := versionText }
  | .misuse => return { status := 2 }
  | .run options =>
      match options.model with
      | none => return { status := 1, output := noModelText }
      | some path => extract storage options path

/-- Runs the program on a tree of files. -/
def runOn (tree : FileTree) (arguments : List String) : Ending × FileTree :=
  (run FileTree.storage arguments).run tree

end DetectorHeader.Program
