/-
The command line. Arguments are read from left to right, and the first one
that asks for help or the version, or is wrong, settles what happens; what
comes after it is not looked at.

An argument that starts with `-`, and is not only that, is a run of short
options or a long one. `--` is neither: it makes all that follow it
positional. The value of an option is attached to it, with `=` or without,
or else is the next argument, which must not look like an option.

A reader of arguments ends either with what has been given so far or, as its
error, with the command that settles what happens.
-/
import DetectorHeader.Format
import DetectorHeader.Header

namespace DetectorHeader.CommandLine

/-- What to do with which files. -/
structure Options where
  model : Option String := none
  output : String := Header.defaultPath
  /-- The format of the model; it is detected if none is given. -/
  format : Option Format := none
  /-- Whether models with other than one input and output are refused. -/
  strict : Bool := false
  /-- Whether the log is shown down to the details. -/
  verbose : Bool := false
  deriving DecidableEq

/-- What the arguments ask for. -/
inductive Command
  | run (options : Options)
  | help
  | version
  /-- Arguments that do not make sense. -/
  | misuse
  deriving DecidableEq

/-- What has been given so far. -/
structure Given where
  model : Option String := none
  output : Option String := none
  format : Option (Option Format) := none
  strict : Bool := false
  verbose : Bool := false
  deriving DecidableEq

/-- The options when all arguments have been read. -/
def Given.options (g : Given) : Options := {
  model := g.model
  output := g.output.getD Header.defaultPath
  format := g.format.getD none
  strict := g.strict
  verbose := g.verbose }

/-- Options that have a value. -/
inductive Valued
  | output | format
  deriving DecidableEq

/-- Options that have none. -/
inductive Flag
  | strict | verbose | help | version
  deriving DecidableEq

-- =============================================================== giving

/-- A format by name, or the wish that it be detected. -/
def formatChoice? (name : List Char) : Option (Option Format) :=
  if name = "auto".toList then some none else some <$> Format.ofName? name

/-- Takes the value of an option; it can be given once. -/
def Given.value (g : Given) (option : Valued) (value : List Char) :
    Except Command Given :=
  match option with
  | .output =>
      if g.output.isSome || value.isEmpty then .error .misuse
      else .ok { g with output := some (String.ofList value) }
  | .format =>
      match g.format, formatChoice? value with
      | none, some choice => .ok { g with format := some choice }
      | _, _ => .error .misuse

/-- Takes a flag; it can be given once. -/
def Given.flag (g : Given) : Flag → Except Command Given
  | .strict =>
      if g.strict then .error .misuse else .ok { g with strict := true }
  | .verbose =>
      if g.verbose then .error .misuse else .ok { g with verbose := true }
  | .help => .error .help
  | .version => .error .version

/-- Takes a positional argument, of which there is one. -/
def Given.positional (g : Given) (argument : String) : Except Command Given :=
  if g.model.isSome || argument.isEmpty then .error .misuse
  else .ok { g with model := some argument }

-- ============================================================== reading

/-- The option with a given long name. -/
def long? (name : List Char) : Option (Flag ⊕ Valued) :=
  if name = "output".toList then some (.inr .output)
  else if name = "format".toList then some (.inr .format)
  else if name = "strict-io".toList then some (.inl .strict)
  else if name = "verbose".toList then some (.inl .verbose)
  else if name = "help".toList then some (.inl .help)
  else if name = "version".toList then some (.inl .version)
  else none

/-- The option with a given letter. -/
def short? : Char → Option (Flag ⊕ Valued)
  | 'o' => some (.inr .output)
  | 'v' => some (.inl .verbose)
  | 'h' => some (.inl .help)
  | 'V' => some (.inl .version)
  | _ => none

/-- What is known after one argument: what has been given, and the option of
which the value is to come, if there is one. -/
abbrev After := Given × Option Valued

/-- Reads a long option, without its dashes. -/
def readLong (g : Given) (text : List Char) : Except Command After :=
  let name := text.takeWhile (· ≠ '=')
  match long? name, text.drop name.length with
  | some (.inl flag), [] => return (← g.flag flag, none)
  | some (.inr option), [] => return (g, some option)
  | some (.inr option), _ :: value => return (← g.value option value, none)
  | _, _ => .error .misuse

/-- Reads a run of short options, without their dash. What follows one that
has a value is the value. -/
def readShort (g : Given) : List Char → Except Command After
  | [] => .ok (g, none)
  | letter :: rest =>
      match short? letter, rest with
      | none, _ => .error .misuse
      | some (.inl flag), _ => do readShort (← g.flag flag) rest
      | some (.inr option), [] => return (g, some option)
      | some (.inr option), '=' :: value =>
          return (← g.value option value, none)
      | some (.inr option), value => return (← g.value option value, none)

/-- Whether an argument is read as options, or ends them, and so is no
value. -/
def looksLikeOption (argument : String) : Bool :=
  match argument.toList with
  | '-' :: _ :: _ => true
  | _ => false

/-- Reads an argument that stands where an option may. -/
def readArgument (g : Given) (argument : String) : Except Command After :=
  match argument.toList with
  | '-' :: '-' :: text => readLong g text
  | '-' :: letter :: rest => readShort g (letter :: rest)
  | _ => return (← g.positional argument, none)

/-- Reads arguments, the first one being the value of an option if there is
one that waits for it. -/
def readFrom (g : Given) (waiting : Option Valued) :
    List String → Except Command Given
  | [] => if waiting.isSome then .error .misuse else .ok g
  | argument :: rest =>
      match waiting with
      | some option =>
          if looksLikeOption argument then .error .misuse
          else do readFrom (← g.value option argument.toList) none rest
      | none =>
          if argument = "--" then rest.foldlM Given.positional g
          else do
            let (g, waiting) ← readArgument g argument
            readFrom g waiting rest

/-- What the arguments ask for. -/
def parse (arguments : List String) : Command :=
  match readFrom {} none arguments with
  | .error command => command
  | .ok g => .run g.options

end DetectorHeader.CommandLine
