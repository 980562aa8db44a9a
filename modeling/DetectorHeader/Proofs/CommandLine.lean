/-
The flag for the whole log asks for nothing else (`parse_insert_verbose`).

Arguments with the flag put in between are read like those without it, with
the one difference that the log is to be shown whole, or they are refused, as
the flag can be given once and is no value of an option. `Louder` is that
relation between what the two readers end with. It is kept by every reader of
arguments, and so by the reading of all of them.
-/
import DetectorHeader.CommandLine
import Mathlib

namespace DetectorHeader.CommandLine

/-- What has been given, with the wish for the whole log. -/
def Given.loud (g : Given) : Given := { g with verbose := true }

/-- The command, with the warnings alone in its log. -/
def Command.quiet : Command → Command
  | .run o => .run { o with verbose := false }
  | .help => .help
  | .version => .version
  | .misuse => .misuse

/-- Commands that differ in their logs at most. -/
theorem Command.eq_of_quiet_eq {c c' : Command} (h : c'.quiet = c.quiet) :
    c' = c ∨ ∃ o verbose, c = .run o ∧ c' = .run { o with verbose } := by
  cases c with
  | run o =>
      cases c' with
      | run o' =>
          refine .inr ⟨o, o'.verbose, rfl, ?_⟩
          have hquiet := Command.run.inj h
          calc Command.run o'
              = .run { { o' with verbose := false } with
                  verbose := o'.verbose } := rfl
            _ = .run { o with verbose := o'.verbose } := by rw [hquiet]
      | help | version | misuse => cases h
  | help | version | misuse =>
      cases c' with
      | run o' => cases h
      | help | version | misuse => exact .inl h

/-- The second reading ends as the first does, up to the log, or refuses the
arguments. -/
inductive Louder {α : Type} (loud : α → α) :
    Except Command α → Except Command α → Prop
  | misuse (x : Except Command α) : Louder loud x (.error .misuse)
  | settled (c : Command) : Louder loud (.error c) (.error c)
  | ok (a : α) : Louder loud (.ok a) (.ok (loud a))

namespace Louder

variable {α β : Type} {loud : α → α} {loud' : β → β}

/-- Two steps are louder if both of them are. -/
theorem bind {x y : Except Command α} {f g : α → Except Command β}
    (h : Louder loud x y) (hfg : ∀ a, Louder loud' (f a) (g (loud a))) :
    Louder loud' (x >>= f) (y >>= g) := by
  cases h with
  | misuse => exact .misuse _
  | settled c => exact .settled c
  | ok a => exact hfg a

/-- Two readings that start alike. -/
theorem bind_same {x : Except Command α} {f g : α → Except Command β}
    (hfg : ∀ a, Louder loud' (f a) (g a)) :
    Louder loud' (x >>= f) (x >>= g) := by
  cases x with
  | error c => exact .settled c
  | ok a => exact hfg a

/-- Two readings that are settled by the same check. -/
theorem check {c : Prop} [Decidable c] {command : Command} {a : α} :
    Louder loud (if c then .error command else .ok a)
      (if c then .error command else .ok (loud a)) := by
  split
  · exact .settled command
  · exact .ok a

end Louder

-- =================================================================== giving

/-- An option with a value says the same beside the flag. -/
theorem Given.value_louder (g : Given) (option : Valued) (value : List Char) :
    Louder Given.loud (g.value option value) (g.loud.value option value) := by
  cases option with
  | output => exact .check
  | format =>
      obtain ⟨model, output, format, strict, verbose⟩ := g
      cases format with
      | some choice => exact .settled .misuse
      | none =>
          unfold Given.value
          cases formatChoice? value with
          | none => exact .settled .misuse
          | some choice => exact .ok _

/-- So does a flag. -/
theorem Given.flag_louder (g : Given) (flag : Flag) :
    Louder Given.loud (g.flag flag) (g.loud.flag flag) := by
  cases flag with
  | strict => exact .check
  | verbose => exact .misuse _
  | help => exact .settled .help
  | version => exact .settled .version

/-- So does a path. -/
theorem Given.positional_louder (g : Given) (argument : String) :
    Louder Given.loud (g.positional argument)
      (g.loud.positional argument) :=
  .check

-- ================================================================== reading

/-- What is known after an argument, with the wish for the whole log. -/
def After.loud (a : After) : After := (a.1.loud, a.2)

/-- A long option is read the same beside the flag. -/
theorem readLong_louder (g : Given) (text : List Char) :
    Louder After.loud (readLong g text) (readLong g.loud text) := by
  unfold readLong
  dsimp only
  split
  · exact (g.flag_louder _).bind fun g => .ok (g, none)
  · exact .ok (g, some _)
  · exact (g.value_louder _ _).bind fun g => .ok (g, none)
  · exact .settled _

/-- So are short options, one letter after the other. -/
theorem readShort_louder (g : Given) (letters : List Char) :
    Louder After.loud (readShort g letters) (readShort g.loud letters) := by
  induction letters generalizing g with
  | nil => exact .ok (g, none)
  | cons letter rest ih =>
      unfold readShort
      split
      · exact .settled _
      · exact (g.flag_louder _).bind fun g => ih g
      · exact .ok (g, some _)
      · exact (g.value_louder _ _).bind fun g => .ok (g, none)
      · exact (g.value_louder _ _).bind fun g => .ok (g, none)

/-- So is every argument. -/
theorem readArgument_louder (g : Given) (argument : String) :
    Louder After.loud (readArgument g argument)
      (readArgument g.loud argument) := by
  unfold readArgument
  split
  · exact readLong_louder g _
  · exact readShort_louder g _
  · exact (g.positional_louder _).bind fun g => .ok (g, none)

/-- So are all arguments behind the one that ends the options. -/
theorem foldlM_positional_louder (g : Given) (arguments : List String) :
    Louder Given.loud (arguments.foldlM Given.positional g)
      (arguments.foldlM Given.positional g.loud) := by
  induction arguments generalizing g with
  | nil => exact .ok g
  | cons argument rest ih =>
      rw [List.foldlM_cons, List.foldlM_cons]
      exact (g.positional_louder argument).bind ih

/-- With the flag given, the rest of the arguments is read the same, unless
the flag is given again. -/
theorem readFrom_louder (g : Given) (waiting : Option Valued)
    (arguments : List String) :
    Louder Given.loud (readFrom g waiting arguments)
      (readFrom g.loud waiting arguments) := by
  induction arguments generalizing g waiting with
  | nil =>
      unfold readFrom
      split
      · exact .settled _
      · exact .ok g
  | cons argument rest ih =>
      unfold readFrom
      cases waiting with
      | some option =>
          dsimp only
          split
          · exact .settled _
          · exact (g.value_louder option _).bind fun g => ih g none
      | none =>
          dsimp only
          split
          · exact foldlM_positional_louder g rest
          · exact (readArgument_louder g argument).bind fun a => ih a.1 a.2

-- ================================================================= the flag

/-- The two ways to ask for the whole log. -/
def verboseFlags : List String := ["-v", "--verbose"]

/-- The flag itself is read as what it is, in each of its spellings. -/
theorem readArgument_verbose {flag : String} (h : flag ∈ verboseFlags)
    (g : Given) :
    readArgument g flag = (do return (← g.flag .verbose, none)) := by
  rcases List.mem_cons.mp h with rfl | h
  · rfl
  · cases List.mem_singleton.mp h
    rfl

/-- The flag stands for no value, and is not the end of the options. -/
theorem looksLikeOption_verbose {flag : String} (h : flag ∈ verboseFlags) :
    looksLikeOption flag = true ∧ flag ≠ "--" := by
  rcases List.mem_cons.mp h with rfl | h
  · decide
  · cases List.mem_singleton.mp h
    decide

/-- Up to the flag the arguments are read alike, and after it as
`readFrom_louder` says. -/
theorem readFrom_insert_verbose {flag : String} (hflag : flag ∈ verboseFlags)
    {before : List String} (hbefore : "--" ∉ before) (rest : List String)
    (g : Given) (waiting : Option Valued) :
    Louder Given.loud (readFrom g waiting (before ++ rest))
      (readFrom g waiting (before ++ flag :: rest)) := by
  obtain ⟨hoption, hend⟩ := looksLikeOption_verbose hflag
  -- The induction is on the words in front of the flag, with all that has been
  -- read and is waited for.
  induction before generalizing g waiting with
  | nil =>
      rw [List.nil_append, List.nil_append, readFrom.eq_def g waiting (_ :: _)]
      cases waiting with
      | some option =>
          dsimp only
          rw [if_pos hoption]
          exact .misuse _
      | none =>
          dsimp only
          rw [if_neg hend, readArgument_verbose hflag]
          by_cases hgiven : g.verbose = true
          · unfold Given.flag
            rw [if_pos hgiven]
            exact .misuse _
          · unfold Given.flag
            rw [if_neg hgiven]
            exact readFrom_louder g none rest
  | cons argument before ih =>
      obtain ⟨hne, hbefore⟩ := not_or.mp (mt List.mem_cons.mpr hbefore)
      rw [List.cons_append, List.cons_append, readFrom.eq_def g waiting,
        readFrom.eq_def g waiting]
      cases waiting with
      | some option =>
          dsimp only
          split
          · exact .settled _
          · exact .bind_same fun g => ih hbefore g none
      | none =>
          dsimp only
          rw [if_neg (Ne.symm hne), if_neg (Ne.symm hne)]
          exact .bind_same fun a => ih hbefore a.1 a.2

/-- Arguments with the flag put in between ask for the same, up to the log,
unless they are refused. After `--` it would be no flag. -/
theorem parse_insert_verbose {flag : String} (hflag : flag ∈ verboseFlags)
    {before : List String} (hbefore : "--" ∉ before) (rest : List String) :
    parse (before ++ flag :: rest) = .misuse
      ∨ (parse (before ++ flag :: rest)).quiet
        = (parse (before ++ rest)).quiet := by
  have h := readFrom_insert_verbose hflag hbefore rest {} none
  unfold parse
  generalize readFrom {} none (before ++ rest) = x at h
  generalize readFrom {} none (before ++ flag :: rest) = y at h
  cases h with
  | misuse => exact .inl rfl
  | settled c => exact .inr rfl
  | ok g => exact .inr rfl

end DetectorHeader.CommandLine
