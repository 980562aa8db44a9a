/-
The arguments say the same in any order and any spelling (`parse_spelled`).

What can be said on a command line are `Item`s, each of which has several
spellings, and `Spells items arguments` says that the arguments are spellings of
the items, one behind the other. Reading them is giving the items in their order
(`readFrom_spelled`). An item is refused if it has been given before or is
empty, and else it fills a place of its own, so the order does not matter
(`give_comm`), and items that are given once each are what is known in the end
(`foldlM_items`).
-/
import DetectorHeader.CommandLine
import Mathlib

namespace DetectorHeader.CommandLine

-- =================================================================== items

/-- Something that is said on the command line. -/
inductive Item
  | model (path : String)
  | output (path : String)
  | format (choice : Option Format)
  | strict
  | verbose
  deriving DecidableEq

/-- The name of a format, or of the wish that it be detected. -/
def choiceName : Option Format → String
  | none => "auto"
  | some format => format.name

/-- What is said with no doubt: a path is not empty and not taken for an option,
and that of the header has no `=` in front, which would be left out behind a
letter. -/
def Item.Plain : Item → Prop
  | .model path => path ≠ "" ∧ path.toList.head? ≠ some '-'
  | .output path => path ≠ "" ∧ path.toList.head? ≠ some '-'
      ∧ path.toList.head? ≠ some '='
  | .format _ | .strict | .verbose => True

/-- The ways to say a value behind short options, the last of which takes it. -/
def behind (options value : String) : List (List String) :=
  [[options, value], [options ++ value], [options ++ "=" ++ value]]

/-- The ways to say an item. -/
def Item.spellings : Item → List (List String)
  | .model path => [[path]]
  | .output path =>
      behind "-o" path ++ [["--output", path], ["--output" ++ "=" ++ path]]
  | .format choice =>
      [["--format", choiceName choice],
        ["--format" ++ "=" ++ choiceName choice]]
  | .strict => [["--strict-io"]]
  | .verbose => [["-v"], ["--verbose"]]

/-- The arguments say the items, in this order. Behind `--` there may be a model
at the end, with any name. -/
inductive Spells : List Item → List String → Prop
  | nil : Spells [] []
  | item {item items words arguments} (hplain : item.Plain)
      (h : words ∈ item.spellings) (rest : Spells items arguments) :
      Spells (item :: items) (words ++ arguments)
  | bundle {path items words arguments} (hplain : (Item.output path).Plain)
      (h : words ∈ behind "-vo" path) (rest : Spells items arguments) :
      Spells (.verbose :: .output path :: items) (words ++ arguments)
  | last {path} (h : path ≠ "") : Spells [.model path] ["--", path]

/-- The items that are given. -/
def Given.items (g : Given) : List Item :=
  (g.model.map Item.model).toList ++ (g.output.map Item.output).toList
    ++ (g.format.map Item.format).toList
    ++ (if g.strict then [Item.strict] else [])
    ++ if g.verbose then [Item.verbose] else []

-- ================================================================== giving

/-- Takes an item. -/
def Given.give (g : Given) : Item → Except Command Given
  | .model path => g.positional path
  | .output path => g.value .output path.toList
  | .format choice => g.value .format (choiceName choice).toList
  | .strict => g.flag .strict
  | .verbose => g.flag .verbose

/-- What has been given, with an item in its place. -/
def Item.put (g : Given) : Item → Given
  | .model path => { g with model := some path }
  | .output path => { g with output := some path }
  | .format choice => { g with format := some choice }
  | .strict => { g with strict := true }
  | .verbose => { g with verbose := true }

/-- The place of the item is taken, or nothing is said. -/
def Item.isRefused (g : Given) : Item → Bool
  | .model path => g.model.isSome || path.isEmpty
  | .output path => g.output.isSome || path.toList.isEmpty
  | .format _ => g.format.isSome
  | .strict => g.strict
  | .verbose => g.verbose

/-- Every choice of a format is read back from its name. -/
theorem formatChoice?_choiceName (choice : Option Format) :
    formatChoice? (choiceName choice).toList = some choice := by
  rcases choice with _ | format
  · rfl
  · cases format <;> rfl

/-- An item is put among the given ones unless it is refused. -/
theorem Given.give_eq (g : Given) (item : Item) :
    g.give item
      = if item.isRefused g then .error .misuse else .ok (item.put g) := by
  cases item with
  | model path => rfl
  | output path =>
      show g.value .output path.toList = _
      unfold Given.value
      dsimp only
      rw [String.ofList_toList]
      rfl
  | format choice =>
      show g.value .format (choiceName choice).toList = _
      unfold Given.value
      dsimp only
      rw [formatChoice?_choiceName]
      obtain ⟨model, output, format, strict, verbose⟩ := g
      cases format <;> rfl
  | strict => rfl
  | verbose => rfl

/-- Two items have different places, or each of them takes that of the other. -/
theorem Item.apart_or_alike (g : Given) (a b : Item) :
    (a.isRefused (b.put g) = a.isRefused g
        ∧ b.isRefused (a.put g) = b.isRefused g
        ∧ a.put (b.put g) = b.put (a.put g))
      ∨ a.isRefused (b.put g) = true ∧ b.isRefused (a.put g) = true := by
  cases a <;> cases b <;> simp [isRefused, put]

/-- It makes no difference which of two items is given first. -/
theorem Given.give_comm (g : Given) (a b : Item) :
    (g.give a >>= fun g => g.give b) = (g.give b >>= fun g => g.give a) := by
  have hbind : ∀ a b : Item, (g.give a >>= fun g => g.give b)
      = if a.isRefused g || b.isRefused (a.put g) then .error .misuse
        else .ok (b.put (a.put g)) := by
    intro a b
    rw [give_eq]
    by_cases ha : a.isRefused g = true
    · simp [ha, bind, Except.bind]
    · simp [ha, bind, Except.bind, give_eq]
  rw [hbind, hbind]
  rcases Item.apart_or_alike g a b with ⟨ha, hb, hput⟩ | ⟨ha, hb⟩
  · rw [ha, hb, hput, Bool.or_comm]
  · simp [ha, hb]

/-- The order in which items are given does not matter. -/
theorem Given.foldlM_give_perm {items items' : List Item}
    (h : items.Perm items') (g : Given) :
    items.foldlM give g = items'.foldlM give g := by
  induction h generalizing g with
  | nil => rfl
  | cons item _ ih =>
      rw [List.foldlM_cons, List.foldlM_cons]
      exact congrArg _ (funext ih)
  | swap a b items =>
      simp only [List.foldlM_cons, ← bind_assoc]
      rw [give_comm]
  | trans _ _ ih ih' => exact (ih g).trans (ih' g)

/-- Something is said. -/
def Item.Filled : Item → Prop
  | .model path | .output path => path ≠ ""
  | .format _ | .strict | .verbose => True

theorem Given.foldlM_singleton {g : Given} {item : Item}
    (h : item.isRefused g = false) :
    [item].foldlM give g = .ok (item.put g) := by
  rw [List.foldlM_cons, give_eq, if_neg (by simp [h])]
  rfl

/-- Items that are given once each are what is known in the end. -/
theorem Given.foldlM_items {chosen : Given}
    (h : ∀ item ∈ chosen.items, item.Filled) :
    chosen.items.foldlM give {} = .ok chosen := by
  obtain ⟨model, output, format, strict, verbose⟩ := chosen
  -- Each item fills a part of its own, so none finds its part filled.
  have hmodel : (model.map Item.model).toList.foldlM give {}
      = .ok { model } := by
    cases model with
    | none => rfl
    | some path =>
        have hpath : path ≠ "" := h (.model path) (by simp [items])
        apply foldlM_singleton
        simp [Item.isRefused, hpath]
  have houtput : (output.map Item.output).toList.foldlM give { model }
      = .ok { model, output } := by
    cases output with
    | none => rfl
    | some path =>
        have hpath : path ≠ "" := h (.output path) (by simp [items])
        apply foldlM_singleton
        simp [Item.isRefused, hpath]
  have hformat : (format.map Item.format).toList.foldlM give { model, output }
      = .ok { model, output, format } := by
    cases format with
    | none => rfl
    | some choice => exact foldlM_singleton rfl
  have hstrict : (if strict then [Item.strict] else []).foldlM give
      { model, output, format } = .ok { model, output, format, strict } := by
    cases strict with
    | false => rfl
    | true => exact foldlM_singleton rfl
  have hverbose : (if verbose then [Item.verbose] else []).foldlM give
      { model, output, format, strict }
      = .ok { model, output, format, strict, verbose } := by
    cases verbose with
    | false => rfl
    | true => exact foldlM_singleton rfl
  simp only [items, List.foldlM_append, hmodel, houtput, hformat, hstrict,
    hverbose, bind, Except.bind]

-- ================================================================= reading

/-- Reading the words is giving the items, whatever comes behind them. -/
def Says (words : List String) (items : List Item) : Prop :=
  ∀ (g : Given) (rest : List String),
    readFrom g none (words ++ rest)
      = items.foldlM Given.give g >>= fun g => readFrom g none rest

/-- A word that says all that there is to say. -/
theorem says_attached {word : String} {items : List Item} (hend : word ≠ "--")
    (h : ∀ g, readArgument g word
      = items.foldlM Given.give g >>= fun g => pure (g, none)) :
    Says [word] items := by
  intro g rest
  rw [List.singleton_append, readFrom.eq_def]
  dsimp only
  rw [if_neg hend, h, bind_assoc]
  rfl

/-- A word for an option, with the value behind it. -/
theorem says_detached {word value : String} {items : List Item} {item : Item}
    {option : Valued} (hend : word ≠ "--")
    (h : ∀ g, readArgument g word
      = items.foldlM Given.give g >>= fun g => pure (g, some option))
    (hvalue : looksLikeOption value = false)
    (hitem : ∀ g : Given, g.value option value.toList = g.give item) :
    Says [word, value] (items ++ [item]) := by
  intro g rest
  rw [List.cons_append, readFrom.eq_def]
  dsimp only
  rw [if_neg hend, h, List.foldlM_append, bind_assoc, bind_assoc]
  refine congrArg _ (funext fun g => ?_)
  rw [pure_bind, List.singleton_append, readFrom.eq_def]
  dsimp only
  rw [if_neg (by simp [hvalue]), hitem]
  simp

-- =============================================================== spellings

/-- A word with one dash in front is read letter by letter. -/
theorem readArgument_short (g : Given) {word : String} {c : Char}
    {rest : List Char} (h : word.toList = '-' :: c :: rest) (hc : c ≠ '-') :
    readArgument g word = readShort g (c :: rest) := by
  unfold readArgument
  rw [h]
  split
  all_goals simp_all

/-- A word with two dashes in front is read as the name of an option. -/
theorem readArgument_long (g : Given) {word : String} {text : List Char}
    (h : word.toList = '-' :: '-' :: text) :
    readArgument g word = readLong g text := by
  simp [readArgument, h]

/-- A word without a dash in front is a path. -/
theorem readArgument_positional (g : Given) {word : String} {c : Char}
    {rest : List Char} (h : word.toList = c :: rest) (hc : c ≠ '-') :
    readArgument g word = (do return (← g.positional word, none)) := by
  unfold readArgument
  rw [h]
  split
  all_goals simp_all

theorem looksLikeOption_of_cons {word : String} {c : Char} {rest : List Char}
    (h : word.toList = c :: rest) (hc : c ≠ '-') :
    looksLikeOption word = false := by
  unfold looksLikeOption
  rw [h]
  split
  · simp_all
  · rfl

/-- A value behind the letter of its option. -/
theorem readShort_output (g : Given) {c : Char} (hc : c ≠ '=')
    (rest : List Char) :
    readShort g ('o' :: c :: rest)
      = (do return (← g.value .output (c :: rest), none)) := by
  unfold readShort
  split
  all_goals simp_all [short?]

theorem ne_of_notMem {name : List Char} (h : '=' ∉ name) :
    ∀ c ∈ name, decide (c ≠ '=') = true := by
  intro c hc
  rw [decide_eq_true_eq]
  rintro rfl
  exact h hc

/-- A long name in full, with no value. -/
theorem readLong_name (g : Given) {option : Valued} {name : List Char}
    (h : long? name = some (.inr option)) (hname : '=' ∉ name) :
    readLong g name = pure (g, some option) := by
  have htake : name.takeWhile (· ≠ '=') = name :=
    List.takeWhile_eq_self_iff.mpr (ne_of_notMem hname)
  unfold readLong
  dsimp only
  rw [htake, h, List.drop_length]

/-- A value behind an `=` and the long name of its option. -/
theorem readLong_value (g : Given) {option : Valued} {name : List Char}
    (h : long? name = some (.inr option)) (hname : '=' ∉ name)
    (value : List Char) :
    readLong g (name ++ '=' :: value)
      = (do return (← g.value option value, none)) := by
  have htake : (name ++ '=' :: value).takeWhile (· ≠ '=') = name := by
    rw [List.takeWhile_append_of_pos (ne_of_notMem hname)]
    simp
  unfold readLong
  dsimp only
  rw [htake, h, List.drop_left]

/-- A path that is plain has a first character, by which it is no option. -/
theorem Item.Plain.exists_cons {path : String}
    (h : (Item.output path).Plain) :
    ∃ c rest, path.toList = c :: rest ∧ c ≠ '-' ∧ c ≠ '=' := by
  obtain ⟨hne, hdash, hequals⟩ := h
  cases hpath : path.toList with
  | nil => exact absurd (String.toList_eq_nil_iff.mp hpath) hne
  | cons c rest =>
      rw [hpath] at hdash hequals
      exact ⟨c, rest, rfl, by simpa using hdash, by simpa using hequals⟩

/-- A path that looks like no option says that it is the model. -/
theorem says_model {path : String} (h : (Item.model path).Plain) :
    Says [path] [.model path] := by
  obtain ⟨hne, hdash⟩ := h
  cases hpath : path.toList with
  | nil => exact absurd (String.toList_eq_nil_iff.mp hpath) hne
  | cons c rest =>
      have hc : c ≠ '-' := by simpa [hpath] using hdash
      apply says_attached
      · rintro rfl
        exact hc (List.cons.inj hpath).1.symm
      · intro g
        rw [readArgument_positional g hpath hc, List.foldlM_cons]
        simp [Given.give]

/-- A path behind short options, the last of which is that for the header. -/
theorem says_behind {options path : String} (items : List Item)
    (hend : ∀ rest, options.toList ++ rest ≠ "--".toList)
    (hread : ∀ (g : Given) (word : String) (rest : List Char),
      word.toList = options.toList ++ rest → readArgument g word
        = items.foldlM Given.give g >>= fun g => readShort g ('o' :: rest))
    (h : (Item.output path).Plain) {words : List String}
    (hwords : words ∈ behind options path) :
    Says words (items ++ [.output path]) := by
  obtain ⟨c, rest, hpath, hdash, hequals⟩ := h.exists_cons
  have hgive (g : Given) :
      g.value .output path.toList = g.give (.output path) := rfl
  simp only [behind, List.mem_cons, List.not_mem_nil, or_false] at hwords
  -- The path is the next word, or directly behind the letter, or behind `=`.
  rcases hwords with rfl | rfl | rfl
  · have hne : options ≠ "--" := by
      intro heq
      exact hend [] (by rw [heq]; rfl)
    have hwait (g : Given) : readArgument g options
        = items.foldlM Given.give g >>= fun g => pure (g, some .output) :=
      hread g options [] (by simp)
    exact says_detached hne hwait (looksLikeOption_of_cons hpath hdash) hgive
  · apply says_attached
    · intro heq
      exact hend path.toList (by rw [← String.toList_append, heq])
    · intro g
      rw [hread g _ _ String.toList_append, List.foldlM_append, bind_assoc]
      refine congrArg _ (funext fun g => ?_)
      rw [hpath, readShort_output g hequals, ← hpath, hgive]
      simp
  · apply says_attached
    · intro heq
      exact hend ('=' :: path.toList) (by rw [← heq]; simp)
    · intro g
      have hword : (options ++ "=" ++ path).toList
          = options.toList ++ '=' :: path.toList := by simp
      rw [hread g _ _ hword, List.foldlM_append, bind_assoc]
      refine congrArg _ (funext fun g => ?_)
      show (do return (← g.value .output path.toList, none)) = _
      rw [hgive]
      simp

/-- A value behind the long name of its option. -/
theorem says_named {name value : String} (text : List Char) {option : Valued}
    {item : Item} (hname : name.toList = '-' :: '-' :: text)
    (hlong : long? text = some (.inr option)) (hequals : '=' ∉ text)
    (hvalue : looksLikeOption value = false)
    (hgive : ∀ g : Given, g.value option value.toList = g.give item)
    {words : List String}
    (hwords : words ∈ [[name, value], [name ++ "=" ++ value]]) :
    Says words [item] := by
  have hne : text ≠ [] := by
    rintro rfl
    cases hlong
  simp only [List.mem_cons, List.not_mem_nil, or_false] at hwords
  -- The value is the next word, or behind `=`.
  rcases hwords with rfl | rfl
  · have hwait (g : Given) : readArgument g name
        = [].foldlM Given.give g >>= fun g => pure (g, some option) := by
      rw [readArgument_long g hname, readLong_name g hlong hequals]
      rfl
    refine says_detached ?_ hwait hvalue hgive
    rintro rfl
    exact hne (by simpa using hname.symm)
  · have hword : (name ++ "=" ++ value).toList
        = '-' :: '-' :: (text ++ '=' :: value.toList) := by simp [hname]
    apply says_attached
    · intro heq
      rw [heq] at hword
      simp at hword
    · intro g
      rw [readArgument_long g hword, readLong_value g hlong hequals, hgive]
      simp

/-- Each spelling of an item says it. -/
theorem Item.Plain.said {item : Item} (h : item.Plain) {words : List String}
    (hwords : words ∈ item.spellings) : Says words [item] := by
  cases item with
  | model path =>
      rw [List.mem_singleton.mp hwords]
      exact says_model h
  | output path =>
      obtain ⟨c, rest, hpath, hdash, -⟩ := h.exists_cons
      rcases List.mem_append.mp hwords with hshort | hlong
      · apply says_behind [] _ _ h hshort
        · simp
        · intro g word rest hword
          rw [readArgument_short g hword (by decide)]
          rfl
      · exact says_named "output".toList rfl rfl (by decide)
          (looksLikeOption_of_cons hpath hdash) (fun _ => rfl) hlong
  | format choice =>
      have hvalue : looksLikeOption (choiceName choice) = false := by
        rcases choice with _ | format
        · rfl
        · cases format <;> rfl
      exact says_named "format".toList rfl rfl (by decide) hvalue
        (fun _ => rfl) hwords
  | strict =>
      rw [List.mem_singleton.mp hwords]
      apply says_attached (by decide)
      intro g
      show (do return (← g.flag .strict, none)) = _
      simp [Given.give]
  | verbose =>
      simp only [spellings, List.mem_cons, List.not_mem_nil, or_false] at hwords
      rcases hwords with rfl | rfl
      · apply says_attached (by decide)
        intro g
        show (do return (← g.flag .verbose, none)) = _
        simp [Given.give]
      · apply says_attached (by decide)
        intro g
        show (do return (← g.flag .verbose, none)) = _
        simp [Given.give]

/-- The whole log and the path of the header, behind one dash. -/
theorem says_bundle {path : String} (h : (Item.output path).Plain)
    {words : List String} (hwords : words ∈ behind "-vo" path) :
    Says words [.verbose, .output path] := by
  refine says_behind [.verbose] ?_ ?_ h hwords
  · simp
  · intro g word rest hword
    rw [readArgument_short g hword (by decide)]
    show (do readShort (← g.flag .verbose) ('o' :: rest)) = _
    simp [Given.give]

-- ================================================================ arguments

/-- Reading the arguments is giving what they say. -/
theorem readFrom_spelled {items : List Item} {arguments : List String}
    (h : Spells items arguments) (g : Given) :
    readFrom g none arguments = items.foldlM Given.give g := by
  induction h generalizing g with
  | nil => rfl
  | item hplain hwords _ ih =>
      rw [hplain.said hwords, List.foldlM_cons]
      simp [ih]
  | bundle hplain hwords _ ih =>
      rw [says_bundle hplain hwords]
      simp [ih]
  | last => rfl

/-- An item that can be spelled has a value that is not empty. -/
theorem Item.Plain.filled {item : Item} (h : item.Plain) : item.Filled := by
  cases item with
  | model path => exact h.1
  | output path => exact h.1
  | format _ | strict | verbose => trivial

/-- So have all items of a command line that is spelled out. -/
theorem Spells.filled {items : List Item} {arguments : List String}
    (h : Spells items arguments) : ∀ item ∈ items, item.Filled := by
  induction h with
  | nil => exact fun _ hmem => absurd hmem List.not_mem_nil
  | item hplain _ _ ih =>
      exact List.forall_mem_cons.mpr ⟨hplain.filled, ih⟩
  | bundle hplain _ _ ih =>
      exact List.forall_mem_cons.mpr
        ⟨trivial, List.forall_mem_cons.mpr ⟨hplain.filled, ih⟩⟩
  | last h => exact List.forall_mem_singleton.mpr h

/-- Arguments that say each of the chosen items once, in any order and any
spelling, ask for what is chosen, and for what is the default of the rest. -/
theorem parse_spelled {chosen : Given} {items : List Item}
    {arguments : List String} (horder : items.Perm chosen.items)
    (h : Spells items arguments) :
    parse arguments = .run {
      model := chosen.model
      output := chosen.output.getD "model_params.h"
      format := chosen.format.getD none
      strict := chosen.strict
      verbose := chosen.verbose } := by
  have hfilled : ∀ item ∈ chosen.items, item.Filled :=
    fun item hmem => h.filled item (horder.mem_iff.mpr hmem)
  have hread : readFrom {} none arguments = .ok chosen := by
    rw [readFrom_spelled h, Given.foldlM_give_perm horder,
      Given.foldlM_items hfilled]
  unfold parse
  rw [hread]
  rfl

/-- A path behind two options and their dash, and the model at the end. -/
theorem parse_bundled :
    parse ["--format", "onnx", "--strict-io", "-vobuild/p=1.h", "--", "m.onnx"]
      = .run {
        model := some "m.onnx"
        output := "build/p=1.h"
        format := some .onnx
        strict := true
        verbose := true } := by
  let chosen : Given := {
    model := some "m.onnx"
    output := some "build/p=1.h"
    format := some (some .onnx)
    strict := true
    verbose := true }
  have hlast : Spells [.model "m.onnx"] ["--", "m.onnx"] := .last (by decide)
  have hplain : (Item.output "build/p=1.h").Plain :=
    ⟨by decide, by decide, by decide⟩
  have hbundle : Spells [.verbose, .output "build/p=1.h", .model "m.onnx"]
      ["-vobuild/p=1.h", "--", "m.onnx"] :=
    .bundle hplain (.tail _ (.head [["-vo=build/p=1.h"]])) hlast
  have hstrict : Spells
      [.strict, .verbose, .output "build/p=1.h", .model "m.onnx"]
      ["--strict-io", "-vobuild/p=1.h", "--", "m.onnx"] :=
    .item (show Item.strict.Plain from trivial) (.head []) hbundle
  have hformat : Spells [.format (some .onnx), .strict, .verbose,
      .output "build/p=1.h", .model "m.onnx"]
      ["--format", "onnx", "--strict-io", "-vobuild/p=1.h", "--", "m.onnx"] :=
    .item (show (Item.format (some .onnx)).Plain from trivial)
      (.head [["--format=onnx"]]) hstrict
  have horder : [Item.format (some .onnx), Item.strict, Item.verbose,
      Item.output "build/p=1.h", Item.model "m.onnx"].Perm chosen.items := by
    decide
  exact parse_spelled horder hformat

end DetectorHeader.CommandLine
