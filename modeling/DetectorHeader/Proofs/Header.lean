/-
A header can be read back (`Header.render_reads_back`): it has the parameters
that it was written for, and no others.

How a header is read is said without the writer. It is cut into lines; the
guard is the first two and the last of them; and a macro is read from the one
line in between that defines it (`bodies`). Of the bodies, integers are read as
decimal numbers, and the scale is the value that the decimal, without its
suffix, is rounded to, with the sign in front (`ReadsFloat`).
-/
import DetectorHeader.Header
import DetectorHeader.Proofs.Binary32.Shortest

namespace DetectorHeader

-- ================================================================== scales

namespace Binary32

/-- The text is a literal of `x`: a sign, a decimal that is rounded to the
magnitude of `x`, and `f`. -/
def ReadsFloat (text : List Char) (x : Binary32) : Prop :=
  ∃ number q, text = number ++ ['f']
    ∧ readDecimal (readSign number).2 = some q
    ∧ x.isNegative = (readSign number).1 ∧ RoundsTo q x.magnitudeBits

/-- Sign and magnitude are all there is of a value. -/
theorem eq_of_parts {x y : Binary32} (hsign : x.isNegative = y.isNegative)
    (hmagnitude : x.magnitudeBits = y.magnitudeBits) : x = y := by
  obtain ⟨a⟩ := x
  obtain ⟨b⟩ := y
  have hweight : signWeight = 2147483648 := rfl
  unfold isNegative at hsign
  unfold magnitudeBits at hmagnitude
  rw [decide_eq_decide, hweight] at hsign
  rw [hweight] at hmagnitude
  have ha : a.toNat < 2 ^ 32 := a.toNat_lt
  have hb : b.toNat < 2 ^ 32 := b.toNat_lt
  have hbits : a.toNat = b.toNat := by
    dsimp only at hsign hmagnitude
    omega
  rw [UInt32.toNat_inj.mp hbits]

/-- There is one value that a text is a literal of. -/
theorem ReadsFloat.unique {text : List Char} {x y : Binary32}
    (hx : ReadsFloat text x) (hy : ReadsFloat text y) : x = y := by
  obtain ⟨number, q, rfl, hq, hsign, hrounds⟩ := hx
  obtain ⟨number', q', htext, hq', hsign', hrounds'⟩ := hy
  obtain rfl := List.append_cancel_right htext
  obtain rfl : q = q' := Option.some.inj (hq.symm.trans hq')
  exact eq_of_parts (hsign.trans hsign'.symm) (hrounds.unique hrounds')

/-- What is written for a finite value is a literal of it, the sign of zero
included. -/
theorem literal_reads {x : Binary32} (hx : x.isFinite = true) :
    ∃ text, x.literal = .ok text ∧ ReadsFloat text x ∧ '\n' ∉ text := by
  have hsign : readSign (x.signText ++ x.shortest.positional)
      = (x.isNegative, x.shortest.positional) := by
    unfold signText
    cases x.isNegative with
    | true => rfl
    | false => exact x.shortest.readSign_positional
  refine ⟨_, if_pos hx, ⟨_, _, rfl, ?_, ?_, shortest_roundsTo hx⟩, ?_⟩
  · rw [hsign]
    exact x.shortest.readDecimal_positional
  · rw [hsign]
  · have hdecimal : '\n' ∉ x.shortest.positional :=
      x.shortest.notMem_positional rfl (by decide)
    have hminus : '\n' ∉ x.signText := by
      unfold signText
      split
      · decide
      · exact List.not_mem_nil
    simp [hminus, hdecimal]

end Binary32

namespace Header

-- ================================================================= reading

/-- The lines of a text. After the end of the last one there is an empty
one. -/
def linesOf (text : String) : List (List Char) := text.toList.splitOn '\n'

/-- What a line defines, and as what. -/
def readDefinition (line : List Char) : Option Definition := do
  let rest ← line.dropPrefix? "#define ".toList
  return ⟨String.ofList (rest.takeWhile (· ≠ ' ')),
    (rest.dropWhile (· ≠ ' ')).drop 1⟩

/-- The bodies that lines give to a macro, one for each line that defines
it. -/
def bodies (lines : List (List Char)) (name : String) : List (List Char) :=
  ((lines.filterMap readDefinition).filter (·.name = name)).map
    Definition.body

/-- Exactly one of the lines defines the macro, as the integer. -/
def DefinesInteger (lines : List (List Char)) (name : String) (i : Int64) :
    Prop :=
  ∃ body, bodies lines name = [body] ∧ readInteger body = some i.toInt

/-- Exactly one of the lines defines the macro, as a literal of `x`. -/
def DefinesFloat (lines : List (List Char)) (name : String) (x : Binary32) :
    Prop :=
  ∃ body, bodies lines name = [body] ∧ Binary32.ReadsFloat body x

/-- The lines define the six macros, each once, as the parameters. -/
structure Defines (lines : List (List Char)) (p : Params) : Prop where
  inputHeight : DefinesInteger lines "MODEL_INPUT_HEIGHT" p.inputHeight
  inputWidth : DefinesInteger lines "MODEL_INPUT_WIDTH" p.inputWidth
  scale : DefinesFloat lines "QUANTIZATION_SCALE" p.scale
  zeroPoint : DefinesInteger lines "QUANTIZATION_ZERO_POINT" p.zeroPoint
  classes : DefinesInteger lines "NUM_CLASSES" p.classes
  detections : DefinesInteger lines "NUM_DETECTIONS" p.detections

/-- The text is that of a header with the parameters: they are defined between
the lines of the guard. -/
def Reads (text : String) (p : Params) : Prop :=
  ∃ between,
    linesOf text
        = ["#ifndef MODEL_PARAMS_H".toList, "#define MODEL_PARAMS_H".toList]
          ++ between ++ ["#endif // MODEL_PARAMS_H".toList, []]
      ∧ Defines between p

/-- Lines define one integer for a name. -/
theorem DefinesInteger.unique {lines : List (List Char)} {name : String}
    {i j : Int64} (hi : DefinesInteger lines name i)
    (hj : DefinesInteger lines name j) : i = j := by
  obtain ⟨body, hbody, hread⟩ := hi
  obtain ⟨body', hbody', hread'⟩ := hj
  obtain rfl := List.singleton_injective (hbody.symm.trans hbody')
  exact Int64.toInt_inj.mp (Option.some.inj (hread.symm.trans hread'))

/-- Lines define one float for a name. -/
theorem DefinesFloat.unique {lines : List (List Char)} {name : String}
    {x y : Binary32} (hx : DefinesFloat lines name x)
    (hy : DefinesFloat lines name y) : x = y := by
  obtain ⟨body, hbody, hread⟩ := hx
  obtain ⟨body', hbody', hread'⟩ := hy
  obtain rfl := List.singleton_injective (hbody.symm.trans hbody')
  exact hread.unique hread'

/-- A text is read in one way only. -/
theorem Reads.unique {text : String} {p q : Params} (hp : Reads text p)
    (hq : Reads text q) : p = q := by
  obtain ⟨between, hlines, hp⟩ := hp
  obtain ⟨between', hlines', hq⟩ := hq
  have hbetween : between = between' :=
    List.append_cancel_left (List.append_cancel_right
      (hlines.symm.trans hlines'))
  subst hbetween
  cases p
  cases q
  rw [Params.mk.injEq]
  exact ⟨hp.inputHeight.unique hq.inputHeight,
    hp.inputWidth.unique hq.inputWidth, hp.scale.unique hq.scale,
    hp.zeroPoint.unique hq.zeroPoint, hp.classes.unique hq.classes,
    hp.detections.unique hq.detections⟩

-- =================================================================== lines

/-- Lines that end one by one are the lines of the text, and an empty one
after them. -/
theorem splitOn_ended {lines : List (List Char)} (h : ∀ l ∈ lines, '\n' ∉ l) :
    (lines.flatMap (· ++ ['\n'])).splitOn '\n' = lines ++ [[]] := by
  have htext : lines.flatMap (· ++ ['\n'])
      = ['\n'].intercalate (lines ++ [[]]) := by
    induction lines with
    | nil => rfl
    | cons l lines ih =>
        rw [List.flatMap_cons, ih (List.forall_mem_cons.mp h).2,
          List.cons_append, List.intercalate_cons_of_ne_nil (by simp)]
  rw [htext]
  refine List.splitOn_intercalate '\n' (fun l hl => ?_) (by simp)
  rcases List.mem_append.mp hl with hl | hl
  · exact h l hl
  · rw [List.mem_singleton.mp hl]
    exact List.not_mem_nil

/-- A definition that can be told from its line. -/
structure Definition.Plain (d : Definition) : Prop where
  blank : ' ' ∉ d.name.toList
  name : '\n' ∉ d.name.toList
  body : '\n' ∉ d.body

/-- A definition that is written on a line is read back. -/
theorem readDefinition_line {d : Definition} (h : d.Plain) :
    readDefinition d.line = some d := by
  have hname : ∀ c ∈ d.name.toList, decide (c ≠ ' ') = true := by
    intro c hc
    refine decide_eq_true fun hblank => h.blank ?_
    rwa [← hblank]
  unfold readDefinition Definition.line
  rw [List.append_assoc, List.dropPrefix?_append_of_beq _ (beq_self_eq_true _)]
  show some (Definition.mk _ _) = some d
  rw [List.takeWhile_append_of_pos hname, List.dropWhile_append_of_pos hname]
  simp

example : readDefinition "#define NUM_CLASSES 80".toList
    = some ⟨"NUM_CLASSES", "80".toList⟩ := by
  decide

/-- What is between the lines of the guard. -/
def between (groups : List (List Definition)) : List (List Char) :=
  groups.flatMap (fun group => [] :: group.map Definition.line) ++ [[]]

/-- A group of definitions is read back. -/
theorem filterMap_lines {group : List Definition}
    (h : ∀ d ∈ group, d.Plain) :
    (group.map Definition.line).filterMap readDefinition = group := by
  induction group with
  | nil => rfl
  | cons d group ih =>
      obtain ⟨hd, hgroup⟩ := List.forall_mem_cons.mp h
      rw [List.map_cons, List.filterMap_cons_some (readDefinition_line hd),
        ih hgroup]

/-- The definitions are read from the lines, and nothing else is. -/
theorem filterMap_between {groups : List (List Definition)}
    (h : ∀ d ∈ groups.flatten, d.Plain) :
    (between groups).filterMap readDefinition = groups.flatten := by
  have hempty : readDefinition [] = none := rfl
  induction groups with
  | nil => exact List.filterMap_cons_none hempty
  | cons group groups ih =>
      rw [List.flatten_cons, List.forall_mem_append] at h
      have hlines : between (group :: groups)
          = [] :: (group.map Definition.line ++ between groups) := by
        rw [between, List.flatMap_cons, List.append_assoc]
        rfl
      rw [hlines, List.filterMap_cons_none hempty, List.filterMap_append,
        filterMap_lines h.1, ih h.2, List.flatten_cons]

/-- All that is written stands between the lines of the guard. -/
theorem lines_eq (groups : List (List Definition)) : lines groups
    = ["#ifndef MODEL_PARAMS_H".toList, "#define MODEL_PARAMS_H".toList]
      ++ between groups ++ ["#endif // MODEL_PARAMS_H".toList] := by
  unfold lines between
  rw [List.append_assoc, List.append_assoc, List.append_assoc]
  rfl

/-- A definition without an end of a line is on one line. -/
theorem Definition.Plain.notMem_line {d : Definition} (h : d.Plain) :
    '\n' ∉ d.line := by
  intro hmem
  unfold Definition.line at hmem
  rcases List.mem_append.mp hmem with hmem | hmem
  · rcases List.mem_append.mp hmem with hmem | hmem
    · exact absurd hmem (by decide)
    · exact h.name hmem
  · rcases List.mem_cons.mp hmem with hmem | hmem
    · exact absurd hmem (by decide)
    · exact h.body hmem

/-- And so is everything between the guard. -/
theorem notMem_between {groups : List (List Definition)}
    (h : ∀ d ∈ groups.flatten, d.Plain) : ∀ l ∈ between groups, '\n' ∉ l := by
  intro l hl
  unfold between at hl
  rcases List.mem_append.mp hl with hl | hl
  · obtain ⟨group, hgroup, hl⟩ := List.mem_flatMap.mp hl
    rcases List.mem_cons.mp hl with rfl | hl
    · exact List.not_mem_nil
    · obtain ⟨d, hd, rfl⟩ := List.mem_map.mp hl
      exact (h d (List.mem_flatten.mpr ⟨group, hgroup, hd⟩)).notMem_line
  · rw [List.mem_singleton.mp hl]
    exact List.not_mem_nil

/-- The text of a header is cut into its lines. -/
theorem linesOf_lines {groups : List (List Definition)}
    (h : ∀ d ∈ groups.flatten, d.Plain) :
    linesOf (String.ofList ((lines groups).flatMap (· ++ ['\n'])))
      = ["#ifndef MODEL_PARAMS_H".toList, "#define MODEL_PARAMS_H".toList]
        ++ between groups ++ ["#endif // MODEL_PARAMS_H".toList, []] := by
  have hlines : ∀ l ∈ lines groups, '\n' ∉ l := by
    rw [lines_eq]
    intro l hl
    rcases List.mem_append.mp hl with hl | hl
    · rcases List.mem_append.mp hl with hl | hl
      · rcases List.mem_pair.mp hl with rfl | rfl
        · decide
        · decide
      · exact notMem_between h l hl
    · rw [List.mem_singleton.mp hl]
      decide
  rw [linesOf, String.toList_ofList, splitOn_ended hlines, lines_eq,
    List.append_assoc]
  rfl

-- ================================================================= headers

/-- An integer is written on one line. -/
theorem newline_notMem_integer (i : Int64) : '\n' ∉ integer i :=
  notMem_toString_int i.toInt rfl (by decide)

/-- So is each of the definitions, if the scale is. -/
theorem plain_groups (p : Params) {scale : List Char} (h : '\n' ∉ scale) :
    ∀ d ∈ (groups p scale).flatten, d.Plain := by
  intro d hd
  have hplain : ∀ {name body}, ' ' ∉ name.toList → '\n' ∉ name.toList →
      '\n' ∉ body → Definition.Plain ⟨name, body⟩ :=
    fun hblank hname hbody => ⟨hblank, hname, hbody⟩
  simp only [groups, List.flatten_cons, List.flatten_nil, List.cons_append,
    List.nil_append, List.mem_cons, List.not_mem_nil, or_false] at hd
  rcases hd with rfl | rfl | rfl | rfl | rfl | rfl
  case inr.inr.inl => exact hplain (by decide) (by decide) h
  all_goals
    exact hplain (by decide) (by decide) (newline_notMem_integer _)

/-- What is written for parameters defines these. -/
theorem defines_groups {p : Params} {scale : List Char}
    (hplain : '\n' ∉ scale) (hscale : Binary32.ReadsFloat scale p.scale) :
    Defines (between (groups p scale)) p := by
  have hbodies : ∀ name, bodies (between (groups p scale)) name
      = ((groups p scale).flatten.filter (·.name = name)).map
        Definition.body := by
    intro name
    rw [bodies, filterMap_between (plain_groups p hplain)]
  have hinteger : ∀ name i, bodies (between (groups p scale)) name
      = [integer i] → DefinesInteger (between (groups p scale)) name i :=
    fun name i h => ⟨_, h, readInteger_toString i.toInt⟩
  exact {
    inputHeight := hinteger _ _ (hbodies _)
    inputWidth := hinteger _ _ (hbodies _)
    scale := ⟨scale, hbodies _, hscale⟩
    zeroPoint := hinteger _ _ (hbodies _)
    classes := hinteger _ _ (hbodies _)
    detections := hinteger _ _ (hbodies _) }

/-- Parameters with a finite scale have a header that is read as theirs. -/
theorem render_of_finite {p : Params} (h : p.scale.isFinite = true) :
    ∃ text, render p = .ok text ∧ Reads text p := by
  obtain ⟨scale, hliteral, hscale, hplain⟩ := Binary32.literal_reads h
  refine ⟨_, ?_, between (groups p scale),
    linesOf_lines (plain_groups p hplain), defines_groups hplain hscale⟩
  unfold render
  rw [hliteral]
  rfl

/-- And those with another one have none. -/
theorem render_of_not_finite {p : Params} (h : p.scale.isFinite = false) :
    ∃ cause, render p = .error (.unsupported cause) := by
  have hliteral : p.scale.literal
      = .error (.unsupported (.literal (String.ofList p.scale.specialName))) :=
    if_neg (ne_true_of_eq_false h)
  refine ⟨.literal (String.ofList p.scale.specialName), ?_⟩
  unfold render
  rw [hliteral]
  rfl

/-- The header for parameters with a finite scale is read as these, and is that
of no others; without a finite scale there is none. -/
theorem render_reads_back (p : Params) :
    (p.scale.isFinite = true → ∃ text, render p = .ok text
        ∧ (∀ q, Reads text q ↔ q = p) ∧ ∀ q, render q = .ok text → q = p)
      ∧ (p.scale.isFinite = false →
        ∃ cause, render p = .error (.unsupported cause)) := by
  refine ⟨fun hfinite => ?_, render_of_not_finite⟩
  obtain ⟨text, hrender, hreads⟩ := render_of_finite hfinite
  refine ⟨text, hrender, fun q => ?_, fun q hq => ?_⟩
  · constructor
    · intro hq
      exact hq.unique hreads
    · rintro rfl
      exact hreads
  · cases hscale : q.scale.isFinite with
    | true =>
        obtain ⟨text', hrender', hreads'⟩ := render_of_finite hscale
        obtain rfl : text' = text := Except.ok.inj (hrender'.symm.trans hq)
        exact hreads'.unique hreads
    | false =>
        obtain ⟨cause, herror⟩ := render_of_not_finite hscale
        cases herror.symm.trans hq

/-- Parameters with a scale of minus zero. -/
def minusZeroScale : Params where
  inputHeight := 640
  inputWidth := 640
  scale := ⟨0x80000000⟩
  zeroPoint := -128
  classes := 80
  detections := 6300

theorem minusZeroScale_reads_back : minusZeroScale.scale.isFinite = true
    ∧ ∃ text, render minusZeroScale = .ok text
      ∧ (∀ q, Reads text q ↔ q = minusZeroScale)
      ∧ ∀ q, render q = .ok text → q = minusZeroScale :=
  ⟨by decide, (render_reads_back minusZeroScale).1 (by decide)⟩

end Header

end DetectorHeader
