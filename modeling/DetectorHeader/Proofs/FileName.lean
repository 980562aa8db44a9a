/-
What the name of a file tells of its format (`Format.detect_iff`).

A path is a text. Its extension is found by cutting it at the slashes, leaving
out what stands for nothing and looking for the last dot of what then comes
last. The main statement says the same of the text itself: an extension stands
behind a stem and a dot, in front of it there is nothing or a slash, and behind
it there are only slashes, each with a dot behind it or not.

Both directions go along the path from slash to slash (`slash_induction`). What
lets them meet is that slashes and dots which stand for nothing are told in two
ways, by their characters (`Trails`) and by the segments that they do not make
(`Trails.segmentsOf_eq_nil`, `trails_of_segmentsOf`).
-/
import DetectorHeader.LoadedModel
import Mathlib

namespace DetectorHeader

namespace Path

-- =================================================================== texts

/-- What may stand behind the name of a file: any number of `/` and `/.`, one
after the other. -/
inductive Trails : List Char → Prop
  | nil : Trails []
  | slash {s} (rest : Trails s) : Trails ('/' :: s)
  | slashDot {s} (rest : Trails s) : Trails ('/' :: '.' :: s)

/-- What may stand in front of the name of a file: nothing, or a text with a
slash at its end. -/
def Leads (s : List Char) : Prop := s = [] ∨ s.getLast? = some '/'

/-- A text has no slash, or one behind a text without any. -/
theorem slash_induction {motive : List Char → Prop}
    (single : ∀ s, '/' ∉ s → motive s)
    (cut : ∀ s rest, '/' ∉ s → motive rest → motive (s ++ '/' :: rest))
    (s : List Char) : motive s := by
  induction h : s.length using Nat.strong_induction_on generalizing s with
  | _ n ih =>
    by_cases hslash : '/' ∈ s
    · obtain ⟨first, rest, rfl, hfirst⟩ := List.eq_append_cons_of_mem hslash
      apply cut first rest hfirst
      apply ih rest.length _ rest rfl
      simp at h
      omega
    · exact single s hslash

/-- The last of the characters that are `c`. -/
theorem exists_last_of_mem {c : Char} {s : List Char} (h : c ∈ s) :
    ∃ before after, s = before ++ c :: after ∧ c ∉ after := by
  obtain ⟨after, before, hsplit, hafter⟩ :=
    List.eq_append_cons_of_mem (List.mem_reverse.mpr h)
  refine ⟨before.reverse, after.reverse, ?_, by simpa using hafter⟩
  rw [← List.reverse_reverse s, hsplit]
  simp

-- ================================================================ segments

/-- The segments of a text that stand for something. -/
def segmentsOf (s : List Char) : List (List Char) :=
  (s.splitOn '/').filter fun t => t ≠ [] && t ≠ ['.']

theorem segments_eq (path : String) :
    segments path = segmentsOf path.toList := rfl

/-- A slash ends one segment and begins another. -/
theorem segmentsOf_append (s t : List Char) :
    segmentsOf (s ++ '/' :: t) = segmentsOf s ++ segmentsOf t := by
  unfold segmentsOf
  rw [List.splitOn_append_cons_self, List.filter_append]

/-- Without a slash there is one segment at most. -/
theorem segmentsOf_of_notMem {s : List Char} (h : '/' ∉ s) :
    segmentsOf s = if s = [] ∨ s = ['.'] then [] else [s] := by
  unfold segmentsOf
  rw [List.splitOn_eq_singleton h]
  by_cases hnil : s = []
  · simp [hnil]
  · by_cases hdot : s = ['.']
    · simp [hdot]
    · simp [hnil, hdot]

/-- Trailing slashes and dots make no segments. -/
theorem Trails.segmentsOf_eq_nil {t : List Char} (h : Trails t) :
    segmentsOf t = [] ∧ segmentsOf ('.' :: t) = [] := by
  induction h with
  | nil => exact ⟨rfl, rfl⟩
  | @slash s _ ih =>
      refine ⟨?_, ?_⟩
      · exact (segmentsOf_append [] s).trans ih.1
      · exact (segmentsOf_append ['.'] s).trans ih.1
  | @slashDot s _ ih =>
      refine ⟨?_, ?_⟩
      · exact (segmentsOf_append [] ('.' :: s)).trans ih.2
      · exact (segmentsOf_append ['.'] ('.' :: s)).trans ih.2

/-- So they make no difference behind a path. -/
theorem segmentsOf_append_trails (s : List Char) {t : List Char}
    (h : Trails t) : segmentsOf (s ++ t) = segmentsOf s := by
  cases h with
  | nil => rw [List.append_nil]
  | slash rest =>
      rw [segmentsOf_append, rest.segmentsOf_eq_nil.1, List.append_nil]
  | slashDot rest =>
      rw [segmentsOf_append, rest.segmentsOf_eq_nil.2, List.append_nil]

/-- And nothing else makes no segments. -/
theorem trails_of_segmentsOf {t : List Char} (h : segmentsOf t = []) :
    Trails ('/' :: t) := by
  induction t using slash_induction with
  | single s hs =>
      rw [segmentsOf_of_notMem hs] at h
      split at h
      case isFalse => cases h
      case isTrue hblank =>
        rcases hblank with rfl | rfl
        · exact .slash .nil
        · exact .slashDot .nil
  | cut s rest hs ih =>
      rw [segmentsOf_append, List.append_eq_nil_iff, segmentsOf_of_notMem hs]
        at h
      obtain ⟨hfirst, hrest⟩ := h
      split at hfirst
      case isFalse => cases hfirst
      case isTrue hblank =>
        rcases hblank with rfl | rfl
        · exact .slash (ih hrest)
        · exact .slashDot (ih hrest)

/-- The last segment that stands for something, and where it is in the text. -/
theorem getLast?_segmentsOf_iff {s name : List Char} :
    (segmentsOf s).getLast? = some name
      ↔ name ≠ [] ∧ name ≠ ['.'] ∧ '/' ∉ name ∧ ∃ front back,
        s = front ++ name ++ back ∧ Leads front ∧ Trails back := by
  constructor
  · intro h
    induction s using slash_induction with
    | single s hs =>
        rw [segmentsOf_of_notMem hs] at h
        split at h
        case isTrue => cases h
        case isFalse hname =>
          cases h
          rw [not_or] at hname
          exact ⟨hname.1, hname.2, hs, [], [], by simp, .inl rfl, .nil⟩
    | cut s rest hs ih =>
        rw [segmentsOf_append] at h
        by_cases hrest : segmentsOf rest = []
        · -- nothing of the rest stands for anything
          rw [hrest, List.append_nil, segmentsOf_of_notMem hs] at h
          split at h
          case isTrue => cases h
          case isFalse hname =>
            cases h
            rw [not_or] at hname
            exact ⟨hname.1, hname.2, hs, [], '/' :: rest, by simp, .inl rfl,
              trails_of_segmentsOf hrest⟩
        · rw [List.getLast?_append_of_ne_nil _ hrest] at h
          obtain ⟨hne, hdot, hslash, front, back, rfl, hfront, hback⟩ := ih h
          refine ⟨hne, hdot, hslash, s ++ '/' :: front, back, by simp, .inr ?_,
            hback⟩
          rcases hfront with rfl | hfront
          · simp
          · have hfront' : front ≠ [] := by
              rintro rfl
              cases hfront
            rw [List.getLast?_append_of_ne_nil _ (List.cons_ne_nil _ _),
              List.getLast?_cons, hfront]
            rfl
  · rintro ⟨hne, hdot, hslash, front, back, rfl, hfront, hback⟩
    have hname : segmentsOf name = [name] := by
      rw [segmentsOf_of_notMem hslash, if_neg (not_or.mpr ⟨hne, hdot⟩)]
    rw [segmentsOf_append_trails _ hback]
    rcases hfront with rfl | hfront
    · rw [List.nil_append, hname]
      rfl
    · obtain ⟨way, rfl⟩ := List.getLast?_eq_some_iff.mp hfront
      rw [List.append_assoc, List.singleton_append, segmentsOf_append, hname]
      simp

-- =============================================================== extensions

/-- The file name is the last segment, unless that leads up. -/
theorem fileName?_eq_some_iff {path : String} {name : List Char} :
    fileName? path = some name
      ↔ (segments path).getLast? = some name ∧ name ≠ ['.', '.'] := by
  unfold fileName?
  cases (segments path).getLast? with
  | none => simp
  | some last =>
      by_cases hdots : last = ['.', '.']
      · subst hdots
        simp only [if_true, reduceCtorEq, false_iff]
        rintro ⟨h, hne⟩
        cases h
        exact hne rfl
      · simp only [hdots, if_false, Option.some.injEq]
        constructor
        · rintro rfl
          exact ⟨rfl, hdots⟩
        · exact fun h => h.1

/-- Looking backwards for the dot finds what is behind the last one. -/
theorem takeWhile_reverse_of_notMem {stem e : List Char} (h : '.' ∉ e) :
    ((stem ++ '.' :: e).reverse.takeWhile (· ≠ '.')).reverse = e := by
  have hall : ∀ c ∈ e.reverse, decide (c ≠ '.') = true := by
    intro c hc
    rw [decide_eq_true_eq]
    rintro rfl
    exact h (List.mem_reverse.mp hc)
  rw [List.reverse_append, List.reverse_cons, List.append_assoc,
    List.takeWhile_append_of_pos hall]
  simp

/-- The extension of a path, and where it is in the text. The name `..` has
none, as it is the name of a directory. -/
theorem extension?_eq_some_iff {path : String} {e : List Char} :
    extension? path = some e
      ↔ '.' ∉ e ∧ ∃ front stem back,
        path.toList = front ++ (stem ++ '.' :: e) ++ back ∧ Leads front
          ∧ stem ≠ [] ∧ '/' ∉ stem ++ '.' :: e
          ∧ stem ++ '.' :: e ≠ ['.', '.'] ∧ Trails back := by
  unfold extension?
  rw [Option.bind_eq_bind, Option.bind_eq_some_iff]
  simp only [fileName?_eq_some_iff, segments_eq, getLast?_segmentsOf_iff]
  constructor
  · rintro ⟨name, ⟨⟨-, -, hslash, front, back, hpath, hfront, hback⟩, hdots⟩,
      hext⟩
    split at hext
    case isFalse => cases hext
    case isTrue hlength =>
      cases hext
      by_cases hdot : '.' ∈ name
      · obtain ⟨stem, e, rfl, he⟩ := exists_last_of_mem hdot
        rw [takeWhile_reverse_of_notMem he] at hlength ⊢
        refine ⟨he, front, stem, back, hpath, hfront, ?_, hslash, hdots, hback⟩
        rintro rfl
        simp at hlength
      · -- without a dot the whole name would be the extension
        have hwhole : name.reverse.takeWhile (· ≠ '.') = name.reverse := by
          rw [List.takeWhile_eq_self_iff]
          intro c hc
          rw [decide_eq_true_eq]
          rintro rfl
          exact hdot (List.mem_reverse.mp hc)
        rw [hwhole, List.reverse_reverse] at hlength
        omega
  · rintro ⟨he, front, stem, back, hpath, hfront, hstem, hslash, hdots, hback⟩
    refine ⟨stem ++ '.' :: e, ⟨⟨by simp, ?_, hslash, front, back, hpath, hfront,
      hback⟩, hdots⟩, ?_⟩
    · intro hdot
      have hlength := congrArg List.length hdot
      have hpos := List.length_pos_iff.mpr hstem
      simp at hlength
      omega
    · have hpos := List.length_pos_iff.mpr hstem
      rw [takeWhile_reverse_of_notMem he, if_pos (by simp; omega)]

end Path

-- ================================================================== formats

/-- The bytes 4 to 8 are the identifier of TFLite models. -/
def CarriesIdentifier (bytes : Bytes) : Prop :=
  ∃ front back, front.length = 4
    ∧ bytes = front ++ [0x54, 0x46, 0x4C, 0x33] ++ back

namespace Format

/-- The path ends in a file name that has the name of the format as its
extension, in any case of its letters: behind nothing or a slash there is a
stem, and a dot before the extension, and behind that only what stands for
nothing. -/
def NamedBy (format : Format) (path : String) : Prop :=
  ∃ front stem e back, path.toList = front ++ stem ++ '.' :: e ++ back
    ∧ Path.Leads front ∧ stem ≠ [] ∧ '/' ∉ stem
    ∧ e.map Char.toLower = format.name.toList ∧ Path.Trails back

/-- The test for the identifier looks at the bytes that it says. -/
theorem hasIdentifier_iff {bytes : Bytes} :
    Tflite.hasIdentifier bytes = true ↔ CarriesIdentifier bytes := by
  unfold Tflite.hasIdentifier
  rw [decide_eq_true_eq]
  constructor
  · intro h
    refine ⟨bytes.take 4, (bytes.drop 4).drop 4, ?_, ?_⟩
    · have hlength := congrArg List.length h
      simp [Tflite.identifier] at hlength ⊢
      omega
    · have hidentifier : (bytes.drop 4).take 4 = [0x54, 0x46, 0x4C, 0x33] := h
      rw [← hidentifier, List.append_assoc, List.take_append_drop,
        List.take_append_drop]
  · rintro ⟨front, back, hfront, rfl⟩
    rw [List.append_assoc, List.drop_left' hfront]
    rfl

/-- A format is found by its name and by nothing else. -/
theorem ofName?_eq_some_iff {name : List Char} {format : Format} :
    ofName? name = some format ↔ name = format.name.toList := by
  constructor
  · intro h
    unfold ofName? at h
    split at h
    · cases h
      rfl
    · cases h
      rfl
    · cases h
  · rintro rfl
    cases format with
    | tflite => rfl
    | onnx => rfl

/-- A dot or a slash is the same in either case, and in no format's name. -/
theorem notMem_of_map_toLower {e : List Char} {format : Format}
    (h : e.map Char.toLower = format.name.toList) :
    e ≠ [] ∧ '.' ∉ e ∧ '/' ∉ e := by
  have hname : format.name.toList ≠ [] ∧ '.' ∉ format.name.toList
      ∧ '/' ∉ format.name.toList := by
    cases format with
    | tflite => decide
    | onnx => decide
  rw [← h] at hname
  obtain ⟨hne, hdot, hslash⟩ := hname
  refine ⟨fun hnil => hne (by rw [hnil]; rfl), fun hmem => hdot ?_,
    fun hmem => hslash ?_⟩
  · exact List.mem_map.mpr ⟨'.', hmem, rfl⟩
  · exact List.mem_map.mpr ⟨'/', hmem, rfl⟩

/-- The extension names a format just when the path is put together so. -/
theorem named_iff {path : String} {format : Format} :
    ((Path.extension? path).bind fun e => ofName? (e.map Char.toLower))
        = some format
      ↔ format.NamedBy path := by
  rw [Option.bind_eq_some_iff]
  simp only [ofName?_eq_some_iff, Path.extension?_eq_some_iff]
  constructor
  · rintro ⟨e, ⟨-, front, stem, back, hpath, hfront, hstem, hslash, -, hback⟩,
      hname⟩
    refine ⟨front, stem, e, back, ?_, hfront, hstem, ?_, hname, hback⟩
    · rw [hpath, ← List.append_assoc]
    · exact fun hmem => hslash (List.mem_append_left _ hmem)
  · rintro ⟨front, stem, e, back, hpath, hfront, hstem, hslash, hname, hback⟩
    obtain ⟨hne, hdot, hslash'⟩ := notMem_of_map_toLower hname
    refine ⟨e, ⟨hdot, front, stem, back, ?_, hfront, hstem, ?_, ?_, hback⟩,
      hname⟩
    · rw [hpath, ← List.append_assoc front stem]
    · simp [hslash, hslash']
    · -- three characters at least
      intro hdots
      have hlength := congrArg List.length hdots
      have := List.length_pos_iff.mpr hstem
      have := List.length_pos_iff.mpr hne
      simp at hlength
      omega

/-- Without the identifier the extension decides alone. -/
theorem detect_of_named {path : String} {bytes : Bytes}
    (h : ¬ CarriesIdentifier bytes) :
    detect? path bytes
      = (Path.extension? path).bind fun e => ofName? (e.map Char.toLower) := by
  unfold detect?
  rw [if_neg (mt hasIdentifier_iff.mp h)]

/-- A model is told to be of the format TFLite if its bytes carry the identifier
of that format, whatever the path is, and else to be of the format that its path
is named by. If there is none, that is what is wrong. -/
theorem detect_iff (path : String) (bytes : Bytes) :
    (∀ format, detect path bytes = .ok format
      ↔ CarriesIdentifier bytes ∧ format = .tflite
        ∨ ¬ CarriesIdentifier bytes ∧ format.NamedBy path)
    ∧ ∀ e, detect path bytes = .error e
      ↔ ¬ CarriesIdentifier bytes ∧ (∀ format : Format, ¬ format.NamedBy path)
        ∧ e = .unsupported (.unknownFormat path) := by
  by_cases hidentifier : CarriesIdentifier bytes
  · have hdetect : detect path bytes = .ok .tflite := by
      unfold detect detect?
      rw [if_pos (hasIdentifier_iff.mpr hidentifier)]
    simp [hdetect, hidentifier, eq_comm]
  · have hnamed (format : Format) :
        detect? path bytes = some format ↔ format.NamedBy path := by
      rw [detect_of_named hidentifier]
      exact named_iff
    unfold detect
    simp only [hidentifier, false_and, false_or, not_false_eq_true, true_and,
      ← hnamed]
    cases detect? path bytes with
    | none => simp [eq_comm]
    | some found => simp

end Format

end DetectorHeader
