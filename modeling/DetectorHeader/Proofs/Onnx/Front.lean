/-
Whether the bytes of an ONNX model can be taken for those of a TFLite model
(`Model.exists_of_hasIdentifier`).

The identifier of TFLite is four letters, and none of them is the key of a
record that is written for a model. So where the letters stand in a model,
they are in a text, or all of them but the first are at its start and the
first one is the last byte of its length (`markAt_header`, `markAt_text`).
With so little in front of them the text is one of those that a model can
begin with: the name or the version of its producer, or the name of its
graph.
-/
import DetectorHeader.Onnx.Encode
import DetectorHeader.Tflite.Schema
import Mathlib

namespace DetectorHeader.Onnx

open Protobuf Protobuf.Writer

/-- All letters of the identifier but the first one. -/
def identifierTail : Bytes := [0x46, 0x4C, 0x33]

/-- The identifier stands at a position. -/
def MarkAt (i : Nat) (x : Bytes) : Prop := Tflite.identifier <+: x.drop i

/-- The first byte, if there is one, is no letter of the identifier. -/
def Clear (x : Bytes) : Prop := ∀ b ∈ x.head?, b ∉ Tflite.identifier

variable {x rest payload : Bytes} {i field n : Nat}

-- ==================================================================== starts

theorem clear_nil : Clear [] := fun _ hb => nomatch hb

/-- What is clear in both parts is clear. -/
theorem Clear.append (hx : Clear x) (hrest : Clear rest) :
    Clear (x ++ rest) := by
  cases x with
  | nil => exact hrest
  | cons b x => exact hx

/-- Integers and delimited payloads have keys that are no letters. -/
theorem exists_key (hfield : field < 16) {wire : WireType}
    (hwire : wire = .varint ∨ wire = .delimited) :
    ∃ b, key field wire = [b] ∧ b ∉ Tflite.identifier := by
  have hcode : wire.code = 0 ∨ wire.code = 2 := by
    rcases hwire with rfl | rfl
    · exact .inl rfl
    · exact .inr rfl
  refine ⟨UInt8.ofNat (field * 8 + wire.code), ?_, ?_⟩
  · unfold key varint
    rw [if_pos (by omega)]
  · -- A letter would have another wire type.
    have hletters : ∀ b ∈ Tflite.identifier,
        b.toNat % 8 = 3 ∨ b.toNat % 8 = 4 ∨ b.toNat % 8 = 6 := by
      simp [Tflite.identifier]
    have hbyte : (UInt8.ofNat (field * 8 + wire.code)).toNat
        = field * 8 + wire.code := by
      rw [UInt8.toNat_ofNat']
      omega
    intro hmem
    have := hletters _ hmem
    rw [hbyte] at this
    omega

/-- A record starts with a key, which is no letter of the identifier. -/
theorem clear_varintRecord (hfield : field < 16) (payload : Bytes) :
    Clear (varintRecord field payload) := by
  obtain ⟨b, hkey, hb⟩ := exists_key hfield (.inl rfl)
  unfold varintRecord
  rw [hkey]
  simpa [Clear] using hb

/-- So does one with a length. -/
theorem clear_blobRecord (hfield : field < 16) (payload : Bytes) :
    Clear (blobRecord field payload) := by
  obtain ⟨b, hkey, hb⟩ := exists_key hfield (.inr rfl)
  unfold blobRecord
  rw [hkey]
  simpa [Clear] using hb

/-- What may be absent is clear if what may be there is. -/
theorem clear_optional {α : Type} {record : α → Bytes}
    (h : ∀ a, Clear (record a)) (a : Option α) :
    Clear (Writer.optional record a) := by
  cases a with
  | none => exact clear_nil
  | some a => exact h a

/-- And so is what may be there several times. -/
theorem clear_repeated {α : Type} {record : α → Bytes}
    (h : ∀ a, Clear (record a)) (items : List α) :
    Clear (repeated record items) := by
  induction items with
  | nil => exact clear_nil
  | cons a items ih => exact (h a).append ih

/-- A packed list is a record, or nothing. -/
theorem clear_packed {α : Type} (hfield : field < 16) (element : α → Bytes)
    (items : List α) : Clear (packed field element items) := by
  unfold packed
  split
  · exact clear_nil
  · exact clear_blobRecord hfield _

/-- Letters in front of something clear are all in front of it. -/
theorem prefix_of_clear {letters : Bytes}
    (hletters : ∀ b ∈ letters, b ∈ Tflite.identifier) (hrest : Clear rest)
    (h : letters <+: x ++ rest) : letters <+: x := by
  induction letters generalizing x with
  | nil => exact List.nil_prefix
  | cons b letters ih =>
      obtain ⟨hb, hletters⟩ := List.forall_mem_cons.mp hletters
      cases x with
      | nil =>
          obtain ⟨after, hafter⟩ := h
          rw [List.nil_append] at hafter
          rw [← hafter] at hrest
          exact absurd hb (hrest b rfl)
      | cons c x =>
          rw [List.cons_append, List.cons_prefix_cons] at h
          exact List.cons_prefix_cons.mpr ⟨h.1, ih hletters h.2⟩

-- ================================================================== positions

theorem not_markAt_nil : ¬ MarkAt i [] := by
  intro h
  unfold MarkAt at h
  rw [List.drop_nil, List.prefix_nil] at h
  cases h

/-- No mark is at the start of what is clear. -/
theorem not_markAt_zero (h : Clear x) : ¬ MarkAt 0 x := by
  intro hmark
  obtain ⟨after, hafter⟩ := hmark
  rw [List.drop_zero] at hafter
  rw [← hafter] at h
  exact h 0x54 rfl (by decide)

/-- The letters are in what is in front, or in what is behind. -/
theorem markAt_append (hrest : Clear rest) (h : MarkAt i (x ++ rest)) :
    Tflite.identifier <+: x.drop i ∨ ∃ j ≤ i, MarkAt j rest := by
  unfold MarkAt at h
  by_cases hi : i ≤ x.length
  · rw [List.drop_append_of_le_length hi] at h
    exact .inl (prefix_of_clear (fun _ hb => hb) hrest h)
  · rw [List.drop_append, List.drop_eq_nil_of_le (by omega),
      List.nil_append] at h
    exact .inr ⟨i - x.length, by omega, h⟩

/-- Of a varint only the last byte can be a letter. -/
theorem markAt_varint (h : MarkAt i (varint n ++ rest)) :
    identifierTail <+: rest ∨ ∃ j < i, MarkAt j rest := by
  induction n using varint.induct generalizing i with
  | case1 n hn =>
      rw [varint, if_pos hn, List.singleton_append] at h
      cases i with
      | zero => exact .inl (List.cons_prefix_cons.mp h).2
      | succ i => exact .inr ⟨i, Nat.lt_succ_self i, h⟩
  | case2 n hn ih =>
      rw [varint, if_neg hn, List.cons_append] at h
      cases i with
      | zero =>
          have hbyte := congrArg UInt8.toNat (List.cons_prefix_cons.mp h).1
          rw [UInt8.toNat_ofNat'] at hbyte
          change 0x54 = _ at hbyte
          omega
      | succ i =>
          rcases ih h with htail | ⟨j, hj, hmark⟩
          · exact .inl htail
          · exact .inr ⟨j, Nat.lt_succ_of_lt hj, hmark⟩

/-- In front of a payload are a key and a varint, which are no letters but for
the last byte. -/
theorem markAt_header (hfield : field < 16) {wire : WireType}
    (hwire : wire = .varint ∨ wire = .delimited)
    (h : MarkAt i (key field wire ++ varint n ++ rest)) :
    identifierTail <+: rest ∨ ∃ j, j + 2 ≤ i ∧ MarkAt j rest := by
  obtain ⟨b, hkey, hb⟩ := exists_key hfield hwire
  rw [hkey, List.append_assoc, List.singleton_append] at h
  cases i with
  | zero =>
      obtain rfl := (List.cons_prefix_cons.mp h).1
      exact absurd (by decide) hb
  | succ i =>
      rcases markAt_varint h with htail | ⟨j, hj, hmark⟩
      · exact .inl htail
      · exact .inr ⟨j, by omega, hmark⟩

/-- The end of the identifier has letters of the identifier. -/
theorem identifierTail_subset {b : UInt8} (h : b ∈ identifierTail) :
    b ∈ Tflite.identifier :=
  List.mem_cons_of_mem _ h

/-- What is clear does not start with that end either. -/
theorem not_starts_identifierTail (h : Clear x) : ¬ identifierTail <+: x := by
  rintro ⟨after, rfl⟩
  exact h 0x46 rfl (by decide)

-- ==================================================================== records

/-- A mark is not in an integer, so it is in what follows. -/
theorem markAt_integer (hfield : field < 16) (hrest : Clear rest)
    (h : MarkAt i (varintRecord field (varint n) ++ rest)) :
    ∃ j ≤ i, MarkAt j rest := by
  rcases markAt_header hfield (.inl rfl) h with htail | ⟨j, hj, hmark⟩
  · exact absurd htail (not_starts_identifierTail hrest)
  · exact ⟨j, by omega, hmark⟩

/-- The letters in a text are all of it or all but the first. -/
theorem markAt_text (hfield : field < 16) {text : String} (hrest : Clear rest)
    (h : MarkAt i (textRecord field text ++ rest)) :
    identifierTail <:+: Utf8.encode text ∨ ∃ j, j + 2 ≤ i ∧ MarkAt j rest := by
  unfold textRecord blobRecord at h
  rw [List.append_assoc] at h
  rcases markAt_header hfield (.inr rfl) h with htail | ⟨j, hj, hmark⟩
  · exact .inl (prefix_of_clear (fun _ => identifierTail_subset) hrest
      htail).isInfix
  · rcases markAt_append hrest hmark with hprefix | ⟨k, hk, hmark⟩
    · refine .inl ?_
      have htail : identifierTail <:+: Tflite.identifier := by decide
      exact (htail.trans hprefix.isInfix).trans
        (List.drop_suffix j _).isInfix
    · exact .inr ⟨k, by omega, hmark⟩

/-- In a message there are no letters near the front. -/
theorem markAt_blob (hfield : field < 16) (hpayload : Clear payload)
    (hrest : Clear rest) (h : MarkAt i (blobRecord field payload ++ rest)) :
    ∃ j, j + 2 ≤ i ∧ MarkAt j (payload ++ rest) := by
  unfold blobRecord at h
  rw [List.append_assoc] at h
  rcases markAt_header hfield (.inr rfl) h with htail | hmark
  · exact absurd htail (not_starts_identifierTail (hpayload.append hrest))
  · exact hmark

/-- Nor is it in an integer that may be absent. -/
theorem markAt_optionalInteger (hfield : field < 16) {a : Option Int64}
    (hrest : Clear rest)
    (h : MarkAt i (Writer.optional (fun v => varintRecord field (int64 v)) a
      ++ rest)) : ∃ j ≤ i, MarkAt j rest := by
  cases a with
  | none => exact ⟨i, Nat.le_refl i, h⟩
  | some v => exact markAt_integer hfield hrest h

/-- It may be in a text, and then the end of the identifier is. -/
theorem markAt_optionalText (hfield : field < 16) {a : Option String}
    (hrest : Clear rest)
    (h : MarkAt i (Writer.optional (textRecord field) a ++ rest)) :
    (∃ text, a = some text ∧ identifierTail <:+: Utf8.encode text)
      ∨ ∃ j ≤ i, MarkAt j rest := by
  cases a with
  | none => exact .inr ⟨i, Nat.le_refl i, h⟩
  | some text =>
      rcases markAt_text hfield hrest h with htext | ⟨j, hj, hmark⟩
      · exact .inl ⟨text, rfl, htext⟩
      · exact .inr ⟨j, by omega, hmark⟩

/-- Messages that stand at the front are not what the letters are in. -/
theorem markAt_messages {α : Type} {encode : α → Bytes} (hfield : field < 16)
    (hclear : ∀ a, Clear (encode a)) {items : List α} (hrest : Clear rest)
    (hi : i ≤ 2)
    (h : MarkAt i (repeated (fun a => blobRecord field (encode a)) items
      ++ rest)) : MarkAt i rest := by
  cases items with
  | nil => exact h
  | cons a items =>
      unfold repeated at h
      rw [List.flatMap_cons, List.append_assoc] at h
      have hothers : Clear (repeated (fun a => blobRecord field (encode a))
          items ++ rest) :=
        (clear_repeated (fun a => clear_blobRecord hfield _) items).append
          hrest
      obtain ⟨j, hj, hmark⟩ := markAt_blob hfield (hclear a) hothers h
      obtain rfl : j = 0 := by omega
      exact absurd hmark (not_markAt_zero ((hclear a).append hothers))

-- =================================================================== messages

/-- What is written of a node starts with a key. -/
theorem Node.clear_encode (n : Node) : Clear n.encode :=
  ((((clear_repeated (fun _ => clear_blobRecord (by decide) _) _).append
    (clear_repeated (fun _ => clear_blobRecord (by decide) _) _)).append
    (clear_optional (fun _ => clear_blobRecord (by decide) _) _)).append
    (clear_optional (fun _ => clear_blobRecord (by decide) _) _)).append
    (clear_optional (fun _ => clear_blobRecord (by decide) _) _)

/-- So does what is written of a graph value. -/
theorem ValueInfo.clear_encode (v : ValueInfo) : Clear v.encode :=
  (clear_optional (fun _ => clear_blobRecord (by decide) _) _).append
    (clear_optional (fun _ => clear_blobRecord (by decide) _) _)

/-- And of a constant. -/
theorem Tensor.clear_encode (t : Tensor) : Clear t.encode := by
  have hdims := clear_repeated
    (fun v => clear_varintRecord (by decide : 1 < 16) (int64 v)) t.dims
  have hdataType := clear_optional
    (fun v => clear_varintRecord (by decide : 2 < 16) (int32 v)) t.dataType
  have hname := clear_optional
    (fun s => clear_blobRecord (by decide : 8 < 16) (Utf8.encode s)) t.name
  have hrawData := clear_optional
    (fun raw => clear_blobRecord (by decide : 9 < 16) raw) t.rawData
  exact (((((((hdims.append hdataType).append
    (clear_packed (by decide) binary32 t.floatData)).append
    (clear_packed (by decide) int32 t.int32Data)).append
    (clear_packed (by decide) int64 t.int64Data)).append hname).append
    hrawData).append
    (clear_packed (by decide) binary64 t.doubleData)).append
    (clear_packed (by decide) uint64 t.uint64Data)

/-- The part of a graph that follows its name. -/
def Graph.encodeValues (g : Graph) : Bytes :=
  repeated (fun t => blobRecord 5 t.encode) g.initializer
    ++ (repeated (fun v => blobRecord 11 v.encode) g.input
    ++ (repeated (fun v => blobRecord 12 v.encode) g.output
    ++ repeated (fun v => blobRecord 13 v.encode) g.valueInfo))

/-- And of the values of a graph. -/
theorem Graph.clear_encodeValues (g : Graph) : Clear g.encodeValues :=
  (clear_repeated (fun _ => clear_blobRecord (by decide) _) _).append
    ((clear_repeated (fun _ => clear_blobRecord (by decide) _) _).append
    ((clear_repeated (fun _ => clear_blobRecord (by decide) _) _).append
    (clear_repeated (fun _ => clear_blobRecord (by decide) _) _)))

/-- A graph starts with its nodes and its name. -/
theorem Graph.encode_eq (g : Graph) :
    g.encode = repeated (fun n => blobRecord 1 n.encode) g.node
      ++ (Writer.optional (textRecord 2) g.name ++ g.encodeValues) := by
  simp only [Graph.encode, Graph.encodeValues, List.append_assoc]

theorem Graph.clear_encode (g : Graph) : Clear g.encode := by
  rw [g.encode_eq]
  exact (clear_repeated (fun _ => clear_blobRecord (by decide) _) _).append
    ((clear_optional (fun _ => clear_blobRecord (by decide) _) _).append
    g.clear_encodeValues)

/-- So near to the start no mark is in the values. -/
theorem Graph.not_markAt_encodeValues (g : Graph) (hi : i ≤ 2) :
    ¬ MarkAt i g.encodeValues := by
  intro h
  have hvalueInfo : Clear (repeated (fun v => blobRecord 13 v.encode)
      g.valueInfo) := clear_repeated (fun _ => clear_blobRecord (by decide) _) _
  have houtput := (clear_repeated (fun v : ValueInfo =>
    clear_blobRecord (by decide : 12 < 16) v.encode) g.output).append hvalueInfo
  have hinput := (clear_repeated (fun v : ValueInfo =>
    clear_blobRecord (by decide : 11 < 16) v.encode) g.input).append houtput
  have h := markAt_messages (by decide) Tensor.clear_encode hinput hi h
  have h := markAt_messages (by decide) ValueInfo.clear_encode houtput hi h
  have h := markAt_messages (by decide) ValueInfo.clear_encode hvalueInfo hi h
  rw [← List.append_nil (repeated _ _)] at h
  exact not_markAt_nil
    (markAt_messages (by decide) ValueInfo.clear_encode clear_nil hi h)

/-- Near the front of a graph the letters are in its name. -/
theorem Graph.exists_of_markAt {g : Graph} (hi : i ≤ 2)
    (h : MarkAt i g.encode) :
    ∃ name, g.name = some name ∧ identifierTail <:+: Utf8.encode name := by
  have hname : Clear (Writer.optional (textRecord 2) g.name
      ++ g.encodeValues) :=
    (clear_optional (fun _ => clear_blobRecord (by decide) _) _).append
      g.clear_encodeValues
  rw [g.encode_eq] at h
  have h := markAt_messages (by decide) Node.clear_encode hname hi h
  rcases markAt_optionalText (by decide) g.clear_encodeValues h with hname
    | ⟨j, hj, hmark⟩
  · exact hname
  · exact absurd hmark (g.not_markAt_encodeValues (hj.trans hi))

/-- The texts that can be among the first bytes of a model. -/
def Model.frontTexts (m : Model) : List String :=
  m.producerName.toList ++ m.producerVersion.toList
    ++ (m.graph.bind (·.name)).toList

/-- A model that is written with the identifier of TFLite has most of it in
one of the texts at its front. -/
theorem Model.exists_of_hasIdentifier {m : Model}
    (h : Tflite.hasIdentifier m.encode = true) :
    ∃ text ∈ m.frontTexts, identifierTail <:+: Utf8.encode text := by
  have hmark : MarkAt 4 m.encode :=
    List.prefix_iff_eq_take.mpr (of_decide_eq_true h).symm
  have hgraph : Clear (Writer.optional (fun g => blobRecord 7 g.encode)
      m.graph) := clear_optional (fun _ => clear_blobRecord (by decide) _) _
  have hversion := (clear_optional (fun v =>
    clear_varintRecord (by decide : 5 < 16) (int64 v)) m.modelVersion).append
    hgraph
  have hproducerVersion := (clear_optional (fun s =>
    clear_blobRecord (by decide : 3 < 16) (Utf8.encode s))
    m.producerVersion).append hversion
  have hproducerName := (clear_optional (fun s =>
    clear_blobRecord (by decide : 2 < 16) (Utf8.encode s))
    m.producerName).append hproducerVersion
  unfold Model.encode at hmark
  simp only [List.append_assoc] at hmark
  -- The mark is followed through the records. One that is a text has it, or
  -- else it is behind the record, and nearer to the start of the rest.
  obtain ⟨i, hi, hmark⟩ :=
    markAt_optionalInteger (by decide) hproducerName hmark
  rcases markAt_optionalText (by decide) hproducerVersion hmark with
    ⟨text, htext, hletters⟩ | ⟨j, hj, hmark⟩
  · exact ⟨text, by simp [frontTexts, htext], hletters⟩
  rcases markAt_optionalText (by decide) hversion hmark with
    ⟨text, htext, hletters⟩ | ⟨k, hk, hmark⟩
  · exact ⟨text, by simp [frontTexts, htext], hletters⟩
  obtain ⟨l, hl, hmark⟩ := markAt_optionalInteger (by decide) hgraph hmark
  cases hg : m.graph with
  | none =>
      rw [hg] at hmark
      exact absurd hmark not_markAt_nil
  | some g =>
      rw [hg] at hmark
      change MarkAt l (blobRecord 7 g.encode) at hmark
      rw [← List.append_nil (blobRecord _ _)] at hmark
      obtain ⟨n, hn, hmark⟩ :=
        markAt_blob (by decide) g.clear_encode clear_nil hmark
      rw [List.append_nil] at hmark
      obtain ⟨name, hname, hletters⟩ :=
        Graph.exists_of_markAt (by omega) hmark
      exact ⟨name, by simp [frontTexts, hg, hname], hletters⟩

end DetectorHeader.Onnx
