/-
Messages from their records, and from two byte strings in a row.

`Taken reader x a` says that the reader takes all of `x` for `a`. For a reader
that parses anything this is what it parses (`Accepts.parses`), so nothing
more has to be known of its grammar. A message is assembled from its records
one by one (`Assembled`), at the top of a byte string (`decode_eq_ok_iff`) and
in the payload of a record (`submessage_taken`).

The loop over records does not see where one byte string ends and the next
begins: past the records of the first it goes on as it would start on the
second (`repeatTo_append`), only with more done. So the two together are read
as the second is, and the first is merged in front (`decode_append`).
-/
import DetectorHeader.Proofs.Protobuf.Accepts

namespace DetectorHeader.Protobuf

-- =================================================================== taking

/-- The reader takes all of the bytes for the value. -/
def Taken {α : Type} (reader : Reader α) (x : Bytes) (a : α) : Prop :=
  reader (.ofBytes x) = .ok (a, .ofBytes [])

section

variable {α β : Type} {reader : Reader α}

theorem Parses.taken_iff {G : Bytes → α → Prop} (h : Parses reader G)
    {x : Bytes} {a : α} : Taken reader x a ↔ G x a := by
  unfold Taken
  rw [h]
  constructor
  · intro hgiven
    obtain ⟨y, hy, hG⟩ := hgiven
    rw [show x = y from hy.trans (List.append_nil y)]
    exact hG
  · intro hG
    exact ⟨x, (List.append_nil x).symm, hG⟩

/-- A reader that accepts some bytes parses what it takes of them. -/
theorem Accepts.parses {L : Bytes → Prop} (h : Accepts reader L) :
    Parses reader (Taken reader) ∧ ∀ x, L x ↔ ∃ a, Taken reader x a := by
  obtain ⟨G, hparses, hG⟩ := h
  simp only [hparses.taken_iff]
  exact ⟨hparses.congr fun _ _ => hparses.taken_iff.symm, hG⟩

/-- What is made of a known field is made of its payload. -/
theorem taken_within_iff {f : α → β} {name : FieldName} {x : Bytes} {b : β} :
    Taken (Reader.within name do return f (← reader)) x b
      ↔ ∃ a, b = f a ∧ Taken reader x a := by
  unfold Taken Reader.within
  cases hreader : reader (.ofBytes x) with
  | error fault =>
      have hbind : (do return f (← reader) : Reader β) (.ofBytes x)
          = .error fault := by
        show (reader (.ofBytes x) >>= fun r => _) = _
        rw [hreader]
        rfl
      rw [hbind]
      simp [Except.mapError]
  | ok r =>
      rw [bind_of_eq_ok hreader]
      show Except.ok (f r.1, r.2) = _ ↔ _
      constructor
      · intro h
        obtain ⟨a, rest⟩ := r
        cases h
        exact ⟨a, rfl, rfl⟩
      · intro hgiven
        obtain ⟨a, rfl, h⟩ := hgiven
        cases h
        rfl

end

-- ===================================================================== runs

section

variable {α : Type} {item : Reader α} {G : Bytes → α → Prop}

/-- A run that is not at its end takes an item and goes on. -/
theorem repeatTo_next {limit : Nat} {done : List α} {input rest : Input}
    {a : α} (hmore : limit < input.left) (hitem : item input = .ok (a, rest))
    (hprogress : rest.left < input.left) :
    Reader.repeatTo item limit done input
      = Reader.repeatTo item limit (a :: done) rest := by
  rw [Reader.repeatTo, if_neg (Nat.not_le_of_lt hmore), hitem]
  dsimp only
  rw [dif_pos hprogress]

/-- Items in front are taken, and the run goes on behind them. -/
theorem repeatTo_append (h : Parses item G) (hne : ∀ x a, G x a → x ≠ [])
    {pieces : List Bytes} {items : List α}
    (hpieces : List.Forall₂ G pieces items) {limit : Nat} {rest : Bytes}
    (hlimit : limit ≤ rest.length) (done : List α) :
    Reader.repeatTo item limit done (.ofBytes (pieces.flatten ++ rest))
      = Reader.repeatTo item limit (items.reverse ++ done)
          (.ofBytes rest) := by
  induction hpieces generalizing done with
  | nil => rfl
  | @cons piece a pieces items hpiece _ ih =>
      have hpos := List.length_pos_iff.mpr (hne piece a hpiece)
      have hprogress : (pieces.flatten ++ rest).length
          < (piece ++ (pieces.flatten ++ rest)).length := by
        have hsum : (piece ++ (pieces.flatten ++ rest)).length
            = piece.length + (pieces.flatten ++ rest).length :=
          List.length_append
        omega
      have hmore : limit < (piece ++ (pieces.flatten ++ rest)).length := by
        rw [List.length_append] at hprogress
        omega
      rw [List.flatten_cons, List.append_assoc,
        repeatTo_next hmore (h.takes hpiece _) hprogress, ih,
        List.reverse_cons, List.append_assoc, List.singleton_append]

/-- A run hands on what was done before it. -/
theorem repeatTo_done (limit : Nat) (done more : List α) (input : Input) :
    Reader.repeatTo item limit (done ++ more) input
      = (Reader.repeatTo item limit done input).map
          fun r => (r.1 ++ more, r.2) := by
  fun_induction Reader.repeatTo item limit done input with
  | case1 done input hend =>
      rw [Reader.repeatTo, if_pos hend]
      rfl
  | case2 done input hmore fault hitem =>
      rw [Reader.repeatTo, if_neg hmore, hitem]
      rfl
  | case3 done input hmore a mid hitem hprogress ih =>
      rw [repeatTo_next (Nat.lt_of_not_le hmore) hitem hprogress, ← ih,
        List.cons_append]
  | case4 done input hmore a mid hitem hprogress =>
      rw [Reader.repeatTo, if_neg hmore, hitem]
      dsimp only
      rw [dif_neg hprogress]
      rfl

end

-- ================================================================= messages

section

variable {M T : Type} {field : Nat → Key → Reader M} {budget : Nat}
  {schema : Schema T} {t : T}

/-- Records are taken whatever comes behind, and none of them is empty. -/
theorem record_parses
    (h : ∀ k, Accepts (field budget k) (Payload schema budget t k)) :
    Parses (Reader.record field budget) (Taken (Reader.record field budget))
      ∧ ∀ x a, Taken (Reader.record field budget) x a → x ≠ [] := by
  obtain ⟨hparses, hiff⟩ := (record_accepts h).parses
  exact ⟨hparses, fun x a hx => OneRecord.ne_nil ((hiff x).mpr ⟨a, hx⟩)⟩

variable [Message M]

/-- The message is assembled from what each of the records gives. -/
def Assembled (field : Nat → Key → Reader M) (budget : Nat) (x : Bytes)
    (m : M) : Prop :=
  ∃ pieces parts,
    List.Forall₂ (Taken (Reader.record field budget)) pieces parts
      ∧ x = pieces.flatten ∧ m = assemble parts

/-- What runs of records are read as. -/
theorem decode_eq_ok_iff
    (h : ∀ k, Accepts (field recursionBudget k)
      (Payload schema recursionBudget t k)) {bytes : Bytes} {m : M} :
    decode field bytes = .ok m ↔ Assembled field recursionBudget bytes m := by
  obtain ⟨hparses, hne⟩ := record_parses h
  exact decode_eq_ok_iff_of_parses hparses hne

/-- Behind the bytes of a message, bytes are read as they are alone, and the
message is merged in front of what they give. -/
theorem decode_append [LawfulMessage M]
    (h : ∀ k, Accepts (field recursionBudget k)
      (Payload schema recursionBudget t k)) {a : Bytes} {m : M}
    (ha : decode field a = .ok m) (b : Bytes) :
    decode field (a ++ b) = (decode field b).map (Message.merge m) := by
  obtain ⟨hparses, hne⟩ := record_parses h
  obtain ⟨pieces, parts, hpieces, rfl, rfl⟩ := (decode_eq_ok_iff h).mp ha
  unfold decode
  rw [repeatTo_append hparses hne hpieces (Nat.zero_le _), List.append_nil]
  have hdone : Reader.repeatTo (Reader.record field recursionBudget) 0
      ([] ++ parts.reverse) (.ofBytes b) = _ := repeatTo_done 0 [] _ _
  rw [List.nil_append] at hdone
  rw [hdone]
  cases Reader.repeatTo (Reader.record field recursionBudget) 0 []
      (.ofBytes b) with
  | error fault => rfl
  | ok r =>
      show Except.ok (assemble (r.1 ++ parts.reverse).reverse) = Except.ok _
      rw [List.reverse_append, List.reverse_reverse, assemble_append]

/-- A message within a message is assembled from its payload. -/
theorem submessage_taken
    (h : ∀ k, Accepts (field budget k) (Payload schema budget t k))
    {n : Nat} {x payload : Bytes} {m : M} (hsized : Sized payload x)
    (hm : Assembled field budget payload m) :
    Taken (Reader.submessage field (budget + 1) ⟨n, .delimited⟩) x m := by
  obtain ⟨hparses, hne⟩ := record_parses h
  obtain ⟨pieces, parts, hpieces, rfl, rfl⟩ := hm
  have hmap := (delimited_parses hparses hne).map assemble
  exact (hmap _ _ _).mpr ⟨x, (List.append_nil x).symm, parts,
    ⟨pieces, hpieces, hsized⟩, rfl⟩

end

end DetectorHeader.Protobuf
