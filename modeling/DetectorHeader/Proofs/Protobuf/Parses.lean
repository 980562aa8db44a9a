/-
Readers and what they accept.

`Parses reader G` says that `reader` takes bytes off the front of its input
exactly where they are related to a value by `G`, whatever comes behind them.
This is kept by the ways in which readers are put together, so each reader is
matched with its part of the grammar once.

The readers of lengths look at the end of the whole input alone. That they
accept no more than the grammar does is seen at the end of a run: the items
have to end where the length does (`repeatTo_sound`), and each of them has
taken a piece of the input that is there.
-/
import DetectorHeader.Proofs.Protobuf.Grammar
import DetectorHeader.Proofs.Protobuf.Message

namespace DetectorHeader.Protobuf

-- =================================================================== inputs

/-- An input is known by its bytes. -/
theorem Input.eq_ofBytes (input : Input) : input = .ofBytes input.bytes := by
  obtain ⟨bytes, left, rfl⟩ := input
  rfl

theorem Input.eq_of_bytes_eq {input input' : Input}
    (h : input.bytes = input'.bytes) : input = input' := by
  rw [input.eq_ofBytes, input'.eq_ofBytes, h]

/-- What comes after a reader sees what the reader has left. -/
theorem bind_eq_ok_iff {α β : Type} {reader : Reader α} {f : α → Reader β}
    {input rest : Input} {b : β} :
    (reader >>= f) input = .ok (b, rest)
      ↔ ∃ a mid, reader input = .ok (a, mid) ∧ f a mid = .ok (b, rest) := by
  show (reader input >>= fun r => f r.1 r.2) = _ ↔ _
  cases reader input with
  | error fault => simp [bind, Except.bind]
  | ok r =>
      obtain ⟨a, mid⟩ := r
      simp [bind, Except.bind]

-- ================================================================== parsing

/-- The reader takes bytes for a value exactly where the two are related. -/
def Parses {α : Type} (reader : Reader α) (G : Bytes → α → Prop) : Prop :=
  ∀ input a rest, reader input = .ok (a, rest)
    ↔ ∃ x, input.bytes = x ++ rest.bytes ∧ G x a

namespace Parses

variable {α β : Type} {reader : Reader α} {G G' : Bytes → α → Prop}

/-- Related bytes are taken, whatever comes behind them. -/
theorem takes (h : Parses reader G) {x : Bytes} {a : α} (hx : G x a)
    (rest : Bytes) : reader (.ofBytes (x ++ rest)) = .ok (a, .ofBytes rest) :=
  (h _ _ _).mpr ⟨x, rfl, hx⟩

theorem congr (h : Parses reader G) (hG : ∀ x a, G x a ↔ G' x a) :
    Parses reader G' := by
  intro input a rest
  rw [h input a rest]
  exact exists_congr fun x => and_congr_right fun _ => hG x a

theorem pure (a : α) : Parses (pure a) fun x a' => x = [] ∧ a' = a := by
  intro input a' rest
  show Except.ok (a, input) = _ ↔ _
  constructor
  · intro h
    cases h
    exact ⟨[], rfl, rfl, rfl⟩
  · intro hgiven
    obtain ⟨x, hx, rfl, rfl⟩ := hgiven
    rw [Input.eq_of_bytes_eq hx]

theorem fail (d : Defect) :
    Parses (Reader.fail d : Reader α) fun _ _ => False := by
  intro input a rest
  show Except.error _ = _ ↔ _
  constructor
  · intro h
    cases h
  · intro hgiven
    obtain ⟨_, _, h⟩ := hgiven
    exact h.elim

/-- One reader after another reads what both read, one behind the other. -/
theorem bind {f : α → Reader β} {H : α → Bytes → β → Prop}
    (h : Parses reader G) (hf : ∀ a, Parses (f a) (H a)) :
    Parses (reader >>= f) fun x b =>
      ∃ y z a, x = y ++ z ∧ G y a ∧ H a z b := by
  intro input b rest
  rw [bind_eq_ok_iff]
  constructor
  · intro hgiven
    obtain ⟨a, mid, hreader, hrest⟩ := hgiven
    obtain ⟨y, hy, hG⟩ := (h _ _ _).mp hreader
    obtain ⟨z, hz, hH⟩ := (hf a _ _ _).mp hrest
    refine ⟨y ++ z, ?_, y, z, a, rfl, hG, hH⟩
    rw [hy, hz, List.append_assoc]
  · intro hgiven
    obtain ⟨_, hx, y, z, a, rfl, hG, hH⟩ := hgiven
    rw [List.append_assoc] at hx
    exact ⟨a, .ofBytes (z ++ rest.bytes), (h _ _ _).mpr ⟨y, hx, hG⟩,
      (hf a _ _ _).mpr ⟨z, rfl, hH⟩⟩

theorem map (h : Parses reader G) (f : α → β) :
    Parses (do return f (← reader)) fun x b => ∃ a, G x a ∧ b = f a := by
  refine (h.bind fun a => Parses.pure (f a)).congr fun x b => ?_
  constructor
  · intro hgiven
    obtain ⟨y, z, a, rfl, hG, rfl, rfl⟩ := hgiven
    rw [List.append_nil]
    exact ⟨a, hG, rfl⟩
  · intro hgiven
    obtain ⟨a, hG, rfl⟩ := hgiven
    exact ⟨x, [], a, (List.append_nil x).symm, hG, rfl, rfl⟩

/-- What comes after a check is read if the check passes. -/
theorem check {c : Prop} [Decidable c] {d : Defect} {f : PUnit → Reader α}
    (h : ¬ c → Parses (f ⟨⟩) G) :
    Parses (if c then Reader.fail d >>= f else f ⟨⟩)
      fun x a => ¬ c ∧ G x a := by
  by_cases hc : c
  · rw [if_pos hc]
    exact (Parses.fail d).congr fun x a =>
      iff_of_false id fun h => h.1 hc
  · rw [if_neg hc]
    exact (h hc).congr fun x a => (and_iff_right hc).symm

theorem within (h : Parses reader G) (name : FieldName) :
    Parses (Reader.within name reader) G := by
  intro input a rest
  rw [← h input a rest]
  unfold Reader.within
  cases reader input with
  | error fault => exact ⟨(nomatch ·), (nomatch ·)⟩
  | ok r => exact Iff.rfl

end Parses

-- ==================================================================== bytes

theorem byte_parses (d : Defect) :
    Parses (Reader.byte d) fun x b => x = [b] := by
  intro input b rest
  unfold Reader.byte
  constructor
  · intro h
    cases hbytes : input.bytes with
    | nil =>
        rw [hbytes] at h
        cases h
    | cons c bs =>
        rw [hbytes] at h
        cases h
        exact ⟨[b], by simp [Input.drop, hbytes], rfl⟩
  · intro hgiven
    obtain ⟨_, hx, rfl⟩ := hgiven
    have hdrop : input.drop 1 = rest :=
      Input.eq_of_bytes_eq (by simp [Input.drop, hx])
    rw [hx]
    show Except.ok (b, input.drop 1) = _
    rw [hdrop]

theorem take_parses (n : Nat) :
    Parses (Reader.take n) fun x a => x = a ∧ x.length = n := by
  intro input a rest
  unfold Reader.take
  constructor
  · intro h
    by_cases hshort : input.left < n
    · rw [if_pos hshort] at h
      cases h
    · rw [if_neg hshort] at h
      cases h
      rw [input.left_eq] at hshort
      exact ⟨_, (List.take_append_drop n _).symm, rfl,
        List.length_take_of_le (Nat.le_of_not_lt hshort)⟩
  · intro hgiven
    obtain ⟨x, hx, rfl, rfl⟩ := hgiven
    have hdrop : input.drop x.length = rest :=
      Input.eq_of_bytes_eq (by simp [Input.drop, hx])
    rw [if_neg (by rw [input.left_eq, hx, List.length_append]; omega), hdrop,
      hx, List.take_left]

-- ================================================================== varints

theorem not_varintIn_zero (x : Bytes) (n : Nat) : ¬ VarintIn 0 x n := by
  intro h
  obtain ⟨init, last, rfl, -, -, hlength, -⟩ := h
  rw [List.length_append, List.length_singleton] at hlength
  omega

/-- A varint is its last byte, or a byte with the high bit and a varint that
has one byte less room. -/
theorem varintIn_succ_iff {room : Nat} {x : Bytes} {n : Nat} :
    VarintIn (room + 1) x n
      ↔ ∃ b, (x = [b] ∧ b < 0x80 ∧ (room = 0 → b ≤ 1) ∧ n = b.toNat)
        ∨ ∃ y m, x = b :: y ∧ ¬ b < 0x80 ∧ VarintIn room y m
          ∧ n = b.toNat % 128 + 128 * m := by
  constructor
  · intro hgiven
    obtain ⟨init, last, rfl, hinit, hlast, hlength, hfull, rfl⟩ := hgiven
    cases init with
    | nil =>
        have hlow : last.toNat < 128 := UInt8.lt_iff_toNat_lt.mp hlast
        refine ⟨last, .inl ⟨rfl, hlast, fun hroom => hfull ?_, ?_⟩⟩
        · rw [hroom]
          rfl
        · show last.toNat % 128 + 128 * 0 = _
          omega
    | cons b init =>
        obtain ⟨hb, hinit⟩ := List.forall_mem_cons.mp hinit
        refine ⟨b, .inr ⟨init ++ [last], _, rfl, UInt8.not_lt.mpr hb,
          ⟨init, last, rfl, hinit, hlast, ?_, fun h => hfull ?_, rfl⟩, rfl⟩⟩
        · exact Nat.le_of_succ_le_succ hlength
        · exact congrArg Nat.succ h
  · intro hgiven
    rcases hgiven with ⟨b, ⟨rfl, hb, hfull, rfl⟩ | ⟨y, m, rfl, hb, hy, rfl⟩⟩
    · have hlow : b.toNat < 128 := UInt8.lt_iff_toNat_lt.mp hb
      refine ⟨[], b, rfl, by simp, hb, Nat.succ_le_succ (Nat.zero_le room),
        fun h => hfull (Nat.succ.inj h).symm, ?_⟩
      show _ = b.toNat % 128 + 128 * 0
      omega
    · obtain ⟨init, last, rfl, hinit, hlast, hlength, hfull, rfl⟩ := hy
      exact ⟨b :: init, last, rfl,
        List.forall_mem_cons.mpr ⟨UInt8.not_lt.mp hb, hinit⟩, hlast,
        Nat.succ_le_succ hlength, fun h => hfull (Nat.succ.inj h), rfl⟩

/-- What comes after the first byte of a varint, by that byte. -/
private theorem afterByte_parses {room : Nat}
    (h : Parses (Reader.varintWithin room) (VarintIn room)) (b : UInt8) :
    Parses
      (if b < 0x80 then
        if room = 0 && 1 < b then Reader.fail .varint else pure b.toNat
      else do
        let high ← Reader.varintWithin room
        pure (b.toNat % 128 + 128 * high)) fun y n =>
      (y = [] ∧ b < 0x80 ∧ (room = 0 → b ≤ 1) ∧ n = b.toNat)
        ∨ ∃ m, ¬ b < 0x80 ∧ VarintIn room y m
          ∧ n = b.toNat % 128 + 128 * m := by
  by_cases hlow : b < 0x80
  · rw [if_pos hlow]
    by_cases hfull : (room = 0 && decide (1 < b)) = true
    · rw [if_pos hfull]
      rw [Bool.and_eq_true, decide_eq_true_eq, decide_eq_true_eq] at hfull
      refine (Parses.fail _).congr fun y n => ?_
      simp only [hlow, not_true, false_and, exists_false, or_false, false_iff]
      intro hgiven
      obtain ⟨-, -, hroom, -⟩ := hgiven
      exact absurd hfull.2 (UInt8.not_lt.mpr (hroom hfull.1))
    · rw [if_neg hfull]
      rw [Bool.and_eq_true, decide_eq_true_eq, decide_eq_true_eq, not_and]
        at hfull
      refine (Parses.pure _).congr fun y n => ?_
      simp only [hlow, not_true, false_and, exists_false, or_false, true_and]
      exact and_congr_right fun _ =>
        (and_iff_right fun hroom => UInt8.not_lt.mp (hfull hroom)).symm
  · rw [if_neg hlow]
    refine (h.map _).congr fun y n => ?_
    simp only [hlow, not_false_eq_true, false_and, and_false, true_and,
      false_or]

/-- A varint is read iff it ends within the room that is left. -/
theorem varintWithin_parses (room : Nat) :
    Parses (Reader.varintWithin room) (VarintIn room) := by
  induction room with
  | zero =>
      exact (Parses.fail .varint).congr fun x n =>
        (iff_false_intro (not_varintIn_zero x n)).symm
  | succ room ih =>
      unfold Reader.varintWithin
      refine ((byte_parses .varint).bind (afterByte_parses ih)).congr
        fun x n => ?_
      rw [varintIn_succ_iff]
      constructor
      · intro h
        rcases h with ⟨_, y, b, rfl, rfl, ⟨rfl, hb⟩ | ⟨m, hb, hm⟩⟩
        · exact ⟨b, .inl ⟨rfl, hb⟩⟩
        · exact ⟨b, .inr ⟨y, m, rfl, hb, hm⟩⟩
      · intro h
        rcases h with ⟨b, ⟨rfl, hb⟩ | ⟨y, m, rfl, hb, hm⟩⟩
        · exact ⟨[b], [], b, rfl, rfl, .inl ⟨rfl, hb⟩⟩
        · exact ⟨[b], y, b, rfl, rfl, .inr ⟨m, hb, hm⟩⟩

theorem varint_parses : Parses Reader.varint Varint := varintWithin_parses 10

-- ===================================================================== keys

theorem WireType.ofCode?_eq_some_iff {n : Nat} {wire : WireType} :
    WireType.ofCode? n = some wire ↔ n = wire.code := by
  constructor
  · intro h
    unfold ofCode? at h
    split at h <;> cases h <;> rfl
  · intro hcode
    subst hcode
    exact ofCode?_code wire

/-- What is made of the number that a key is. -/
private theorem keyOfNumber_parses (n : Nat) :
    Parses (do
      if 0x100000000 ≤ n then Reader.fail (.keyValue n)
      match WireType.ofCode? (n % 8) with
      | none => Reader.fail (.wireTypeCode (n % 8))
      | some wire =>
          if n / 8 = 0 then Reader.fail .fieldNumber
          pure (⟨n / 8, wire⟩ : Key)) fun y k =>
      ¬ 0x100000000 ≤ n ∧ y = [] ∧ 0 < k.field
        ∧ n = k.field * 8 + k.wire.code := by
  refine Parses.check fun _ => ?_
  cases hwire : WireType.ofCode? (n % 8) with
  | none =>
      refine (Parses.fail _).congr fun y k => iff_of_false id ?_
      intro h
      obtain ⟨-, -, hn⟩ := h
      have hcode := k.wire.code_lt
      rw [hn, show (k.field * 8 + k.wire.code) % 8 = k.wire.code by omega,
        WireType.ofCode?_code] at hwire
      cases hwire
  | some wire =>
      have hmod := WireType.ofCode?_eq_some_iff.mp hwire
      have hfield : Parses (do
          if n / 8 = 0 then Reader.fail .fieldNumber
          pure (⟨n / 8, wire⟩ : Key)) fun y k =>
            ¬ n / 8 = 0 ∧ y = [] ∧ k = ⟨n / 8, wire⟩ :=
        Parses.check fun _ => Parses.pure _
      refine hfield.congr fun y k => ?_
      constructor
      · intro h
        obtain ⟨hfield, rfl, rfl⟩ := h
        refine ⟨rfl, Nat.pos_of_ne_zero hfield, ?_⟩
        show n = n / 8 * 8 + wire.code
        omega
      · intro h
        obtain ⟨rfl, hfield, hn⟩ := h
        have hcode := k.wire.code_lt
        have hdiv : n / 8 = k.field := by omega
        -- No two wire types have one code.
        have hk : k.wire = wire := by
          have hwire' := WireType.ofCode?_code k.wire
          rw [show k.wire.code = n % 8 by omega, hwire] at hwire'
          exact (Option.some.inj hwire').symm
        rw [hdiv, ← hk]
        exact ⟨Nat.ne_of_gt hfield, rfl, rfl⟩

/-- A key is read from its varint. -/
theorem key_parses : Parses Reader.key KeyOf := by
  unfold Reader.key
  refine (varint_parses.bind keyOfNumber_parses).congr fun x k => ?_
  constructor
  · intro h
    obtain ⟨y, z, n, rfl, hn, hsmall, rfl, hfield, hk⟩ := h
    rw [List.append_nil]
    exact ⟨n, hn, Nat.lt_of_not_le hsmall, hfield, hk⟩
  · intro h
    obtain ⟨n, hn, hsmall, hfield, hk⟩ := h
    exact ⟨x, [], n, (List.append_nil x).symm, hn, Nat.not_le_of_lt hsmall,
      rfl, hfield, hk⟩

-- ==================================================== lengths and payloads

theorem blob_parses : Parses Reader.blob fun x a => Sized a x := by
  unfold Reader.blob
  refine (varint_parses.bind take_parses).congr fun x a => ?_
  constructor
  · intro h
    obtain ⟨y, z, length, rfl, hlength, rfl, rfl⟩ := h
    exact ⟨y, hlength, rfl⟩
  · intro h
    obtain ⟨y, hlength, rfl⟩ := h
    exact ⟨y, a, _, rfl, hlength, rfl, rfl⟩

/-- What is made of the bytes of a text. -/
private theorem decoded_parses (bytes : Bytes) :
    Parses
      (match Utf8.decode bytes with
        | .ok s => pure s
        | .error _ => Reader.fail .text) fun y text =>
      y = [] ∧ bytes = Utf8.encode text := by
  cases hdecode : Utf8.decode bytes with
  | error fault =>
      refine (Parses.fail _).congr fun y text => iff_of_false id ?_
      intro hgiven
      obtain ⟨-, hbytes⟩ := hgiven
      rw [Utf8.decode_eq_ok_iff.mpr hbytes] at hdecode
      cases hdecode
  | ok s =>
      refine (Parses.pure s).congr fun y text => and_congr_right fun _ => ?_
      rw [← Utf8.decode_eq_ok_iff, hdecode]
      exact ⟨fun h => congrArg Except.ok h.symm,
        fun h => (Except.ok.inj h).symm⟩

/-- Text is read from its encoding, behind its length. -/
theorem text_parses :
    Parses Reader.text fun x text => Sized (Utf8.encode text) x := by
  unfold Reader.text
  refine (blob_parses.bind decoded_parses).congr fun x text => ?_
  constructor
  · intro h
    obtain ⟨y, z, bytes, rfl, hsized, rfl, rfl⟩ := h
    rw [List.append_nil]
    exact hsized
  · intro hsized
    exact ⟨x, [], _, (List.append_nil x).symm, hsized, rfl, rfl⟩

-- ============================================================ runs of items

/-- A run ends at its limit or before it, and has taken one piece of the input
for each item. -/
theorem repeatTo_sound {α : Type} {item : Reader α} {G : Bytes → α → Prop}
    (h : Parses item G) (hne : ∀ x a, G x a → x ≠ []) {limit : Nat}
    {done items : List α} {input rest : Input}
    (hrun : Reader.repeatTo item limit done input = .ok (items, rest)) :
    rest.left ≤ limit ∧ ∃ pieces as, List.Forall₂ G pieces as
      ∧ input.bytes = pieces.flatten ++ rest.bytes
      ∧ items = as.reverse ++ done := by
  fun_induction Reader.repeatTo item limit done input with
  | case1 done input hend =>
      cases hrun
      exact ⟨hend, [], [], .nil, rfl, rfl⟩
  | case2 done input hmore fault hitem => cases hrun
  | case3 done input hmore a mid hitem hprogress ih =>
      obtain ⟨x, hx, hG⟩ := (h _ _ _).mp hitem
      obtain ⟨hleft, pieces, as, hpieces, hbytes, hitems⟩ := ih hrun
      refine ⟨hleft, x :: pieces, a :: as, .cons hG hpieces, ?_, ?_⟩
      · rw [hx, hbytes, List.flatten_cons, List.append_assoc]
      · rw [hitems, List.reverse_cons, List.append_assoc]
        rfl
  | case4 done input hmore a mid hitem hprogress =>
      obtain ⟨x, hx, hG⟩ := (h _ _ _).mp hitem
      have hpos := List.length_pos_iff.mpr (hne x a hG)
      refine absurd ?_ hprogress
      rw [input.left_eq, mid.left_eq, hx, List.length_append]
      omega

/-- Related pieces are taken as one run. -/
theorem repeatTo_complete {α : Type} {item : Reader α} {G : Bytes → α → Prop}
    (h : Parses item G) (hne : ∀ x a, G x a → x ≠ []) {pieces : List Bytes}
    {items : List α} (hpieces : List.Forall₂ G pieces items) (rest : Bytes) :
    Reader.repeatTo item rest.length [] (.ofBytes (pieces.flatten ++ rest))
      = .ok (items.reverse, .ofBytes rest) := by
  have hrun := repeatTo_run
    (hpieces.imp fun x a hx => ⟨hne x a hx, h.takes hx⟩) rest []
  rwa [List.append_nil] at hrun

/-- The items that fill a length. -/
private theorem filled_parses {α : Type} {item : Reader α}
    {G : Bytes → α → Prop} (h : Parses item G)
    (hne : ∀ x a, G x a → x ≠ []) (length : Nat) :
    Parses (do
      let left ← Reader.remaining
      if left < length then Reader.fail .underflow
      let items ← Reader.repeatTo item (left - length) []
      if (← Reader.remaining) ≠ left - length then Reader.fail .overrun
      pure items.reverse) fun y items => ∃ pieces,
        List.Forall₂ G pieces items ∧ y = pieces.flatten
          ∧ y.length = length := by
  intro input items rest
  rw [bind_of_eq_ok (rfl : Reader.remaining input = .ok (input.left, input))]
  constructor
  · intro hrun
    by_cases hshort : input.left < length
    · rw [if_pos hshort] at hrun
      cases hrun
    rw [if_neg hshort] at hrun
    obtain ⟨found, mid, hfound, hrun⟩ := bind_eq_ok_iff.mp hrun
    obtain ⟨-, pieces, as, hpieces, hbytes, rfl⟩ :=
      repeatTo_sound h hne hfound
    rw [bind_of_eq_ok (rfl : Reader.remaining mid = .ok (mid.left, mid))]
      at hrun
    -- As much is left as without the payload, so the items fill it exactly.
    by_cases hover : mid.left ≠ input.left - length
    · rw [if_pos hover] at hrun
      cases hrun
    rw [if_neg hover] at hrun
    cases hrun
    rw [List.append_nil, List.reverse_reverse]
    refine ⟨pieces.flatten, hbytes, pieces, hpieces, rfl, ?_⟩
    have hlength := congrArg List.length hbytes
    rw [List.length_append, ← input.left_eq, ← rest.left_eq] at hlength
    omega
  · intro hgiven
    obtain ⟨_, hbytes, pieces, hpieces, rfl, rfl⟩ := hgiven
    have hlength := congrArg List.length hbytes
    rw [List.length_append, ← input.left_eq, ← rest.left_eq] at hlength
    have hleft : input.left - pieces.flatten.length = rest.bytes.length := by
      rw [← rest.left_eq]
      omega
    have hfound := repeatTo_complete h hne hpieces rest.bytes
    rw [← hbytes, ← input.eq_ofBytes, ← rest.eq_ofBytes] at hfound
    rw [if_neg (by omega), hleft]
    dsimp only
    rw [bind_of_eq_ok hfound,
      bind_of_eq_ok (rfl : Reader.remaining rest = .ok (rest.left, rest)),
      if_neg (not_not.mpr rest.left_eq), List.reverse_reverse]
    rfl

/-- The reader of a length and items takes a payload that the items fill. -/
theorem delimited_parses {α : Type} {item : Reader α} {G : Bytes → α → Prop}
    (h : Parses item G) (hne : ∀ x a, G x a → x ≠ []) :
    Parses (Reader.delimited item) fun x items =>
      ∃ pieces, List.Forall₂ G pieces items ∧ Sized pieces.flatten x := by
  unfold Reader.delimited
  refine (varint_parses.bind (filled_parses h hne)).congr fun x items => ?_
  constructor
  · intro hgiven
    obtain ⟨y, _, length, rfl, hlength, pieces, hpieces, rfl, rfl⟩ := hgiven
    exact ⟨pieces, hpieces, y, hlength, rfl⟩
  · intro hgiven
    obtain ⟨pieces, hpieces, y, hlength, rfl⟩ := hgiven
    exact ⟨y, _, _, rfl, hlength, pieces, hpieces, rfl, rfl⟩

-- ============================================================ whole messages

/-- A message is read from pieces that are records, to the last byte. -/
theorem decode_eq_ok_iff_of_parses {M : Type} [Message M]
    {field : Nat → Key → Reader M} {G : Bytes → M → Prop}
    (h : Parses (Reader.record field recursionBudget) G)
    (hne : ∀ x a, G x a → x ≠ []) {bytes : Bytes} {m : M} :
    decode field bytes = .ok m ↔ ∃ pieces parts,
      List.Forall₂ G pieces parts ∧ bytes = pieces.flatten
        ∧ m = assemble parts := by
  unfold decode
  constructor
  · intro hdecode
    cases hrun : Reader.repeatTo (Reader.record field recursionBudget) 0 []
        (.ofBytes bytes) with
    | error fault =>
        rw [hrun] at hdecode
        cases hdecode
    | ok r =>
        obtain ⟨items, rest⟩ := r
        rw [hrun] at hdecode
        cases hdecode
        obtain ⟨hend, pieces, parts, hpieces, hbytes, rfl⟩ :=
          repeatTo_sound h hne hrun
        have hrest : rest.bytes = [] := by
          rw [← List.length_eq_zero_iff, ← rest.left_eq]
          exact Nat.eq_zero_of_le_zero hend
        rw [hrest, List.append_nil] at hbytes
        rw [List.append_nil, List.reverse_reverse]
        exact ⟨pieces, parts, hpieces, hbytes, rfl⟩
  · intro hgiven
    obtain ⟨pieces, parts, hpieces, rfl, rfl⟩ := hgiven
    have hrun := repeatTo_complete h hne hpieces []
    rw [List.append_nil, List.length_nil] at hrun
    rw [hrun]
    dsimp only
    rw [List.reverse_reverse]

end DetectorHeader.Protobuf
