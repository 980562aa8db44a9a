/-
Reading in two steps: first the places of the parts, then what is there.

`Through R read read'` says that where `read'` gives a value, `read` gives one
that stands to it in `R`. With `Read.place` for `read` and what the reader
would give for the place as `R`, it says that the one reader is the other with
places for its parts, and reading what is at a place is left for later.
-/
import DetectorHeader.Proofs.FlatBuffer.Spelling

namespace DetectorHeader.FlatBuffer

/-- Optional values that stand to each other in `R` do so in what follows from
it. -/
theorem rel_imp {α β : Type} {R S : α → β → Prop}
    (h : ∀ a c, R a c → S a c) {a : Option α} {c : Option β}
    (hR : Option.Rel R a c) : Option.Rel S a c := by
  cases hR with
  | none => exact .none
  | some hR => exact .some (h _ _ hR)

/-- Where `read'` gives a value, `read` gives one that stands to it in `R`. -/
def Through {α β : Type} (b : Buffer) (R : α → β → Prop) (read : Read α)
    (read' : Read β) : Prop :=
  ∀ position c, read' b position = some c →
    ∃ a, read b position = some a ∧ R a c

namespace Through

variable {α β : Type} {b : Buffer} {R : α → β → Prop} {read : Read α}
  {read' : Read β}

/-- A place stands for what is read at it. -/
theorem place (b : Buffer) (read' : Read β) :
    Through b (fun position c => read' b position = some c) .place read' :=
  fun position _ h => ⟨position, rfl, h⟩

/-- An offset leads to the place of what is read behind it. -/
theorem offsetTo (h : Through b R read read') :
    Through b R (Read.offsetTo read) (Read.offsetTo read') := by
  intro position c hc
  obtain ⟨n, hnumber, htarget⟩ := Option.bind_eq_some_iff.mp hc
  obtain ⟨a, ha, hR⟩ := h _ c htarget
  exact ⟨a, Option.bind_eq_some_iff.mpr ⟨n, hnumber, ha⟩, hR⟩

/-- Elements are at the places that are read in their stead. -/
theorem elements {size : Nat} (h : Through b R read read') :
    Through b (List.Forall₂ R) (Read.elements size read)
      (Read.elements size read') := by
  intro position cs hcs
  obtain ⟨n, hnumber, hitems⟩ := Option.bind_eq_some_iff.mp hcs
  suffices hlist : ∀ items : List Nat,
      items.mapM (fun i => read' b (position + 4 + i * size)) = some cs →
      ∃ as, items.mapM (fun i => read b (position + 4 + i * size)) = some as
        ∧ List.Forall₂ R as cs by
    obtain ⟨as, has, hR⟩ := hlist _ hitems
    exact ⟨as, Option.bind_eq_some_iff.mpr ⟨n, hnumber, has⟩, hR⟩
  clear hcs hitems
  intro items hitems
  rw [mapM_eq_some_iff] at hitems
  simp only [mapM_eq_some_iff]
  induction hitems with
  | nil => exact ⟨[], .nil, .nil⟩
  | cons hc _ ih =>
      obtain ⟨a, ha, hR⟩ := h _ _ hc
      obtain ⟨as, has, hRs⟩ := ih
      exact ⟨a :: as, .cons ha has, .cons hR hRs⟩

/-- So are the elements of a vector. -/
theorem vectorOf (h : Through b R read read') :
    Through b (List.Forall₂ R) (Read.vectorOf read) (Read.vectorOf read') :=
  h.offsetTo.elements

/-- A field of which the whole is read has a place to be read. -/
theorem field? (h : Through b R read read') {t : Read.Table} {slot : Nat}
    {c : Option β} (hc : Read.field? b t slot read' = some c) :
    ∃ a, Read.field? b t slot read = some a ∧ Option.Rel R a c := by
  unfold Read.field? at hc ⊢
  by_cases hslot : slot + 2 ≤ t.length
  · rw [if_pos hslot] at hc ⊢
    obtain ⟨n, hnumber, hcontent⟩ := Option.bind_eq_some_iff.mp hc
    simp only [hnumber, Option.bind_eq_bind, Option.bind_some]
    by_cases hzero : n = 0
    · rw [if_pos hzero] at hcontent ⊢
      cases hcontent
      exact ⟨none, rfl, .none⟩
    · rw [if_neg hzero] at hcontent ⊢
      obtain ⟨c, hread, rfl⟩ := Option.map_eq_some_iff.mp hcontent
      obtain ⟨a, ha, hR⟩ := h _ c hread
      exact ⟨some a, by rw [ha]; rfl, .some hR⟩
  · rw [if_neg hslot] at hc ⊢
    cases hc
    exact ⟨none, rfl, .none⟩

end Through

end DetectorHeader.FlatBuffer
