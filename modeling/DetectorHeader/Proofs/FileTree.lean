/-
Writing to a tree of files (`write_eq_ok_iff`, `exists_of_write`).

A write replaces what is at one location, the target of the path, and nothing
else. The target is no directory, so every directory stays where it is
(`KeepsDirectories`), and a path that leads through directories leads the same
way after the write as before (`Targets.of_keeps`). That is why the path of the
write then leads to the file that was written, however it is spelled
(`replaced_of_write`), why another write to it takes the place of the first
(`write_write`), and why a path that leads elsewhere is read as before
(`read_of_write`).

What is done to the tree around a run keeps to it in the same way: directories
are added where nothing was (`AddsDirectories`), what is removed is gone alone
(`find?_of_remove?`), and of what a write has left one file is reported as
changed at most (`changedSince_of_replaced`).
-/
import DetectorHeader.FileTree
import Mathlib

namespace DetectorHeader.FileTree

-- ================================================================== entries

/-- Leaving entries out by their locations leaves the others what they are. -/
private theorem lookup_filter (entries : List (Location × Entry))
    (p : Location → Bool) (l : Location) :
    (entries.filter fun e => p e.1).lookup l
      = if p l then entries.lookup l else none := by
  induction entries with
  | nil => simp
  | cons e entries ih =>
      obtain ⟨k, entry⟩ := e
      rw [List.filter_cons, List.lookup_cons]
      by_cases hk : l = k
      · subst hk
        cases hp : p l with
        | true => simp
        | false => simp [ih, hp]
      · cases hp : p k with
        | true => simp [List.lookup_cons, beq_false_of_ne hk, ih]
        | false => simp [beq_false_of_ne hk, ih]

/-- What is inserted is there, unless the location is that of a directory
that is there without being made. -/
theorem find?_insert_self (tree : FileTree) {l : Location} (entry : Entry)
    (h : tree.isGiven l = false) :
    (tree.insert l entry).find? l = some entry := by
  unfold find?
  rw [show (tree.insert l entry).isGiven l = false from h]
  unfold insert
  rw [if_neg Bool.false_ne_true, List.lookup_cons, beq_self_eq_true]

/-- Everything else stays as it is. -/
theorem find?_insert_of_ne (tree : FileTree) {l l' : Location} (entry : Entry)
    (h : l' ≠ l) : (tree.insert l entry).find? l' = tree.find? l' := by
  unfold find? insert
  show (if tree.isGiven l' then _ else _) = _
  congr 1
  dsimp only
  rw [List.lookup_cons, beq_false_of_ne h]
  refine (lookup_filter tree.entries (fun k => k ≠ l) l').trans ?_
  exact if_pos (decide_eq_true h)

/-- The later of two entries at a location is the one that is there. -/
theorem insert_insert (tree : FileTree) (l : Location) (a b : Entry) :
    (tree.insert l a).insert l b = tree.insert l b := by
  unfold insert
  congr 2
  dsimp only
  rw [List.filter_cons, if_neg (by simp), List.filter_filter]
  simp

-- ================================================================ following

/-- All directories of one tree are directories of the other, and paths start
in the same one. -/
structure KeepsDirectories (tree after : FileTree) : Prop where
  home : after.home = tree.home
  directory (l) (h : tree.find? l = some .directory) :
    after.find? l = some .directory

/-- Paths start at the same place. -/
theorem KeepsDirectories.start {tree after : FileTree}
    (h : KeepsDirectories tree after) (path : String) :
    after.start path = tree.start path := by
  unfold FileTree.start
  rw [h.home]

/-- A step is taken in a directory. -/
theorem directory_of_step {tree : FileTree} {l l' : Location}
    {segment : String} (h : tree.step l segment = .ok l') :
    tree.find? l = some .directory := by
  unfold step at h
  by_contra hl
  rw [if_pos hl] at h
  cases h

/-- A step stays possible where the directory it is taken in is kept, and
what it leads to is still there. -/
theorem step_eq_of_some {tree after : FileTree} {l l' : Location}
    {segment : String} (h : tree.step l segment = .ok l')
    (hl : after.find? l = some .directory)
    (hl' : (after.find? l').isSome) : after.step l segment = .ok l' := by
  have hdirectory := directory_of_step h
  unfold step at h ⊢
  rw [if_neg (not_not.mpr hdirectory)] at h
  rw [if_neg (not_not.mpr hl)]
  by_cases hdot : segment = "."
  · rw [if_pos hdot] at h ⊢
    exact h
  rw [if_neg hdot] at h ⊢
  by_cases hup : segment = ".."
  · rw [if_pos hup] at h ⊢
    exact h
  rw [if_neg hup] at h ⊢
  by_cases hlong : maxName < segment.utf8ByteSize
  · rw [if_pos hlong] at h
    cases h
  rw [if_neg hlong] at h ⊢
  by_cases hnone : (tree.find? (l ++ [segment])).isNone = true
  · rw [if_pos hnone] at h
    cases h
  rw [if_neg hnone] at h
  cases h
  rw [if_neg]
  rw [Option.isNone_eq_false_iff.mpr hl']
  exact Bool.false_ne_true

/-- A way is the same where directories are kept and what is at its end is
still there. -/
theorem foldlM_step_of_keeps {tree after : FileTree}
    (hkeeps : KeepsDirectories tree after) {segments : List String}
    {l l' : Location} (h : segments.foldlM tree.step l = .ok l')
    (hl' : (after.find? l').isSome) :
    segments.foldlM after.step l = .ok l' := by
  induction segments generalizing l with
  | nil => exact h
  | cons segment segments ih =>
      rw [List.foldlM_cons] at h ⊢
      cases hstep : tree.step l segment with
      | error fault =>
          rw [hstep] at h
          cases h
      | ok next =>
          rw [hstep] at h
          -- All on the way are directories, which are kept, and the end is
          -- there still.
          have hnext : (after.find? next).isSome := by
            cases segments with
            | nil =>
                cases h
                exact hl'
            | cons segment' segments =>
                change (segment' :: segments).foldlM tree.step next = _ at h
                rw [List.foldlM_cons] at h
                cases hstep' : tree.step next segment' with
                | error fault =>
                    rw [hstep'] at h
                    cases h
                | ok next' =>
                    rw [hkeeps.directory next (directory_of_step hstep')]
                    rfl
          have hafter : after.step l segment = .ok next :=
            step_eq_of_some hstep
              (hkeeps.directory l (directory_of_step hstep)) hnext
          rw [hafter]
          exact ih h

private theorem ok_bind {ε α β : Type} (a : α) (f : α → Except ε β) :
    (Except.ok a >>= f) = f a := rfl

/-- What comes after a check is done if the check passes. -/
private theorem check_eq_ok {ε α : Type} {c : Prop} [Decidable c] {e : ε}
    {rest : PUnit → Except ε α} {a : α}
    (h : (if c then throw e >>= rest else rest ⟨⟩) = .ok a) :
    ¬ c ∧ rest ⟨⟩ = .ok a := by
  by_cases hc : c
  · rw [if_pos hc] at h
    cases h
  · rw [if_neg hc] at h
    exact ⟨hc, h⟩

/-- A path leads the same way where directories are kept and what it leads to
is still there. -/
theorem locate_of_keeps {tree after : FileTree}
    (hkeeps : KeepsDirectories tree after) {path : String} {l : Location}
    (h : tree.locate path = .ok l) (hl : (after.find? l).isSome) :
    after.locate path = .ok l := by
  unfold locate at h ⊢
  cases hfault : pathFault? path with
  | some fault =>
      rw [hfault] at h
      cases h
  | none =>
      simp only [hfault] at h ⊢
      cases hway : (steps path).foldlM tree.step (tree.start path) with
      | error fault =>
          rw [hway] at h
          cases h
      | ok found =>
          rw [hway, ok_bind] at h
          obtain ⟨hslash, h⟩ := check_eq_ok h
          cases h
          rw [hkeeps.start, foldlM_step_of_keeps hkeeps hway hl, ok_bind,
            if_neg]
          · rfl
          · intro hslash'
            rw [Bool.and_eq_true, decide_eq_true_eq] at hslash hslash'
            obtain ⟨hends, hnone⟩ := hslash'
            exact hslash ⟨hends, fun hdir => hnone (hkeeps.directory _ hdir)⟩

-- ================================================================== targets

/-- The path can be written to: it leads through directories to a last segment
that is a name, and what has that name is no directory. -/
structure Targets (tree : FileTree) (path : String) (before : List String)
    (name : String) (around : Location) : Prop where
  valid : pathFault? path = none
  steps : FileTree.steps path = before ++ [name]
  way : before.foldlM tree.step (tree.start path) = .ok around
  directory : tree.find? around = some .directory
  notHere : name ≠ "."
  notUp : name ≠ ".."
  noSlash : Path.endsInSlash path = false
  short : name.utf8ByteSize ≤ maxName
  free : tree.find? (around ++ [name]) ≠ some .directory

/-- A path with a target can be written to. -/
theorem exists_of_target {tree : FileTree} {path : String} {l : Location}
    (h : tree.target path = .ok l) :
    ∃ before name around, tree.Targets path before name around
      ∧ l = around ++ [name] := by
  unfold target at h
  cases hfault : pathFault? path with
  | some fault =>
      rw [hfault] at h
      cases h
  | none =>
      simp only [hfault] at h
      cases hsteps : (steps path).reverse with
      | nil =>
          rw [hsteps] at h
          cases h
      | cons name before =>
          rw [hsteps] at h
          dsimp only at h
          cases haround : before.reverse.foldlM tree.step (tree.start path) with
          | error fault =>
              rw [haround] at h
              cases h
          | ok around =>
              -- The checks of `target` are the fields of `Targets`.
              rw [haround, ok_bind] at h
              obtain ⟨hdirectory, h⟩ := check_eq_ok h
              obtain ⟨hname, h⟩ := check_eq_ok h
              obtain ⟨hlong, h⟩ := check_eq_ok h
              obtain ⟨hfree, h⟩ := check_eq_ok h
              cases h
              rw [Bool.or_eq_true, Bool.or_eq_true, decide_eq_true_eq,
                decide_eq_true_eq, not_or, not_or] at hname
              exact ⟨before.reverse, name, around, {
                valid := hfault
                steps := List.reverse_eq_cons_iff.mp hsteps
                way := haround
                directory := not_not.mp hdirectory
                notHere := hname.1.1
                notUp := hname.1.2
                noSlash := Bool.eq_false_iff.mpr hname.2
                short := Nat.le_of_not_lt hlong
                free := hfree }, rfl⟩

namespace Targets

variable {tree after : FileTree} {path name : String} {before : List String}
  {around : Location}

/-- And a path that can be written to has a target. -/
theorem target_eq (h : tree.Targets path before name around) :
    tree.target path = .ok (around ++ [name]) := by
  have hname : ¬ (decide (name = ".") || decide (name = "..")
      || Path.endsInSlash path) = true := by
    simp [h.notHere, h.notUp, h.noSlash]
  unfold target
  simp only [h.valid, h.steps, List.reverse_append, List.reverse_singleton,
    List.singleton_append, List.reverse_reverse]
  rw [h.way, ok_bind, if_neg (not_not.mpr h.directory), if_neg hname,
    if_neg (Nat.not_lt_of_le h.short), if_neg h.free]
  rfl

/-- What is at the location can be found by the path. -/
theorem locate_eq (h : tree.Targets path before name around)
    (hthere : (tree.find? (around ++ [name])).isSome) :
    tree.locate path = .ok (around ++ [name]) := by
  have hlast : tree.step around name = .ok (around ++ [name]) := by
    unfold step
    rw [if_neg (not_not.mpr h.directory), if_neg h.notHere, if_neg h.notUp,
      if_neg (Nat.not_lt_of_le h.short), if_neg]
    rw [Option.isNone_eq_false_iff.mpr hthere]
    exact Bool.false_ne_true
  unfold locate
  simp only [h.valid, h.steps, List.foldlM_append, List.foldlM_cons,
    List.foldlM_nil]
  rw [h.way, ok_bind, hlast, ok_bind, h.noSlash]
  rfl

/-- The path leads to the same place where directories are kept. -/
theorem of_keeps (h : tree.Targets path before name around)
    (hkeeps : KeepsDirectories tree after)
    (hfree : after.find? (around ++ [name]) ≠ some .directory) :
    after.Targets path before name around where
  valid := h.valid
  steps := h.steps
  way := by
    rw [hkeeps.start]
    refine foldlM_step_of_keeps hkeeps h.way ?_
    rw [hkeeps.directory around h.directory]
    rfl
  directory := hkeeps.directory around h.directory
  notHere := h.notHere
  notUp := h.notUp
  noSlash := h.noSlash
  short := h.short
  free := hfree

end Targets

-- =================================================================== writing

/-- A write puts the contents in the file at the target of the path. -/
theorem write_eq_ok_iff {tree after : FileTree} {path : String}
    {contents : Bytes} :
    tree.write path contents = .ok after
      ↔ ∃ l, tree.target path = .ok l
        ∧ after = tree.insert l (.file contents) := by
  unfold write
  cases tree.target path with
  | error fault => simp [bind, Except.bind]
  | ok l => simp [bind, Except.bind, pure, Except.pure, eq_comm]

/-- What is no directory is none of those that are there without being made. -/
theorem isGiven_eq_false_of_find? {tree : FileTree} {l : Location}
    (h : tree.find? l ≠ some .directory) : tree.isGiven l = false := by
  unfold find? at h
  by_contra hgiven
  rw [if_pos (Bool.eq_true_of_not_eq_false hgiven)] at h
  exact h rfl

/-- An entry that is not put over a directory keeps all of them. -/
theorem keepsDirectories_insert {tree : FileTree} {l : Location}
    (h : tree.find? l ≠ some .directory) (entry : Entry) :
    KeepsDirectories tree (tree.insert l entry) where
  home := rfl
  directory l' hl' := by
    have hne : l' ≠ l := fun heq => h (heq ▸ hl')
    rw [find?_insert_of_ne tree entry hne]
    exact hl'

/-- A write puts a file where the path can be written to, and keeps all
directories. -/
theorem exists_of_write {tree after : FileTree} {path : String}
    {contents : Bytes} (h : tree.write path contents = .ok after) :
    ∃ before name around, tree.Targets path before name around
      ∧ after.Targets path before name around
      ∧ KeepsDirectories tree after
      ∧ after = tree.insert (around ++ [name]) (.file contents)
      ∧ after.find? (around ++ [name]) = some (.file contents) := by
  obtain ⟨l, htarget, rfl⟩ := write_eq_ok_iff.mp h
  obtain ⟨before, name, around, htargets, rfl⟩ := exists_of_target htarget
  have hkeeps := keepsDirectories_insert htargets.free (.file contents)
  have hfile := find?_insert_self tree (.file contents)
    (isGiven_eq_false_of_find? htargets.free)
  refine ⟨before, name, around, htargets, htargets.of_keeps hkeeps ?_, hkeeps,
    rfl, hfile⟩
  rw [hfile]
  simp

/-- Of two writes to a path the later one counts. -/
theorem write_write {tree before : FileTree} {path : String}
    {contents : Bytes} (h : tree.write path contents = .ok before)
    (contents' : Bytes) :
    before.write path contents' = tree.write path contents' := by
  obtain ⟨_, _, _, hfirst, hsecond, -, hinsert, -⟩ := exists_of_write h
  unfold write
  rw [hfirst.target_eq, hsecond.target_eq, ok_bind, ok_bind, hinsert,
    insert_insert]

/-- A write changes no file that a path leads to, other than its target. -/
theorem read_of_write {tree after : FileTree} {path other : String}
    {contents bytes : Bytes} (h : tree.write path contents = .ok after)
    (hread : tree.read other = .ok bytes)
    (hne : ∀ l, tree.locate other = .ok l → tree.target path ≠ .ok l) :
    after.read other = .ok bytes := by
  obtain ⟨before, name, around, htargets, -, hkeeps, rfl, -⟩ :=
    exists_of_write h
  unfold read at hread ⊢
  cases hlocate : tree.locate other with
  | error fault =>
      rw [hlocate] at hread
      cases hread
  | ok l' =>
      rw [hlocate, ok_bind] at hread
      have hl' : l' ≠ around ++ [name] :=
        fun heq => hne l' hlocate (heq ▸ htargets.target_eq)
      have hsame := find?_insert_of_ne tree (.file contents) hl'
      have hthere : (tree.find? l').isSome := by
        cases hfind : tree.find? l' with
        | none =>
            rw [hfind] at hread
            cases hread
        | some entry => rfl
      rw [locate_of_keeps hkeeps hlocate (by rw [hsame]; exact hthere),
        ok_bind, hsame]
      exact hread

/-- `after` is `tree` with the given contents in the file that the path names,
and with everything else as it was. -/
def Replaced (tree after : FileTree) (path : String) (contents : Bytes) :
    Prop :=
  after.home = tree.home
    ∧ ∃ l, after.locate path = .ok l
      ∧ after.find? l = some (.file contents)
      ∧ ∀ l', l' ≠ l → after.find? l' = tree.find? l'

/-- A write does what it is asked to and nothing else. -/
theorem replaced_of_write {tree after : FileTree} {path : String}
    {contents : Bytes} (h : tree.write path contents = .ok after) :
    Replaced tree after path contents := by
  obtain ⟨before, name, around, -, hafter, -, rfl, hfile⟩ := exists_of_write h
  exact ⟨rfl, around ++ [name], hafter.locate_eq (by rw [hfile]; rfl), hfile,
    fun l' hne => find?_insert_of_ne tree _ hne⟩

-- ========================================================= around the program

/-- `made` is `tree` with directories in some of the places where nothing
was. -/
structure AddsDirectories (tree made : FileTree) : Prop where
  home : made.home = tree.home
  places (l : Location) : made.find? l = tree.find? l
    ∨ tree.find? l = none ∧ made.find? l = some .directory

/-- Directories may be added in two goes. -/
theorem AddsDirectories.trans {a b c : FileTree} (h : AddsDirectories a b)
    (h' : AddsDirectories b c) : AddsDirectories a c where
  home := h'.home.trans h.home
  places l := by
    rcases h'.places l with hsame | ⟨hnone, hmade⟩
    · rw [hsame]
      exact h.places l
    · rcases h.places l with hsame | ⟨-, hmade'⟩
      · exact .inr ⟨hsame ▸ hnone, hmade⟩
      · rw [hnone] at hmade'
        cases hmade'

/-- A directory is added where nothing is. -/
theorem addsDirectories_insert {tree : FileTree} {l : Location}
    (h : tree.find? l = none) :
    AddsDirectories tree (tree.insert l .directory) where
  home := rfl
  places l' := by
    by_cases hl : l' = l
    · subst hl
      refine .inr ⟨h, find?_insert_self tree .directory ?_⟩
      exact isGiven_eq_false_of_find? (by rw [h]; nofun)
    · exact .inl (find?_insert_of_ne tree .directory hl)

/-- Making directories adds directories, and does nothing else. -/
theorem addsDirectories_makeDirectories (tree : FileTree) (l : Location)
    (names : List String) :
    AddsDirectories tree (tree.makeDirectories l names) := by
  have hrefl (tree : FileTree) : AddsDirectories tree tree :=
    ⟨rfl, fun _ => .inl rfl⟩
  fun_induction makeDirectories tree l names with
  | case1 tree l => exact hrefl tree
  | case2 tree l rest ih => exact ih
  | case3 tree l rest ih => exact ih
  | case4 tree l name rest hdot hup contents hfile => exact hrefl tree
  | case5 tree l name rest hdot hup hthere ih => exact ih
  | case6 tree l name rest hdot hup hnone ih =>
      exact (addsDirectories_insert hnone).trans ih

/-- A file that is placed at a path is there, and directories may have been
added around it. -/
theorem exists_of_place {tree after : FileTree} {path : String}
    {contents : Bytes} (h : tree.place path contents = .ok after) :
    ∃ made, AddsDirectories tree made ∧ made.Replaced after path contents :=
  ⟨_, addsDirectories_makeDirectories _ _ _, replaced_of_write h⟩

/-- What is removed at a path is gone with everything below, and everything
else is as it was. -/
theorem find?_of_remove? {tree after : FileTree} {path : String}
    (h : tree.remove? path = some after) :
    ∃ l, tree.locate path = .ok l ∧ ∀ l', after.find? l'
      = if l <+: l' then none else tree.find? l' := by
  unfold remove? at h
  cases hlocate : tree.locate path with
  | error fault =>
      rw [hlocate] at h
      cases h
  | ok l =>
      rw [hlocate] at h
      dsimp only at h
      by_cases hgiven : tree.isGiven l = true
      · rw [if_pos hgiven] at h
        cases h
      · rw [if_neg hgiven] at h
        cases h
        refine ⟨l, rfl, fun l' => ?_⟩
        have hfilter := lookup_filter tree.entries (!l.isPrefixOf ·) l'
        unfold find?
        show (if tree.isGiven l' then _ else _) = _
        by_cases hl : l <+: l'
        · -- what is given is around the working directory, and `l` is not
          have hfree : ¬ tree.isGiven l' = true := fun h => hgiven
            (List.isPrefixOf_iff_prefix.mpr
              (hl.trans (List.isPrefixOf_iff_prefix.mp h)))
          rw [if_neg hfree, if_pos hl]
          refine hfilter.trans (if_neg ?_)
          rw [List.isPrefixOf_iff_prefix.mpr hl]
          exact Bool.false_ne_true
        · rw [if_neg hl]
          congr 1
          refine hfilter.trans (if_pos ?_)
          rw [Bool.not_eq_true', Bool.eq_false_iff]
          exact fun h => hl (List.isPrefixOf_iff_prefix.mp h)

/-- An entry of the tree is the one that is at its location. -/
theorem mem_entries_iff {tree : FileTree} {l : Location} {entry : Entry} :
    (l, entry) ∈ tree.entries ↔ tree.entries.lookup l = some entry := by
  rw [List.lookup_eq_some_iff]
  constructor
  · intro h
    obtain ⟨before, after, hentries⟩ := List.append_of_mem h
    have hunique := tree.unique
    rw [hentries, List.map_append, List.nodup_append] at hunique
    refine ⟨before, after, hentries, fun e he => bne_iff_ne.mpr fun heq => ?_⟩
    exact hunique.2.2 e.1 (List.mem_map_of_mem he) l (by simp) heq.symm
  · rintro ⟨before, after, hentries, -⟩
    rw [hentries]
    exact List.mem_append_right _ List.mem_cons_self

/-- Below the working directory nothing is there without being made. -/
theorem find?_of_isBelow {tree : FileTree} {l : Location}
    (h : tree.isBelow l = true) : tree.find? l = tree.entries.lookup l := by
  unfold isBelow at h
  rw [Bool.and_eq_true, List.isPrefixOf_iff_prefix, decide_eq_true_eq] at h
  have hfree : ¬ tree.isGiven l = true := by
    intro hgiven
    have haround := List.isPrefixOf_iff_prefix.mp hgiven
    exact h.2 (haround.eq_of_length (h.1.length_le.antisymm'
      haround.length_le))
  unfold find?
  rw [if_neg hfree]

/-- A file is reported as changed if it is below the working directory and was
not there before as it is. -/
theorem mem_changedSince_iff {tree before : FileTree} {path : String}
    {contents : Bytes} :
    (path, contents) ∈ tree.changedSince before
      ↔ ∃ l, tree.isBelow l = true ∧ path = tree.pathOf l
        ∧ tree.find? l = some (.file contents)
        ∧ before.find? l ≠ some (.file contents) := by
  unfold changedSince
  rw [List.mem_filterMap]
  constructor
  · rintro ⟨⟨l, entry⟩, hentry, h⟩
    cases entry with
    | directory => cases h
    | file contents' =>
        dsimp only at h
        split at h
        · rename_i hchanged
          cases h
          rw [Bool.and_eq_true, decide_eq_true_eq] at hchanged
          refine ⟨l, hchanged.1, rfl, ?_, hchanged.2⟩
          rw [find?_of_isBelow hchanged.1]
          exact mem_entries_iff.mp hentry
        · cases h
  · rintro ⟨l, hbelow, rfl, hthere, hbefore⟩
    rw [find?_of_isBelow hbelow] at hthere
    refine ⟨(l, .file contents), mem_entries_iff.mpr hthere, ?_⟩
    exact if_pos (by rw [hbelow, decide_eq_true hbefore]; rfl)

/-- After a write only the file that was written is reported as changed. -/
theorem changedSince_of_replaced {tree after : FileTree} {path : String}
    {contents : Bytes} (h : tree.Replaced after path contents) :
    ∃ l, after.locate path = .ok l
      ∧ ∀ changed ∈ after.changedSince tree,
        changed = (after.pathOf l, contents) := by
  obtain ⟨-, l, hl, hfile, hothers⟩ := h
  refine ⟨l, hl, fun changed hchanged => ?_⟩
  obtain ⟨l', -, hpath, hthere, hbefore⟩ := mem_changedSince_iff.mp hchanged
  by_cases hsame : l' = l
  · subst hsame
    cases hfile.symm.trans hthere
    exact Prod.ext hpath rfl
  · rw [← hothers l' hsame] at hbefore
    exact absurd hthere hbefore

end DetectorHeader.FileTree
