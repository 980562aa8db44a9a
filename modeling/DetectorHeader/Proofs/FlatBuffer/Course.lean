/-
The course of a verification: what it does, one `Action` after another, told
from the bytes alone. Courses are put together as checks are, and a check does
what the actions of its course do (`Charts`), whatever the usage is with which
it starts. So what a verification has gone through by some moment is a prefix
of its course.

In a course, each table is left that is entered, and there is a bound on how
many are inside of one another (`Balanced`). One action changes the depth and
the tables by what it enters or leaves (`Action.step_eq_ok`). So by induction
over the actions the depth does as the course does (`Balanced.depth_eq` and
`Balanced.depth_le`), and the tables that are counted are those that have been
entered (`run_tables`).
-/
import DetectorHeader.Proofs.FlatBuffer.Verify

namespace DetectorHeader.FlatBuffer

-- ================================================================== actions

/-- What there are limits on. -/
inductive Limit
  | apparentSize | tables | depth
  deriving DecidableEq

namespace Limit

/-- The defect of a buffer that goes over the limit. -/
def defect : Limit → Defect
  | apparentSize => .apparentSize
  | tables => .tables
  | depth => .depth

/-- The greatest number that is within the limit. -/
def greatest : Limit → Nat
  | apparentSize => maxApparentSize
  | tables => maxTables
  | depth => maxDepth

/-- The number that is limited. -/
def of (usage : Usage) : Limit → Nat
  | apparentSize => usage.apparentSize
  | tables => usage.tables
  | depth => usage.depth

/-- Limits are met at no place. -/
theorem behind_fault (l : Limit) (step : Step) :
    Fault.behind step ⟨l.defect, []⟩ = ⟨l.defect, []⟩ := by
  cases l <;> rfl

end Limit

/-- One action of a verification. Three change the usage, two may end it. -/
inductive Action
  /-- Bytes are counted. -/
  | look (bytes : Nat)
  /-- The table at a position is entered. -/
  | enter (position : Nat)
  | leave
  /-- The usage is compared with a limit. -/
  | compare (limit : Limit)
  /-- The bytes are found to be wrong at some place. -/
  | stop (fault : Fault) (h : fault.defect.hasPlace = true)

namespace Action

/-- What an action does. -/
def step (usage : Usage) : Action → Except Fault Usage
  | look bytes =>
      .ok { usage with apparentSize := usage.apparentSize + bytes }
  | enter _ =>
      .ok { usage with depth := usage.depth + 1, tables := usage.tables + 1 }
  | leave => .ok { usage with depth := usage.depth - 1 }
  | compare limit =>
      if limit.greatest < limit.of usage then .error ⟨limit.defect, []⟩
      else .ok usage
  | stop fault _ => .error fault

/-- The action, behind a step. -/
def behind (step : Step) : Action → Action
  | stop fault h => stop (fault.behind step) (by
      unfold Fault.behind
      rwa [if_pos h])
  | action => action

/-- The table that is entered. -/
def entered? : Action → Option Nat
  | enter position => some position
  | _ => none

/-- How many tables deeper the position is afterwards. -/
def net : Action → Int
  | enter _ => 1
  | leave => -1
  | _ => 0

end Action

/-- What actions do, one after another. -/
def run (actions : List Action) (usage : Usage) : Except Fault Usage :=
  actions.foldlM Action.step usage

/-- Actions, as a verification. -/
def perform (actions : List Action) : Verify Unit := fun usage =>
  (run actions usage).map ((), ·)

/-- The positions of the tables that are entered, one for each time. -/
def entered (actions : List Action) : List Nat :=
  actions.filterMap Action.entered?

/-- The tables entered and not left. -/
def net (actions : List Action) : Int := (actions.map Action.net).sum

/-- The actions of a verification at a position. -/
def Course := Buffer → (position : Nat) → List Action

namespace Course

/-- The actions, met behind a step. -/
def behind (step : Step) (actions : List Action) : List Action :=
  actions.map (Action.behind step)

/-- Ends the course if there is a defect. -/
def stopIf (p : Prop) [Decidable p] (defect : Defect)
    (h : defect.hasPlace = true) : List Action :=
  if p then [.stop ⟨defect, []⟩ h] else []

def range (b : Buffer) (position n : Nat) : List Action :=
  stopIf (b.size < position + n) (.range position (position + n)) rfl
    ++ [.look n, .compare .apparentSize]

def aligned (s : Scalar) (position : Nat) : List Action :=
  stopIf (position % s.size ≠ 0) (.unaligned s position) rfl

/-- A scalar. -/
def scalar (s : Scalar) : Course := fun b position =>
  aligned s position ++ range b position s.size

/-- An offset, and what it leads to. -/
def offsetTo (target : Course) : Course := fun b position =>
  scalar .u32 b position ++ target b (position + b.u32 position)

/-- A vector of scalars. -/
def vector (element : Scalar) : Course := fun b position =>
  scalar .u32 b position ++ aligned element (position + 4)
    ++ range b (position + 4) (b.u32 position * element.size)

def elements (target : Nat → List Action) (start size index : Nat) :
    (count : Nat) → List Action
  | 0 => []
  | count + 1 =>
      behind (.element index start) (target start)
        ++ elements target (start + size) size (index + 1) count

/-- A vector of offsets, and what they lead to. -/
def vectorOf (target : Course) : Course := fun b position =>
  vector .u32 b position
    ++ elements (offsetTo target b) (position + 4) 4 0 (b.u32 position)

/-- A string. -/
def string : Course := fun b position =>
  let first := position + 4
  let last := first + b.u32 position
  vector .u8 b position
    ++ (match b.textFault? first (b.u32 position) with
      | some fault => [.stop ⟨.text first last fault, []⟩ rfl]
      | none => [])
    ++ stopIf (b.get? last ≠ some 0) (.terminator first last) rfl

/-- A field of a table, with the course of the check for what is there. -/
structure Field where
  name : String
  slot : Nat
  course : Course

/-- A field, if the table has it. -/
def field (f : Field) (b : Buffer) (position vtable length : Nat) :
    List Action :=
  if f.slot < length then
    let offset := b.u16 (vtable + f.slot)
    scalar .u16 b (vtable + f.slot)
      ++ if offset ≠ 0 then
          behind (.field f.name (position + offset))
            (f.course b (position + offset))
        else []
  else []

/-- What is done inside of the table at a position. -/
def inside (position : Nat) (actions : List Action) : List Action :=
  .enter position :: .compare .depth :: .compare .tables
    :: (actions ++ [.leave])

/-- A table: it is entered when its vtable is known to be there, and left
behind its last field. -/
def table (fields : List Field) : Course := fun b position =>
  let offset := b.i32 position
  let vtable := (position : Int) - offset
  let length := b.u16 vtable.toNat
  scalar .i32 b position
    ++ stopIf (vtable < 0 ∨ (b.size : Int) ≤ vtable)
      (.signedOffset position offset) rfl
    ++ scalar .u16 b vtable.toNat ++ aligned .u16 (vtable.toNat + length)
    ++ range b vtable.toNat length
    ++ inside position
      (fields.flatMap fun f => field f b position vtable.toNat length)

end Course

-- ================================================================== running

/-- A run does the first of its actions, and then the others. -/
theorem run_cons (a : Action) (actions : List Action) (usage : Usage) :
    run (a :: actions) usage = a.step usage >>= run actions :=
  List.foldlM_cons

/-- Two runs after one another are one. -/
theorem run_append (xs ys : List Action) (usage : Usage) :
    run (xs ++ ys) usage = run xs usage >>= run ys :=
  List.foldlM_append

/-- A check that passes has done all of its actions. -/
theorem perform_eq_ok {actions : List Action} {usage usage' : Usage}
    (h : perform actions usage = .ok ((), usage')) :
    run actions usage = .ok usage' := by
  unfold perform at h
  cases hrun : run actions usage with
  | error fault =>
      rw [hrun] at h
      cases h
  | ok after =>
      rw [hrun] at h
      cases h
      rfl

/-- A check that fails does so at one of its actions. -/
theorem perform_eq_error {actions : List Action} {usage : Usage}
    {fault : Fault} (h : perform actions usage = .error fault) :
    run actions usage = .error fault := by
  unfold perform at h
  cases hrun : run actions usage with
  | error fault' =>
      rw [hrun] at h
      cases h
      rfl
  | ok after =>
      rw [hrun] at h
      cases h

/-- Actions are performed one part after the other. -/
theorem perform_append (xs ys : List Action) :
    perform (xs ++ ys) = (do perform xs; perform ys) := by
  funext usage
  show (run (xs ++ ys) usage).map _ = ((run xs usage).map _ >>= _)
  rw [run_append]
  cases run xs usage with
  | error fault => rfl
  | ok between => rfl

/-- Behind a step, the actions are the same, and the faults are met there. -/
theorem perform_behind (step : Step) (actions : List Action) :
    perform (Course.behind step actions)
      = Verify.behind step (perform actions) := by
  -- Only the faults change on the way, so the induction is on the bare run.
  have hrun (usage : Usage) : run (Course.behind step actions) usage
      = (run actions usage).mapError (·.behind step) := by
    induction actions generalizing usage with
    | nil => rfl
    | cons a actions ih =>
        show run (a.behind step :: Course.behind step actions) usage = _
        rw [run_cons, run_cons]
        cases a with
        | look n => exact ih _
        | enter position => exact ih _
        | leave => exact ih _
        | compare limit =>
            show ((if _ then _ else _) >>= _)
              = Except.mapError _ ((if _ then _ else _) >>= _)
            split
            · exact congrArg Except.error (limit.behind_fault step).symm
            · exact ih _
        | stop fault h => rfl
  funext usage
  show (run (Course.behind step actions) usage).map _
    = ((run actions usage).map _).mapError _
  rw [hrun]
  cases run actions usage with
  | error fault => rfl
  | ok usage' => rfl

/-- To stop on a condition is a course of at most one action. -/
theorem perform_stopIf {p : Prop} [Decidable p] {defect : Defect}
    (h : defect.hasPlace = true) :
    perform (Course.stopIf p defect h)
      = if p then Verify.fail defect else pure () := by
  unfold Course.stopIf
  split
  · rfl
  · rfl

/-- And what follows is performed if it does not stop. -/
theorem perform_stopIf_bind {p : Prop} [Decidable p] {defect : Defect}
    (h : defect.hasPlace = true) (v : Verify Unit) :
    (do if p then Verify.fail defect
        v : Verify Unit)
      = (do perform (Course.stopIf p defect h); v) := by
  rw [perform_stopIf]
  split
  · rfl
  · rfl

/-- A range is counted and compared, and has to be inside. -/
theorem perform_range (b : Buffer) (position n : Nat) :
    Verify.range b position n = perform (Course.range b position n) := by
  unfold Verify.range Course.range
  rw [perform_stopIf_bind rfl, perform_append]
  refine congrArg _ (funext fun _ => funext fun usage => ?_)
  show (if maxApparentSize < usage.apparentSize + n then _ else _ : Verify _) _
    = Except.map _ ((if maxApparentSize < usage.apparentSize + n then _
      else _) >>= _)
  split
  · rfl
  · rfl

/-- Alignment is a condition to stop on. -/
theorem perform_aligned (s : Scalar) (position : Nat) :
    Verify.aligned s position = perform (Course.aligned s position) :=
  (perform_stopIf rfl).symm

/-- Entering a table counts it, and compares both counters with their limits. -/
theorem perform_enter (position : Nat) :
    Verify.enter
      = perform [.enter position, .compare .depth, .compare .tables] := by
  funext usage
  show (if maxDepth < usage.depth + 1 then _
      else if maxTables < usage.tables + 1 then _ else _ : Verify Unit) _
    = Except.map _ ((if maxDepth < usage.depth + 1 then _ else _) >>= _)
  split
  · rfl
  · show (if maxTables < usage.tables + 1 then _ else _ : Verify Unit) _
      = Except.map _ ((if maxTables < usage.tables + 1 then _ else _) >>= _)
    split
    · rfl
    · rfl

-- ================================================================== balance

@[simp] theorem net_nil : net [] = 0 := rfl

@[simp] theorem net_cons (a : Action) (actions : List Action) :
    net (a :: actions) = a.net + net actions := by
  simp [net]

@[simp] theorem net_append (xs ys : List Action) :
    net (xs ++ ys) = net xs + net ys := by
  simp [net]

/-- Each table is left that is entered, and never are more than `height`
tables inside of one another. -/
structure Balanced (height : Nat) (actions : List Action) : Prop where
  within : ∀ done, done <+: actions → 0 ≤ net done ∧ net done ≤ height
  settled : net actions = 0

/-- The start of two lists ends in the first one or goes through it. -/
theorem prefix_append_cases {α : Type} {xs ys done : List α}
    (h : done <+: xs ++ ys) :
    done <+: xs ∨ ∃ rest, rest <+: ys ∧ done = xs ++ rest := by
  rcases List.prefix_or_prefix_of_prefix h (List.prefix_append xs ys)
    with hxs | ⟨rest, rfl⟩
  · exact .inl hxs
  · exact .inr ⟨rest, (List.prefix_append_right_inj xs).mp h, rfl⟩

namespace Balanced

variable {height : Nat} {xs ys actions : List Action}

/-- Balanced parts make a balanced whole. -/
theorem append (hx : Balanced height xs) (hy : Balanced height ys) :
    Balanced height (xs ++ ys) where
  within := by
    intro done hdone
    rcases prefix_append_cases hdone with hdone | ⟨rest, hrest, rfl⟩
    · exact hx.within done hdone
    · rw [net_append, hx.settled, zero_add]
      exact hy.within rest hrest
  settled := by
    rw [net_append, hx.settled, hy.settled, add_zero]

/-- Actions that neither enter nor leave a table. -/
theorem of_flat (h : ∀ a ∈ actions, a.net = 0) :
    Balanced height actions := by
  have hnet {done : List Action} (hdone : ∀ a ∈ done, a.net = 0) :
      net done = 0 :=
    List.sum_eq_zero (List.forall_mem_map.mpr hdone)
  refine ⟨fun done hdone => ?_, hnet h⟩
  rw [hnet fun a ha => h a (hdone.subset ha)]
  exact ⟨le_rfl, Int.natCast_nonneg height⟩

/-- To do nothing is balanced. -/
theorem nil : Balanced height [] := of_flat (by simp)

/-- Where a step of the way is noted makes no difference. -/
theorem behind (h : Balanced height actions) (step : Step) :
    Balanced height (Course.behind step actions) := by
  have hnet (done : List Action) :
      net (Course.behind step done) = net done := by
    have haction (a : Action) : (a.behind step).net = a.net := by
      cases a <;> rfl
    unfold net Course.behind
    rw [List.map_map]
    exact congrArg List.sum (List.map_congr_left fun a _ => haction a)
  refine ⟨fun done hdone => ?_, (hnet actions).trans h.settled⟩
  obtain ⟨before, hbefore, rfl⟩ := List.prefix_map_iff.mp hdone
  rw [show net (before.map (Action.behind step)) = net before from hnet before]
  exact h.within before hbefore

/-- Nor does a comparison. -/
theorem compare (limit : Limit) (h : Balanced height actions) :
    Balanced height (.compare limit :: actions) := by
  have hone : Balanced height [.compare limit] := of_flat (by simp [Action.net])
  exact hone.append h

/-- Inside of a table there is one more around. -/
theorem inside (h : Balanced height actions) (position : Nat) :
    Balanced (height + 1) (Course.inside position actions) := by
  have hcontent := (h.compare .tables).compare .depth
  have henter (done : List Action) :
      net (.enter position :: done) = net done + 1 := by
    rw [net_cons]
    exact add_comm _ _
  constructor
  · intro done hdone
    rcases List.prefix_cons_iff.mp hdone with rfl | ⟨rest, rfl, hrest⟩
    · exact ⟨le_rfl, Int.natCast_nonneg _⟩
    · rw [henter]
      rw [← List.cons_append, ← List.cons_append] at hrest
      rcases prefix_append_cases hrest with hrest | ⟨last, hlast, rfl⟩
      · have := hcontent.within rest hrest
        omega
      · rw [net_append, hcontent.settled]
        rcases List.prefix_cons_iff.mp hlast with rfl | ⟨after, rfl, hafter⟩
        · rw [net_nil]
          omega
        · rw [List.prefix_nil.mp hafter]
          show 0 ≤ (0 + (-1) + 1 : Int) ∧ (0 + (-1) + 1 : Int) ≤ _
          omega
  · show net (.enter position :: (_ :: _ :: actions ++ [.leave])) = 0
    rw [henter, net_append, hcontent.settled]
    rfl

end Balanced

-- ==================================================================== usage

/-- The usage is that after the actions `done`, with which the course starts. -/
structure Reaches (course : List Action) (usage : Usage) (done : List Action)
    (usage' : Usage) : Prop where
  starts : done <+: course
  ran : run done usage = .ok usage'

section Usage

variable {usage usage' : Usage} {actions : List Action} {height : Nat}

/-- A comparison fails with the defect of its limit, and counts nothing. -/
theorem Action.step_compare (limit : Limit) (usage : Usage) :
    (compare limit).step usage
      = if limit.greatest < limit.of usage then .error ⟨limit.defect, []⟩
        else .ok usage :=
  rfl

/-- What an action that goes on does to the depth and to the tables. The depth
is not below zero, so that no table is left that has not been entered. -/
theorem Action.step_eq_ok {a : Action} (h : a.step usage = .ok usage') :
    usage'.tables = usage.tables + (entered [a]).length
      ∧ (0 ≤ (usage.depth : Int) + a.net →
        (usage'.depth : Int) = usage.depth + a.net) := by
  cases a with
  | look bytes =>
      cases h
      exact ⟨rfl, fun _ => (add_zero _).symm⟩
  | enter position =>
      cases h
      exact ⟨rfl, fun _ => Int.natCast_succ _⟩
  | leave =>
      cases h
      refine ⟨rfl, fun hdepth => ?_⟩
      show ((usage.depth - 1 : Nat) : Int) = usage.depth + -1
      replace hdepth : 0 ≤ (usage.depth : Int) + -1 := hdepth
      omega
  | compare limit =>
      rw [step_compare] at h
      split at h
      · cases h
      · cases h
        exact ⟨rfl, fun _ => (add_zero _).symm⟩
  | stop fault hplace => cases h

/-- A run that passes has passed its first action. -/
theorem run_cons_eq_ok {a : Action}
    (h : run (a :: actions) usage = .ok usage') :
    ∃ between, a.step usage = .ok between
      ∧ run actions between = .ok usage' := by
  rw [run_cons] at h
  cases ha : a.step usage with
  | error fault =>
      rw [ha] at h
      cases h
  | ok between =>
      rw [ha] at h
      exact ⟨between, rfl, h⟩

/-- The tables that are counted are those that have been entered. -/
theorem run_tables (h : run actions usage = .ok usage') :
    usage'.tables = usage.tables + (entered actions).length := by
  induction actions generalizing usage with
  | nil =>
      cases h
      rfl
  | cons a actions ih =>
      obtain ⟨between, ha, hrest⟩ := run_cons_eq_ok h
      have hcons : entered (a :: actions) = entered [a] ++ entered actions :=
        List.filterMap_append (l := [a])
      rw [ih hrest, (Action.step_eq_ok ha).1, hcons, List.length_append,
        Nat.add_assoc]

/-- The depth is that of the tables entered and not left, as long as no more
are left than there are around. -/
theorem run_depth (hup : ∀ done, done <+: actions →
      0 ≤ (usage.depth : Int) + net done)
    (h : run actions usage = .ok usage') :
    (usage'.depth : Int) = usage.depth + net actions := by
  induction actions generalizing usage with
  | nil =>
      cases h
      exact (add_zero _).symm
  | cons a actions ih =>
      obtain ⟨between, ha, hrest⟩ := run_cons_eq_ok h
      have hfirst : 0 ≤ (usage.depth : Int) + a.net := by
        have := hup [a] (List.prefix_cons_iff.mpr
          (.inr ⟨[], rfl, List.nil_prefix⟩))
        simpa using this
      have hbetween := (Action.step_eq_ok ha).2 hfirst
      have hafter : ∀ done, done <+: actions →
          0 ≤ (between.depth : Int) + net done := by
        intro done hdone
        have := hup (a :: done) (List.cons_prefix_cons.mpr ⟨rfl, hdone⟩)
        rw [net_cons] at this
        omega
      rw [ih hafter hrest, hbetween, net_cons]
      omega

/-- A run that ends at a fault ends at one of its actions. -/
theorem exists_of_run_eq_error {fault : Fault}
    (h : run actions usage = .error fault) :
    ∃ done a between, done ++ [a] <+: actions
      ∧ run done usage = .ok between ∧ a.step between = .error fault := by
  induction actions generalizing usage with
  | nil => cases h
  | cons a actions ih =>
      rw [run_cons] at h
      cases ha : a.step usage with
      -- the first action fails, or the others after it
      | error fault' =>
          rw [ha] at h
          cases h
          exact ⟨[], a, usage, List.prefix_append [a] actions, rfl, ha⟩
      | ok between =>
          rw [ha] at h
          obtain ⟨done, last, before, hdone, hrun, hlast⟩ := ih h
          refine ⟨a :: done, last, before,
            List.cons_prefix_cons.mpr ⟨rfl, hdone⟩, ?_, hlast⟩
          rw [run_cons, ha]
          exact hrun

namespace Balanced

/-- At every moment the depth is what has been entered and not left. -/
theorem depth_at {done : List Action} (h : Balanced height actions)
    (hreach : Reaches actions usage done usage') :
    (usage'.depth : Int) = usage.depth + net done := by
  apply run_depth _ hreach.ran
  intro before hbefore
  have := (h.within before (hbefore.trans hreach.starts)).1
  omega

/-- The depth stays between that at the start and `height` more. -/
theorem depth_le {done : List Action} (h : Balanced height actions)
    (hreach : Reaches actions usage done usage') :
    usage.depth ≤ usage'.depth ∧ usage'.depth ≤ usage.depth + height := by
  have hdepth := h.depth_at hreach
  have hwithin := h.within done hreach.starts
  omega

/-- In the end the depth is that at the start. -/
theorem depth_eq (h : Balanced height actions)
    (hrun : run actions usage = .ok usage') : usage'.depth = usage.depth := by
  have hdepth := h.depth_at ⟨List.prefix_rfl, hrun⟩
  rw [h.settled] at hdepth
  omega

/-- With room for the tables the depth is nothing to fail for. -/
theorem defect_ne_depth {fault : Fault} (h : Balanced height actions)
    (hroom : usage.depth + height ≤ maxDepth)
    (hrun : run actions usage = .error fault) : fault.defect ≠ .depth := by
  obtain ⟨done, a, between, hdone, hbefore, hlast⟩ :=
    exists_of_run_eq_error hrun
  have hdepth := (h.depth_le
    ⟨(List.prefix_append done [a]).trans hdone, hbefore⟩).2
  -- Only one action can fail for its depth, and at that there was room.
  intro hdefect
  cases a with
  | look bytes => cases hlast
  | enter position => cases hlast
  | leave => cases hlast
  | compare limit =>
      rw [Action.step_compare] at hlast
      split at hlast
      case isTrue hover =>
        cases hlast
        cases limit with
        | apparentSize => cases hdefect
        | tables => cases hdefect
        | depth =>
            replace hover : maxDepth < between.depth := hover
            omega
      case isFalse => cases hlast
  | stop fault' hplace =>
      cases hlast
      rw [hdefect] at hplace
      cases hplace

end Balanced

end Usage

-- =================================================================== charts

/-- The check does what the actions of the course do, whatever the usage, and
the course is balanced. -/
structure Charts (height : Nat) (course : Course) (check : Check) :
    Prop where
  performed : ∀ b position, check b position = perform (course b position)
  balanced : ∀ b position, Balanced height (course b position)

namespace Charts

variable {height : Nat} {course : Course} {check : Check}

/-- To stop on a condition enters nothing. -/
theorem balanced_stopIf {p : Prop} [Decidable p] {defect : Defect}
    (h : defect.hasPlace = true) :
    Balanced height (Course.stopIf p defect h) := by
  unfold Course.stopIf
  split
  · exact .of_flat (by simp [Action.net])
  · exact .nil

/-- Nor does a range. -/
theorem balanced_range (b : Buffer) (position n : Nat) :
    Balanced height (Course.range b position n) :=
  (balanced_stopIf rfl).append (.of_flat (by simp [Action.net]))

/-- The check of a scalar performs its course. -/
theorem perform_scalar (s : Scalar) (b : Buffer) (position : Nat) :
    Check.scalar s b position = perform (Course.scalar s b position) := by
  unfold Check.scalar Course.scalar
  rw [perform_append, perform_aligned, perform_range]

/-- The course of a scalar is balanced, and all that its check does. -/
theorem scalar (s : Scalar) :
    Charts height (Course.scalar s) (Check.scalar s) where
  performed := perform_scalar s
  balanced b position :=
    (balanced_stopIf rfl).append (balanced_range b position s.size)

/-- And so is that of an offset, if that of its target is. -/
theorem offsetTo (h : Charts height course check) :
    Charts height (Course.offsetTo course) (Check.offsetTo check) where
  performed b position := by
    unfold Check.offsetTo Course.offsetTo
    rw [perform_append, perform_scalar, h.performed]
  balanced b position :=
    ((scalar .u32).balanced b position).append (h.balanced b _)

/-- The check of a vector performs its course. -/
theorem perform_vector (s : Scalar) (b : Buffer) (position : Nat) :
    Check.vector s b position = perform (Course.vector s b position) := by
  unfold Check.vector Course.vector
  rw [perform_append, perform_append, perform_scalar, perform_aligned,
    perform_range, bind_assoc]

/-- The course of a vector of scalars enters nothing. -/
theorem vector (s : Scalar) :
    Charts height (Course.vector s) (Check.vector s) where
  performed := perform_vector s
  balanced b position :=
    (((scalar .u32).balanced b position).append (balanced_stopIf rfl)).append
      (balanced_range b _ _)

/-- The elements are checked along their courses, one after the other. -/
theorem perform_elements {target : Nat → List Action}
    {check : Nat → Verify Unit}
    (h : ∀ position, check position = perform (target position))
    (size count start index : Nat) :
    Verify.elements check start size index count
      = perform (Course.elements target start size index count) := by
  induction count generalizing start index with
  | zero => rfl
  | succ count ih =>
      unfold Verify.elements Course.elements
      rw [perform_append, perform_behind, ih, h]

/-- Each of them leaves as many tables as it enters. -/
theorem balanced_elements {target : Nat → List Action}
    (h : ∀ position, Balanced height (target position))
    (size count start index : Nat) :
    Balanced height (Course.elements target start size index count) := by
  induction count generalizing start index with
  | zero => exact .nil
  | succ count ih => exact ((h start).behind _).append (ih _ _)

/-- The course of a vector of offsets is balanced with those of its elements. -/
theorem vectorOf (h : Charts height course check) :
    Charts height (Course.vectorOf course) (Check.vectorOf check) where
  performed b position := by
    unfold Check.vectorOf Course.vectorOf
    rw [perform_append, perform_vector,
      perform_elements (h.offsetTo.performed b)]
  balanced b position :=
    ((vector .u32).balanced b position).append
      (balanced_elements (h.offsetTo.balanced b) _ _ _ _)

/-- The course of a string enters nothing. -/
theorem string : Charts height Course.string Check.string where
  performed b position := by
    unfold Check.string Course.string
    dsimp only
    rw [perform_append, perform_append, perform_vector, bind_assoc]
    refine congrArg _ (funext fun _ => ?_)
    cases b.textFault? (position + 4) (b.u32 position) with
    | some fault => rfl
    | none => exact (perform_stopIf rfl).symm
  balanced b position := by
    unfold Course.string
    dsimp only
    refine Balanced.append (Balanced.append ((vector .u8).balanced b position)
      ?_) (balanced_stopIf rfl)
    split
    · exact .of_flat (by simp [Action.net])
    · exact .nil

-- =================================================================== tables

/-- The check of the field does what the course says, and both are found in
the same slot and reported by the same name. -/
structure OfField (height : Nat) (f : Course.Field) (field : Check.Field) :
    Prop where
  name : f.name = field.name
  slot : f.slot = field.slot
  content : Charts height f.course field.check

/-- The check of a field performs its course, which is none if the field is
absent. -/
theorem perform_field {f : Course.Field} {field : Check.Field}
    (h : OfField height f field) (b : Buffer)
    (position vtable length : Nat) :
    Check.field field b position vtable length
      = perform (Course.field f b position vtable length) := by
  unfold Check.field Course.field
  rw [h.name, h.slot]
  split
  · dsimp only
    rw [perform_append, perform_scalar]
    refine congrArg _ (funext fun _ => ?_)
    split
    · rw [perform_behind, h.content.performed]
    · rfl
  · rfl

/-- The course of a field is balanced, absent or not. -/
theorem balanced_field {f : Course.Field} {field : Check.Field}
    (h : OfField height f field) (b : Buffer)
    (position vtable length : Nat) :
    Balanced height (Course.field f b position vtable length) := by
  unfold Course.field
  split
  · refine ((scalar .u16).balanced b _).append ?_
    split
    · exact (h.content.balanced b _).behind _
    · exact .nil
  · exact .nil

/-- The fields of a table are checked along their courses, in order. -/
theorem perform_fields {courses : List Course.Field}
    {fields : List Check.Field}
    (h : List.Forall₂ (OfField height) courses fields) (b : Buffer)
    (position vtable length : Nat) :
    (fields.forM fun f => Check.field f b position vtable length)
      = perform (courses.flatMap fun f =>
          Course.field f b position vtable length) := by
  induction h with
  | nil => rfl
  | cons hfield _ ih =>
      rw [List.flatMap_cons, perform_append, ← ih, ← perform_field hfield]
      rfl

/-- Together they are balanced as well. -/
theorem balanced_fields {courses : List Course.Field}
    {fields : List Check.Field}
    (h : List.Forall₂ (OfField height) courses fields) (b : Buffer)
    (position vtable length : Nat) :
    Balanced height
      (courses.flatMap fun f => Course.field f b position vtable length) := by
  induction h with
  | nil => exact .nil
  | cons hfield _ ih => exact (balanced_field hfield b _ _ _).append ih

/-- What is between entering a table and leaving it is one course. -/
theorem perform_inside (position : Nat) (actions : List Action) :
    (do Verify.enter; perform actions; Verify.leave)
      = perform (Course.inside position actions) := by
  have hinside : Course.inside position actions
      = [Action.enter position, Action.compare .depth, Action.compare .tables]
        ++ (actions ++ [Action.leave]) := rfl
  have hleave : perform [.leave] = Verify.leave := rfl
  rw [hinside, perform_append, perform_append, ← perform_enter, hleave]

/-- A table adds one to the height of its fields. -/
theorem table {courses : List Course.Field} {fields : List Check.Field}
    (h : List.Forall₂ (OfField height) courses fields) :
    Charts (height + 1) (Course.table courses) (Check.table fields) where
  performed b position := by
    unfold Check.table Course.table
    dsimp only
    simp only [perform_append, bind_assoc, ← perform_inside,
      ← perform_fields h, ← perform_range, ← perform_aligned,
      ← perform_scalar]
    exact congrArg (Check.scalar .i32 b position >>= ·)
      (funext fun _ => perform_stopIf_bind rfl _)
  balanced b position := by
    have hoffset : Balanced (height + 1) (Course.scalar .i32 b position) :=
      (scalar .i32).balanced b position
    have hlength (vtable : Nat) :
        Balanced (height + 1) (Course.scalar .u16 b vtable) :=
      (scalar .u16).balanced b vtable
    have hfields := balanced_fields h b position
    exact ((((hoffset.append (balanced_stopIf rfl)).append (hlength _)).append
      (balanced_stopIf rfl)).append (balanced_range b _ _)).append
        ((hfields _ _).inside position)

-- =================================================================== checks

/-- A check that passes has run its course. -/
theorem check_eq_ok (h : Charts height course check) {b : Buffer}
    {position : Nat} {usage usage' : Usage}
    (hcheck : check b position usage = .ok ((), usage')) :
    run (course b position) usage = .ok usage' :=
  perform_eq_ok (by rwa [← h.performed])

/-- And one that fails has failed along it. -/
theorem check_eq_error (h : Charts height course check) {b : Buffer}
    {position : Nat} {usage : Usage} {fault : Fault}
    (hcheck : check b position usage = .error fault) :
    run (course b position) usage = .error fault :=
  perform_eq_error (by rwa [← h.performed])

end Charts

end DetectorHeader.FlatBuffer
