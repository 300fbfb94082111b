import Mathlib.Order.Monotone.Basic
import PatternMachine.Proofs.Growth
import PatternMachine.Search.BackReference

/-!
# Padded stacks

One stack pads another if it has the same frames and, between them, others that are idle: choices
that lead nowhere, and what is left of frames that were given up (`Stack.Pads`).  Frames refer to
each other by their indices, so the frames that both have are the same but for their references.
Nothing that looks down from the top notices the difference.
-/

namespace PatternMachine

/-! ### Changing references -/

section

variable (place : Nat → Nat)

/-- A bound with the reference that it may hold changed. -/
def Bound.renumber : Bound → Bound
  | .inFrame index => .inFrame (place index)
  | other => other

/-- A pair of bounds with its references changed. -/
def Bounds.renumber (bounds : Bounds) : Bounds :=
  ⟨bounds.start.renumber place, bounds.stop.renumber place⟩

/-- A frame with its references changed. -/
def Frame.renumber : Frame → Frame
  | .groupStart group position saved => .groupStart group position (saved.renumber place)
  | .groupEnd group position saved => .groupEnd group position (saved.renumber place)
  | .repeatEntry id count body outer savedCount =>
      .repeatEntry id count body (outer.map place) savedCount
  | .entryCount index savedCount => .entryCount (place index) savedCount
  | other => other

end

variable {place : Nat → Nat}

/-- Whether bounds refer to no frame from an index on. -/
def Bounds.Below (limit : Nat) (bounds : Bounds) : Prop :=
  ∀ index, bounds.start = .inFrame index ∨ bounds.stop = .inFrame index → index < limit

/-- References change in the same way if the frames referred to do. -/
theorem Bounds.renumber_congr {place' : Nat → Nat} {limit : Nat} {bounds : Bounds}
    (below : bounds.Below limit) (same : ∀ index < limit, place' index = place index) :
    bounds.renumber place' = bounds.renumber place := by
  have eachSame : ∀ bound : Bound, (∀ index, bound = .inFrame index → index < limit) →
      bound.renumber place' = bound.renumber place := by
    intro bound inside
    cases bound with
    | inFrame index => exact congrArg Bound.inFrame (same index (inside index rfl))
    | _ => rfl
  rw [renumber, renumber, eachSame _ fun index isIndex => below index (.inl isIndex),
    eachSame _ fun index isIndex => below index (.inr isIndex)]

namespace Frame

@[simp] theorem isMark_renumber (frame : Frame) (mark : Mark) :
    (frame.renumber place).isMark mark = frame.isMark mark := by
  cases frame <;> rfl

@[simp] theorem resume?_renumber (frame : Frame) : (frame.renumber place).resume? = frame.resume? := by
  cases frame <;> rfl

@[simp] theorem position?_renumber (frame : Frame) :
    (frame.renumber place).position? = frame.position? := by
  cases frame <;> rfl

theorem savedBounds?_renumber (frame : Frame) (group : Nat) :
    (frame.renumber place).savedBounds? group =
      (frame.savedBounds? group).map (Bounds.renumber place) := by
  cases frame with
  | groupStart number position saved | groupEnd number position saved =>
      rw [renumber, savedBounds?, savedBounds?]
      split <;> rfl
  | _ => rfl

theorem renumber_withCount (frame : Frame) (count : Nat) :
    (frame.withCount count).renumber place = (frame.renumber place).withCount count := by
  cases frame <;> rfl

theorem renumber_settle (frame : Frame) :
    (Stack.settle frame).renumber place = Stack.settle (frame.renumber place) := by
  cases frame <;> rfl

/-- A choice that leads nowhere, or a frame that was given up. -/
inductive Idle (barren : Point → Bool) : Frame → Prop
  | void : Idle barren .void
  | choice {point : Point} (leadsNowhere : barren point = true) : Idle barren (.choice point)

namespace Idle

variable {barren : Point → Bool} {frame : Frame} (idle : frame.Idle barren)

include idle

theorem isMark_eq_false (mark : Mark) : frame.isMark mark = false := by
  cases idle <;> rfl

theorem settle : (Stack.settle frame).Idle barren := by
  cases idle <;> exact .void

theorem savedBounds?_eq_none (group : Nat) : frame.savedBounds? group = none := by
  cases idle <;> rfl

end Idle

end Frame

/-! ### Stacks -/

namespace Stack

/-- Where frames lie when one more has been put on top of another stack. -/
def raise (depth : Nat) (place : Nat → Nat) (index : Nat) : Nat :=
  if index < depth then place index else place index + 1

/-- Whether a stack has the frames of another one and, besides, only idle ones.  The frame at an
index of the one stack is at the place of the index in the other one. -/
inductive Pads (barren : Point → Bool) : (place : Nat → Nat) → (left right : Stack) → Prop
  | empty : Pads barren id empty empty
  /-- Only the one stack has an idle frame. -/
  | extra {place : Nat → Nat} {left right : Stack} {frame : Frame}
      (pads : Pads barren place left right) (idle : frame.Idle barren) :
      Pads barren (raise left.depth place) left (right.push frame)
  /-- Both stacks have a frame. -/
  | both {place : Nat → Nat} {left right : Stack} (pads : Pads barren place left right)
      (frame : Frame) : Pads barren place (left.push frame) (right.push (frame.renumber place))

theorem raise_of_lt {depth index : Nat} (below : index < depth) (place : Nat → Nat) :
    raise depth place index = place index :=
  if_pos below

theorem raise_of_le {depth index : Nat} (above : depth ≤ index) (place : Nat → Nat) :
    raise depth place index = place index + 1 :=
  if_neg (Nat.not_lt.2 above)

theorem setEntryCount_of_depth_le {stack : Stack} {index : Nat} (outside : stack.depth ≤ index)
    {count : Nat} : stack.setEntryCount index count = stack := by
  apply ext_get?
  intro other
  rw [setEntryCount, get?_modify]
  split
  · next same =>
    subst same
    rw [get?_eq_none outside, Option.map_none]
  · rfl

namespace Pads

variable {barren : Point → Bool} {left right : Stack} (pads : Pads barren place left right)

include pads

/-- What is not there in the one stack is not there in the other one. -/
theorem place_depth_add (more : Nat) : place (left.depth + more) = right.depth + more := by
  induction pads generalizing more with
  | empty => rfl
  | @extra place left right frame pads idle ih =>
      rw [raise_of_le (Nat.le_add_right _ _), ih, depth_push, Nat.add_right_comm]
  | @both place left right pads frame ih =>
      rw [depth_push, depth_push, Nat.add_assoc, ih, Nat.add_assoc]

theorem place_depth : place left.depth = right.depth :=
  pads.place_depth_add 0

theorem strictMono : StrictMono place := by
  induction pads with
  | empty => exact strictMono_id
  | @extra place left right frame pads idle ih =>
      refine strictMono_nat_of_lt_succ fun index => ?_
      have next : place index < place (index + 1) := ih (Nat.lt_succ_self index)
      unfold raise
      split <;> split <;> omega
  | both pads frame ih => exact ih

theorem lt_depth_iff {index : Nat} : place index < right.depth ↔ index < left.depth := by
  rw [← pads.place_depth]
  exact pads.strictMono.lt_iff_lt

theorem place_ne_depth {index : Nat} (apart : index ≠ left.depth) : place index ≠ right.depth := by
  rw [← pads.place_depth]
  exact fun same => apart (pads.strictMono.injective same)

/-- A frame of the one stack is at its place in the other one. -/
theorem exists_get? (index : Nat) : ∃ place', right.get? (place index) =
    (left.get? index).map (Frame.renumber place') := by
  induction pads with
  | empty => exact ⟨id, rfl⟩
  | @extra place left right frame pads idle ih =>
      by_cases inside : index < left.depth
      · rw [raise_of_lt inside, get?_push_of_lt _ _ (pads.lt_depth_iff.2 inside)]
        exact ih
      · refine ⟨id, ?_⟩
        have outside := Nat.le_of_not_lt (mt pads.lt_depth_iff.1 inside)
        rw [raise_of_le (Nat.le_of_not_lt inside), get?_eq_none (Nat.le_of_not_lt inside),
          get?_eq_none]
        · rfl
        · rw [depth_push]
          exact Nat.succ_le_succ outside
  | @both place left right pads frame ih =>
      rcases Nat.lt_trichotomy index left.depth with below | rfl | above
      · rw [get?_push_of_lt _ _ below, get?_push_of_lt _ _ (pads.lt_depth_iff.2 below)]
        exact ih
      · rw [pads.place_depth, get?_depth_push, get?_depth_push]
        exact ⟨place, rfl⟩
      · refine ⟨id, ?_⟩
        have outside : right.depth < place index := by
          rw [← pads.place_depth]
          exact pads.strictMono above
        rw [get?_eq_none, get?_eq_none]
        · rfl
        · rwa [depth_push]
        · rwa [depth_push]

/-- What does not depend on references is the same of a frame and of the one at its place. -/
theorem get?_bind {Answer : Type} {ask : Frame → Option Answer}
    (same : ∀ place frame, ask (Frame.renumber place frame) = ask frame) (index : Nat) :
    (right.get? (place index)).bind ask = (left.get? index).bind ask := by
  obtain ⟨place', read⟩ := pads.exists_get? index
  rw [read]
  cases left.get? index with
  | none => rfl
  | some frame => exact same place' frame

theorem entry?_eq (index : Nat) : Stack.entry? right (place index) = Stack.entry? left index := by
  obtain ⟨place', read⟩ := pads.exists_get? index
  rw [Stack.entry?, Stack.entry?, read]
  cases left.get? index with
  | none => rfl
  | some frame => cases frame <;> rfl

/-! ### Looking down -/

/-- What passes over idle frames and does not look at references finds the same. -/
theorem seek_eq {State Answer : Type} {visit : Frame → State → Except Answer State}
    (same : ∀ place frame state, visit (Frame.renumber place frame) state = visit frame state)
    (passes : ∀ frame state, frame.Idle barren → visit frame state = .ok state) (start : State) :
    right.seek visit start = left.seek visit start := by
  induction pads generalizing start with
  | empty => rfl
  | extra pads idle ih =>
      rw [seek_push, passes _ _ idle]
      exact ih start
  | both pads frame ih =>
      rw [seek_push, seek_push, same]
      cases visit frame start with
      | error answer => rfl
      | ok next => exact ih next

theorem lookCursor?_eq : right.lookCursor? = left.lookCursor? := by
  refine pads.seek_eq ?_ ?_ ()
  · intro place frame state
    cases frame <;> rfl
  · intro frame state idle
    cases idle <;> rfl

theorem returnAddress?_eq : right.returnAddress? = left.returnAddress? := by
  refine pads.seek_eq ?_ ?_ 0
  · intro place frame state
    cases frame <;> rfl
  · intro frame state idle
    cases idle <;> rfl

theorem spanAtLevel?_eq (groups : List Nat) (wanted : Int) :
    right.spanAtLevel? groups wanted = left.spanAtLevel? groups wanted := by
  refine pads.seek_eq ?_ ?_ (0, none)
  · intro place frame state
    cases frame with
    | groupStart group position saved | groupEnd group position saved =>
        cases position <;> rfl
    | _ => rfl
  · intro frame state idle
    cases idle <;> rfl

theorem lastIndex?_eq {test : Frame → Bool}
    (same : ∀ place frame, test (Frame.renumber place frame) = test frame)
    (passes : ∀ frame, frame.Idle barren → test frame = false) :
    right.lastIndex? test = (left.lastIndex? test).map place := by
  induction pads with
  | empty => rfl
  | @extra place left right frame pads idle ih =>
      rw [lastIndex?_push, passes _ idle, if_neg Bool.noConfusion, ih]
      cases found : left.lastIndex? test with
      | none => rfl
      | some index => exact congrArg some (raise_of_lt (lt_depth_of_lastIndex? found) place).symm
  | @both place left right pads frame ih =>
      rw [lastIndex?_push, lastIndex?_push, same, ih]
      split
      · rw [Option.map_some, pads.place_depth]
      · rfl

theorem hasMark_eq (mark : Mark) : right.hasMark mark = left.hasMark mark := by
  rw [hasMark, hasMark, pads.lastIndex?_eq (fun _ frame => frame.isMark_renumber mark)
    fun _ idle => idle.isMark_eq_false mark, Option.isSome_map]

theorem emptyCheck?_eq (id : Nat) : right.emptyCheck? id = (left.emptyCheck? id).map place := by
  refine pads.lastIndex?_eq ?_ ?_
  · intro place frame
    cases frame <;> rfl
  · intro frame idle
    cases idle <;> rfl

/-- What a group was when a frame was pushed is the same but for references. -/
theorem firstAbove?_eq (saved : ∀ index frame group bounds, left.get? index = some frame →
      frame.savedBounds? group = some bounds → bounds.Below index)
    {index : Nat} (inside : index < left.depth) (group : Nat) :
    right.firstAbove? (Frame.savedBounds? group) (place index) =
      (left.firstAbove? (Frame.savedBounds? group) index).map (Bounds.renumber place) := by
  induction pads with
  | empty => exact absurd inside (Nat.not_lt_zero index)
  | @extra place left right frame pads idle ih =>
      rw [raise_of_lt inside, firstAbove?_push _ _ _ (pads.lt_depth_iff.2 inside),
        idle.savedBounds?_eq_none, Option.or_none, ih saved inside]
      cases found : left.firstAbove? (Frame.savedBounds? group) index with
      | none => rfl
      | some bounds =>
          obtain ⟨other, frame, read, saves⟩ := Stack.exists_of_firstFrom? found
          have below := saved other frame group bounds read saves
          refine congrArg some (Bounds.renumber_congr below fun lower isBelow => ?_).symm
          exact raise_of_lt (Nat.lt_trans isBelow (lt_depth_of_get? read)) place
  | @both place left right pads frame ih =>
      have saved' : ∀ index frame group bounds, left.get? index = some frame →
          frame.savedBounds? group = some bounds → bounds.Below index := by
        intro other found group bounds read
        exact saved other found group bounds
          ((get?_push_of_lt _ _ (lt_depth_of_get? read)).trans read)
      rcases Nat.lt_or_ge index left.depth with below | onTop
      · rw [firstAbove?_push _ _ _ below, firstAbove?_push _ _ _ (pads.lt_depth_iff.2 below),
          ih saved' below, Frame.savedBounds?_renumber]
        cases left.firstAbove? (Frame.savedBounds? group) index <;> rfl
      · -- Nothing is above the top.
        rw [depth_push] at inside
        obtain rfl : index = left.depth := by omega
        rw [pads.place_depth, firstAbove?, firstAbove?, depth_push, depth_push, Nat.sub_self,
          Nat.sub_self]
        rfl

/-! ### Changing frames -/

/-- The count of an entry changes in both stacks. -/
theorem setEntryCount_of_lt {index : Nat} (inside : index < left.depth) (count : Nat) :
    Pads barren place (left.setEntryCount index count)
      (right.setEntryCount (place index) count) := by
  induction pads with
  | empty => exact absurd inside (Nat.not_lt_zero index)
  | @extra place left right frame pads idle ih =>
      have more := (ih inside).extra idle
      rw [depth_setEntryCount] at more
      rwa [raise_of_lt inside, setEntryCount_push,
        if_neg (pads.place_ne_depth (Nat.ne_of_lt inside))]
  | @both place left right pads frame ih =>
      by_cases onTop : index = left.depth
      · subst onTop
        rw [pads.place_depth, setEntryCount_push, setEntryCount_push, if_pos rfl, if_pos rfl,
          ← Frame.renumber_withCount]
        exact pads.both _
      · rw [setEntryCount_push, setEntryCount_push, if_neg onTop,
          if_neg (pads.place_ne_depth onTop)]
        rw [depth_push] at inside
        exact (ih (by omega)).both frame

theorem setEntryCount (index count : Nat) :
    Pads barren place (left.setEntryCount index count)
      (right.setEntryCount (place index) count) := by
  by_cases inside : index < left.depth
  · exact pads.setEntryCount_of_lt inside count
  · rw [setEntryCount_of_depth_le (Nat.le_of_not_lt inside),
      setEntryCount_of_depth_le (Nat.le_of_not_lt (mt pads.lt_depth_iff.1 inside))]
    exact pads

theorem commit (mark : Mark) :
    Pads barren place (left.commit mark).2 (right.commit mark).2 := by
  induction pads with
  | empty => exact .empty
  | @extra place left right frame pads idle ih =>
      rw [commit_push, idle.isMark_eq_false, if_neg Bool.noConfusion,
        ← left.depth_commit mark]
      exact ih.extra idle.settle
  | @both place left right pads frame ih =>
      rw [commit_push, commit_push, Frame.isMark_renumber]
      split
      · exact pads.both .void
      · rw [← Frame.renumber_settle]
        exact ih.both (settle frame)

end Pads

end Stack

end PatternMachine
