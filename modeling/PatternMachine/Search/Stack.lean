import PatternMachine.Config
import PatternMachine.Search.Frame

/-!
# The backtrack stack

Frames refer to each other by their index from the bottom, which stays the same while they are on
the stack.  So the stack is an array that grows at its end: a frame is reached through its index in
one step however deep it lies.  Everything that looks for a frame starts at the top and goes no
further down than it has to.

Every stack is built from `Stack.empty` by `Stack.push` (`Stack.push_induction`).  What an
operation does to a stack with a frame on top is said by a lemma whose name ends in `_push`; all
that look down from the top get theirs from `Stack.seek_push`.
-/

namespace PatternMachine

/-- The greatest count of iterations; it is not raised any further. -/
def maxIterations : Nat := 0xffffffff

/-- One iteration more. -/
def nextIteration (count : Nat) : Nat :=
  min (count + 1) maxIterations

/-- Frames from the bottom to the top. -/
@[ext] structure Stack where
  frames : Array Frame
  deriving DecidableEq, Repr

namespace Stack

/-- The stack without frames. -/
def empty : Stack :=
  ⟨#[]⟩

/-- The number of frames. -/
@[inline] def depth (stack : Stack) : Nat :=
  stack.frames.size

/-- Puts a frame on top. -/
@[inline] def push (stack : Stack) (frame : Frame) : Stack :=
  ⟨stack.frames.push frame⟩

/-- Whether one more frame keeps a limit. -/
@[inline] def hasRoom (limit : Limit) (stack : Stack) : Bool :=
  !limit.exceededBy (stack.depth + 1)

/-- The top frame and the stack below it. -/
@[inline] def pop? (stack : Stack) : Option (Frame × Stack) :=
  match stack.frames.back? with
  | some frame => some (frame, ⟨stack.frames.pop⟩)
  | none => none

/-- The frame at an index from the bottom. -/
def get? (stack : Stack) (index : Nat) : Option Frame :=
  stack.frames[index]?

/-- Changes the frame at an index from the bottom. -/
def modify (stack : Stack) (index : Nat) (change : Frame → Frame) : Stack :=
  ⟨stack.frames.modify index change⟩

/-- Every stack is empty or has a frame on top of a stack. -/
theorem push_induction {motive : Stack → Prop} (empty : motive empty)
    (push : ∀ stack frame, motive stack → motive (stack.push frame)) (stack : Stack) :
    motive stack := by
  obtain ⟨frames⟩ := stack
  induction sizeEq : frames.size generalizing frames with
  | zero =>
    rw [Array.eq_empty_of_size_eq_zero sizeEq]
    exact empty
  | succ size ih =>
    obtain ⟨below, frame, rfl⟩ := Array.eq_push_of_size_ne_zero (by omega : frames.size ≠ 0)
    exact push ⟨below⟩ frame (ih below (by simpa using sizeEq))

@[simp] theorem depth_empty : empty.depth = 0 := rfl

@[simp] theorem depth_push (stack : Stack) (frame : Frame) :
    (stack.push frame).depth = stack.depth + 1 :=
  Array.size_push frame

@[simp] theorem pop?_push (stack : Stack) (frame : Frame) :
    (stack.push frame).pop? = some (frame, stack) := by
  simp [push, pop?]

@[simp] theorem pop?_empty : empty.pop? = none := rfl

theorem eq_push_of_pop? {stack below : Stack} {frame : Frame}
    (popped : stack.pop? = some (frame, below)) : stack = below.push frame := by
  induction stack using push_induction with
  | empty => simp at popped
  | push stack top _ =>
    simp only [pop?_push, Option.some.injEq, Prod.mk.injEq] at popped
    rw [popped.1, popped.2]

theorem depth_of_pop? {stack below : Stack} {frame : Frame}
    (popped : stack.pop? = some (frame, below)) : stack.depth = below.depth + 1 := by
  rw [eq_push_of_pop? popped, depth_push]

@[simp] theorem get?_empty (index : Nat) : empty.get? index = none := rfl

/-- A frame keeps its index when others are pushed on top of it. -/
theorem get?_push (stack : Stack) (frame : Frame) (index : Nat) :
    (stack.push frame).get? index =
      if index = stack.depth then some frame else stack.get? index :=
  Array.getElem?_push

/-- On top of a stack there is nothing but the frame that was pushed. -/
theorem eq_of_get?_push {stack : Stack} {frame found : Frame} {index : Nat}
    (above : stack.depth ≤ index) (read : (stack.push frame).get? index = some found) :
    found = frame := by
  rw [get?_push] at read
  split at read
  · exact (Option.some.inj read).symm
  · rw [get?, Array.getElem?_eq_none above] at read
    cases read

theorem get?_eq_none {stack : Stack} {index : Nat} (outside : stack.depth ≤ index) :
    stack.get? index = none :=
  Array.getElem?_eq_none outside

/-- A stack is known by the frames at its indices. -/
theorem ext_get? {left right : Stack} (same : ∀ index, left.get? index = right.get? index) :
    left = right :=
  Stack.ext (Array.ext_getElem? same)

@[simp] theorem depth_modify (stack : Stack) (index : Nat) (change : Frame → Frame) :
    (stack.modify index change).depth = stack.depth :=
  Array.size_modify

theorem get?_modify (stack : Stack) (index : Nat) (change : Frame → Frame) (other : Nat) :
    (stack.modify index change).get? other =
      if index = other then (stack.get? other).map change else stack.get? other :=
  Array.getElem?_modify

theorem modify_push (stack : Stack) (frame : Frame) (index : Nat) (change : Frame → Frame) :
    (stack.push frame).modify index change =
      if index = stack.depth then stack.push (change frame)
      else (stack.modify index change).push frame := by
  apply ext_get?
  intro other
  split
  · simp only [get?_modify, get?_push]
    grind
  · simp only [get?_modify, get?_push, depth_modify]
    grind

/-! ### Iteration counts kept in frames -/

/-- The count and the body of the repeat entry at an index. -/
def entry? (stack : Stack) (index : Nat) : Option (Nat × Nat) :=
  match stack.get? index with
  | some (.repeatEntry _ count body _ _) => some (count, body)
  | _ => none

/-- Sets the count of the repeat entry at an index; any other frame stays as it is. -/
def setEntryCount (stack : Stack) (index count : Nat) : Stack :=
  stack.modify index (Frame.withCount count)

@[simp] theorem depth_setEntryCount (stack : Stack) (index count : Nat) :
    (stack.setEntryCount index count).depth = stack.depth :=
  stack.depth_modify index _

/-! ### Looking down from the top -/

/-- Visits frames from the top down until one of them has the answer.  A visit is given what the
frames above have come to; it throws the answer, or returns what to go on with. -/
@[inline] def seek {State Answer : Type} (stack : Stack)
    (visit : Frame → State → Except Answer State) (start : State) : Option Answer :=
  match stack.frames.foldrM visit start with
  | .error answer => some answer
  | .ok _ => none

@[simp] theorem seek_empty {State Answer : Type} (visit : Frame → State → Except Answer State)
    (start : State) : empty.seek visit start = none := rfl

theorem seek_push {State Answer : Type} (stack : Stack) (frame : Frame)
    (visit : Frame → State → Except Answer State) (start : State) :
    (stack.push frame).seek visit start =
      match visit frame start with
      | .error answer => some answer
      | .ok next => stack.seek visit next := by
  simp only [seek, push, Array.foldrM_push]
  cases visit frame start <;> rfl

/-- The index of the top frame among those that pass a test. -/
@[inline] def lastIndex? (stack : Stack) (test : Frame → Bool) : Option Nat :=
  stack.seek
    (fun frame height => if test frame then .error (height - 1) else .ok (height - 1))
    stack.depth

@[simp] theorem lastIndex?_empty (test : Frame → Bool) : empty.lastIndex? test = none := rfl

theorem lastIndex?_push (stack : Stack) (frame : Frame) (test : Frame → Bool) :
    (stack.push frame).lastIndex? test =
      if test frame then some stack.depth else stack.lastIndex? test := by
  simp only [lastIndex?, seek_push, depth_push, Nat.add_sub_cancel]
  cases test frame <;> rfl

/-- What stands at the last index passes the test. -/
theorem get?_of_lastIndex? {stack : Stack} {test : Frame → Bool} {index : Nat}
    (found : stack.lastIndex? test = some index) :
    ∃ frame, stack.get? index = some frame ∧ test frame = true := by
  induction stack using push_induction with
  | empty => simp at found
  | push stack top ih =>
    rw [lastIndex?_push] at found
    rw [get?_push]
    split at found
    · next passes =>
      rw [if_pos (Option.some.inj found).symm]
      exact ⟨top, rfl, passes⟩
    · obtain ⟨frame, read, passes⟩ := ih found
      refine ⟨frame, ?_, passes⟩
      split
      · next same => simp [same, get?_eq_none] at read
      · exact read

theorem lt_depth_of_lastIndex? {stack : Stack} {test : Frame → Bool} {index : Nat}
    (found : stack.lastIndex? test = some index) : index < stack.depth := by
  obtain ⟨frame, read, _⟩ := get?_of_lastIndex? found
  exact Nat.lt_of_not_le fun outside => by simp [get?_eq_none outside] at read

/-- The index of the innermost iteration that an empty-iteration check started. -/
def emptyCheck? (stack : Stack) (id : Nat) : Option Nat :=
  stack.lastIndex? fun | .emptyCheck started _ => started == id | _ => false

/-- Whether some frame is a given mark. -/
def hasMark (stack : Stack) (mark : Mark) : Bool :=
  (stack.lastIndex? (Frame.isMark mark)).isSome

theorem hasMark_push (stack : Stack) (frame : Frame) (mark : Mark) :
    (stack.push frame).hasMark mark = (frame.isMark mark || stack.hasMark mark) := by
  simp only [hasMark, lastIndex?_push]
  cases frame.isMark mark <;> simp

/-- The cursor at the start of the innermost lookahead. -/
def lookCursor? (stack : Stack) : Option Cursor :=
  stack.seek (fun frame _ => match frame with | .look cursor => .error cursor | _ => .ok ()) ()

theorem lookCursor?_push (stack : Stack) (frame : Frame) :
    (stack.push frame).lookCursor? =
      match frame with
      | .look cursor => some cursor
      | _ => stack.lookCursor? := by
  cases frame <;> simp [lookCursor?, seek_push]

/-- One step down the stack in the search for the latest call that is not answered, when `answered`
answers have been passed whose calls have not. -/
@[inline] def visitCall (frame : Frame) (answered : Nat) : Except Nat Nat :=
  match frame, answered with
  | .returned, answered => .ok (answered + 1)
  | .call returnAddress, 0 => .error returnAddress
  | .call _, answered + 1 => .ok answered
  | _, answered => .ok answered

/-- The return address of the latest call that is not answered. -/
def returnAddress? (stack : Stack) : Option Nat :=
  stack.seek visitCall 0

/-- The first answer among a number of frames from an index on, which are asked upwards. -/
@[specialize] def firstFrom? {Answer : Type} (stack : Stack) (ask : Frame → Option Answer) :
    (index count : Nat) → Option Answer
  | _, 0 => none
  | index, count + 1 =>
    match (stack.get? index).bind ask with
    | some answer => some answer
    | none => firstFrom? stack ask (index + 1) count

/-- The first answer among the frames above an index, the oldest asked first. -/
@[inline] def firstAbove? {Answer : Type} (stack : Stack) (ask : Frame → Option Answer)
    (index : Nat) : Option Answer :=
  stack.firstFrom? ask (index + 1) (stack.depth - (index + 1))

theorem firstFrom?_push {Answer : Type} (stack : Stack) (frame : Frame)
    (ask : Frame → Option Answer) {index count : Nat} (reachesTop : index + count = stack.depth) :
    (stack.push frame).firstFrom? ask index (count + 1) =
      (stack.firstFrom? ask index count).or (ask frame) := by
  induction count generalizing index with
  | zero =>
    simp only [firstFrom?, get?_push, show index = stack.depth from reachesTop, if_true]
    cases answered : ask frame <;> simp [answered]
  | succ count ih =>
    rw [firstFrom?, get?_push, if_neg (by omega), ih (by omega), firstFrom?]
    cases (stack.get? index).bind ask <;> rfl

theorem firstAbove?_push {Answer : Type} (stack : Stack) (frame : Frame)
    (ask : Frame → Option Answer) {index : Nat} (within : index < stack.depth) :
    (stack.push frame).firstAbove? ask index = (stack.firstAbove? ask index).or (ask frame) := by
  rw [firstAbove?, firstAbove?, depth_push,
    show stack.depth + 1 - (index + 1) = stack.depth - (index + 1) + 1 by omega,
    firstFrom?_push _ _ _ (by omega)]

/-! ### Giving up choices -/

/-- What is left of a frame when the bracket around it ends: a choice is given up, a saved value
stays. -/
def settle (frame : Frame) : Frame :=
  if frame.isGivenUp then .void else frame

/-- Gives up the choices from an index on. -/
def settleFrom (stack : Stack) (index : Nat) : Stack :=
  (stack.depth - index).fold
    (fun offset _ settled => settled.modify (index + offset) settle) stack

/-- Ends a bracket that was opened by a mark: the choices above the nearest frame of that mark are
given up, and so is the mark.  That frame comes first; without one all choices are given up. -/
def commit (stack : Stack) (mark : Mark) : Option Frame × Stack :=
  match stack.lastIndex? (Frame.isMark mark) with
  | some index =>
    (stack.get? index, (stack.settleFrom (index + 1)).modify index fun _ => .void)
  | none => (none, stack.settleFrom 0)

theorem get?_settleFrom (stack : Stack) (index other : Nat) :
    (stack.settleFrom index).get? other =
      if index ≤ other then (stack.get? other).map settle else stack.get? other := by
  have settled : ∀ count, (Nat.fold count
      (fun offset _ settled => modify settled (index + offset) settle) stack).get? other =
        if index ≤ other ∧ other < index + count then (stack.get? other).map settle
        else stack.get? other := by
    intro count
    induction count with
    | zero =>
      rw [Nat.fold_zero, if_neg (by omega)]
    | succ count ih =>
      rw [Nat.fold_succ, get?_modify, ih]
      grind
  rw [settleFrom, settled]
  by_cases beyond : stack.depth ≤ other
  · simp [get?_eq_none beyond]
  · have within : other < index + (stack.depth - index) ↔ True := by simp; omega
    simp only [within, and_true]

@[simp] theorem depth_settleFrom (stack : Stack) (index : Nat) :
    (stack.settleFrom index).depth = stack.depth := by
  have settled : ∀ count, (Nat.fold count
      (fun offset _ settled => modify settled (index + offset) settle) stack).depth =
        stack.depth := by
    intro count
    induction count with
    | zero => rfl
    | succ count ih => rw [Nat.fold_succ, depth_modify, ih]
  exact settled _

@[simp] theorem settleFrom_depth (stack : Stack) : stack.settleFrom stack.depth = stack := by
  apply ext_get?
  intro other
  rw [get?_settleFrom]
  split
  · next outside => rw [get?_eq_none outside, Option.map_none]
  · rfl

theorem settleFrom_push (stack : Stack) (frame : Frame) {index : Nat}
    (within : index ≤ stack.depth) :
    (stack.push frame).settleFrom index = (stack.settleFrom index).push (settle frame) := by
  apply ext_get?
  intro other
  simp only [get?_settleFrom, get?_push, depth_settleFrom]
  grind

@[simp] theorem depth_commit (stack : Stack) (mark : Mark) :
    (stack.commit mark).2.depth = stack.depth := by
  unfold commit
  split <;> simp

@[simp] theorem commit_empty (mark : Mark) : empty.commit mark = (none, empty) := rfl

/-- A bracket ends at its mark; until then every frame is settled. -/
theorem commit_push (stack : Stack) (frame : Frame) (mark : Mark) :
    (stack.push frame).commit mark =
      if frame.isMark mark then (some frame, stack.push .void)
      else ((stack.commit mark).1, (stack.commit mark).2.push (settle frame)) := by
  by_cases isMark : frame.isMark mark
  · have unsettled := (stack.push frame).settleFrom_depth
    rw [depth_push] at unsettled
    simp [commit, lastIndex?_push, isMark, get?_push, unsettled, modify_push]
  · simp only [commit, lastIndex?_push, isMark, Bool.false_eq_true, if_false]
    cases found : stack.lastIndex? (Frame.isMark mark) with
    | some index =>
      have within := lt_depth_of_lastIndex? found
      have apart := Nat.ne_of_lt within
      simp [get?_push, settleFrom_push _ _ within, modify_push, apart]
    | none => simp [settleFrom_push]

end Stack

end PatternMachine
