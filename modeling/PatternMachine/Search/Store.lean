import PatternMachine.Region
import PatternMachine.Search.Registers
import PatternMachine.Search.Stack

/-!
# The store of a search

Registers hold where groups lie and how far repeats have come; the stack holds the choices that are
left and what registers held before.  Both together are the store.  Operations that overwrite a
register push a frame with the old value, and `Store.restore` is the one place that writes such
values back.
-/

namespace PatternMachine

/-- The stack and the registers of a search. -/
structure Store where
  stack : Stack
  registers : Registers
  deriving DecidableEq, Repr

namespace Store

/-- The store at the start of a run. -/
def blank (groupSlots repeatSlots : Nat) : Store :=
  ⟨.empty, .blank groupSlots repeatSlots⟩

/-- Makes a used store ready for the next run. -/
def reset (store : Store) : Store :=
  ⟨.empty, store.registers.reset⟩

/-- Puts a frame on the stack. -/
@[inline] def push (store : Store) (frame : Frame) : Store :=
  { store with stack := store.stack.push frame }

/-- The number of frames. -/
@[inline] def depth (store : Store) : Nat :=
  store.stack.depth

@[simp] theorem depth_push (store : Store) (frame : Frame) :
    (store.push frame).depth = store.depth + 1 :=
  store.stack.depth_push frame

/-! ### Groups -/

/-- The position that a bound stands for, if it is set. -/
def resolve? (store : Store) : Bound → Option Nat
  | .unset => none
  | .direct position => some position
  | .inFrame index => (store.stack.get? index).bind Frame.position?

/-- The positions that a pair of bounds stands for. -/
def resolveBounds (store : Store) (bounds : Bounds) : Option Nat × Option Nat :=
  (store.resolve? bounds.start, store.resolve? bounds.stop)

/-- The start and the end of a group, if both are set. -/
def span? (store : Store) (group : Nat) : Option (Nat × Nat) :=
  match store.resolveBounds (store.registers.boundsOf group) with
  | (some start, some stop) => some (start, stop)
  | _ => none

/-- Writes the bounds of a group for good. -/
def setGroup (store : Store) (group : Nat) (bounds : Bounds) : Store :=
  { store with registers := store.registers.setGroup group bounds }

/-- Opens a group with a frame that undoes it. -/
def openGroup (store : Store) (group position : Nat) : Store :=
  let index := store.depth
  let saved := store.registers.boundsOf group
  (store.push (.groupStart group position saved)).setGroup group ⟨.inFrame index, .unset⟩

/-- Closes a group with a frame that undoes it. -/
def closeGroup (store : Store) (group position : Nat) : Store :=
  let index := store.depth
  let saved := store.registers.boundsOf group
  (store.push (.groupEnd group position saved)).setGroup group ⟨saved.start, .inFrame index⟩

/-- Unsets a group with a frame that undoes it. -/
def clearGroup (store : Store) (group : Nat) : Store :=
  let saved := store.registers.boundsOf group
  (store.push (.groupStart group none saved)).setGroup group .unset

/-- The region of a match from `start` to `stop`. -/
def region (store : Store) (slots start stop : Nat) : Region :=
  let spans := (Array.range slots).map fun group =>
    if group = 0 then some (start, stop) else store.span? group
  ⟨spans.map fun span => span.map Prod.fst, spans.map fun span => span.map Prod.snd⟩

/-- The bounds that a group had when the frame at an index was pushed, if a frame of that group has
been pushed since. -/
def boundsBefore? (store : Store) (index group : Nat) : Option Bounds :=
  store.stack.firstAbove? (Frame.savedBounds? group) index

/-- Whether the given groups lie where they lay when the frame at an index was pushed. -/
def groupsUnchanged (store : Store) (index : Nat) (groups : List Nat) : Bool :=
  groups.all fun group =>
    match store.boundsBefore? index group with
    | some before =>
      store.resolveBounds before == store.resolveBounds (store.registers.boundsOf group)
    | none => true

/-! ### Repeats -/

/-- Writes the register of a repeat for good. -/
def setRepeat (store : Store) (id : Nat) (register : RepeatRegister) : Store :=
  { store with registers := store.registers.setRepeat id register }

/-- Enters a repeat whose body starts at an address. -/
def enterRepeat (store : Store) (id body : Nat) : Store :=
  let index := store.depth
  let outer := store.registers.repeatOf id
  (store.push (.repeatEntry id 0 body outer.entry outer.count)).setRepeat id ⟨some index, 0, body⟩

/-- Counts an iteration in the entry at an index, with a frame that undoes it. -/
def countInEntry (store : Store) (index : Nat) : Store :=
  let count := match store.stack.entry? index with
    | some (count, _) => count
    | none => 0
  { store with
    stack :=
      (store.stack.setEntryCount index (nextIteration count)).push (.entryCount index count) }

/-- Counts an iteration in the register of a repeat, with a frame that undoes it. -/
def countInRegister (store : Store) (id : Nat) : Store :=
  let register := store.registers.repeatOf id
  (store.push (.registerCount id register.count)).setRepeat id
    { register with count := nextIteration register.count }

/-! ### Undoing -/

/-- Writes back what a frame saved. -/
def restore (store : Store) : Frame → Store
  | .groupStart group _ saved | .groupEnd group _ saved => store.setGroup group saved
  | .repeatEntry id _ _ outer savedCount =>
    store.setRepeat id
      { store.registers.repeatOf id with entry := outer, count := savedCount }
  | .entryCount index savedCount =>
    { store with stack := store.stack.setEntryCount index savedCount }
  | .registerCount id savedCount =>
    store.setRepeat id { store.registers.repeatOf id with count := savedCount }
  | _ => store

@[simp] theorem depth_restore (store : Store) (frame : Frame) :
    (store.restore frame).depth = store.depth := by
  cases frame <;> simp [restore, setGroup, setRepeat, depth]

/-- Takes frames off the stack down to the first that passes a test, and writes back what the others
saved.  The frame found comes first; without one the stack is emptied. -/
@[specialize] def unwind (test : Frame → Bool) (store : Store) : Option Frame × Store :=
  match _popped : store.stack.pop? with
  | none => (none, { store with stack := .empty })
  | some (frame, below) =>
    let lowered : Store := { store with stack := below }
    if test frame then (some frame, lowered) else unwind test (lowered.restore frame)
termination_by store.depth
decreasing_by
  rw [depth_restore]
  exact Nat.lt_of_lt_of_eq (Nat.lt_succ_self _) (Stack.depth_of_pop? _popped).symm

theorem unwind_blank (test : Frame → Bool) (registers : Registers) :
    unwind test ⟨.empty, registers⟩ = (none, ⟨.empty, registers⟩) := by
  rw [unwind]
  rfl

theorem unwind_push (test : Frame → Bool) (store : Store) (frame : Frame) :
    (store.push frame).unwind test =
      if test frame then (some frame, store) else (store.restore frame).unwind test := by
  rw [unwind, push, Stack.pop?_push]

/-- Fails back to the latest choice, if one is left. -/
@[inline] def backtrack (store : Store) : Option Point × Store :=
  let (found, rest) := store.unwind Frame.isResumable
  (found.bind Frame.resume?, rest)

/-- Takes everything off the stack that has happened since the nearest frame of a mark, and that
frame.  The frame found comes first. -/
def unwindTo (store : Store) (mark : Mark) : Option Frame × Store :=
  store.unwind (Frame.isMark mark)

/-- Ends a bracket that was opened by a mark, and gives up the choices inside. -/
def commit (store : Store) (mark : Mark) : Option Frame × Store :=
  let (found, stack) := store.stack.commit mark
  (found, { store with stack })

/-- Takes the top frame off without writing anything back.  That frame comes first; without one the
stack is empty and stays so. -/
def discard (store : Store) : Option Frame × Store :=
  match store.stack.pop? with
  | none => (none, { store with stack := .empty })
  | some (frame, below) => (some frame, { store with stack := below })

theorem discard_push (store : Store) (frame : Frame) :
    (store.push frame).discard = (some frame, store) := by
  simp [discard, push]

end Store

end PatternMachine
