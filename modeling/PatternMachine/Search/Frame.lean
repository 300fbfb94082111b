import PatternMachine.Error
import PatternMachine.Text.Cursor

/-!
# Frames of the backtrack stack

Everything a search may come back to, and everything it overwrote on the way, is a frame.  A frame
is a choice to resume, a saved value to restore, or a mark that a closing instruction looks for.
-/

namespace PatternMachine

/-- Where a search stands or goes on: an address of the code and a position of the text. -/
structure Point where
  address : Nat
  cursor : Cursor
  deriving DecidableEq, Repr

/-- Where one bound of a group is kept. -/
inductive Bound where
  /-- The bound is not set. -/
  | unset
  /-- The bound is the position in the frame at an index, counted from the bottom of the stack. -/
  | inFrame (index : Nat)
  /-- The bound is a position. -/
  | direct (position : Nat)
  deriving DecidableEq, Repr, Inhabited

/-- Both bounds of a group. -/
structure Bounds where
  start : Bound
  stop : Bound
  deriving DecidableEq, Repr, Inhabited

/-- The bounds of a group that took no part. -/
def Bounds.unset : Bounds :=
  ⟨.unset, .unset⟩

/-- One entry of the backtrack stack. -/
inductive Frame where
  /-- A choice to resume. -/
  | choice (point : Point)
  /-- A group was opened, or cleared if there is no position. -/
  | groupStart (group : Nat) (position : Option Nat) (saved : Bounds)
  /-- A group was closed. -/
  | groupEnd (group : Nat) (position : Option Nat) (saved : Bounds)
  /-- A repeat was entered.  `count` is its number of iterations so far, `outer` and `savedCount`
  are what the repeat's register held before. -/
  | repeatEntry (id count body : Nat) (outer : Option Nat) (savedCount : Nat)
  /-- The count in the entry at `index` was raised. -/
  | entryCount (index savedCount : Nat)
  /-- The count in a repeat's register was raised. -/
  | registerCount (id savedCount : Nat)
  /-- An iteration that may turn out empty started at a position. -/
  | emptyCheck (id position : Nat)
  /-- A lookahead started. -/
  | look (cursor : Cursor)
  /-- A negative lookahead started; it resumes if the guarded code fails. -/
  | lookNot (point : Point)
  /-- An atomic group started. -/
  | atomic
  /-- A negative lookbehind started; it resumes if the guarded code fails. -/
  | behindNot (point : Point)
  /-- A subexpression was called. -/
  | call (returnAddress : Nat)
  /-- A call was answered. -/
  | returned
  /-- A choice or mark that was given up. -/
  | void
  deriving DecidableEq, Repr

namespace Frame

/-- Where the search goes on when it fails back to a frame. -/
@[inline] def resume? : Frame → Option Point
  | .choice point | .lookNot point | .behindNot point => some point
  | _ => none

/-- Whether a failing search stops at a frame. -/
@[inline] def isResumable (frame : Frame) : Bool :=
  frame.resume?.isSome

/-- The mark that a frame is, if it is one. -/
def mark? : Frame → Option Mark
  | .look _ => some .look
  | .atomic => some .atomic
  | .lookNot _ => some .lookNot
  | .behindNot _ => some .behindNot
  | .call _ => some .call
  | .emptyCheck .. => some .emptyCheck
  | _ => none

/-- Whether a frame is a given mark. -/
def isMark (mark : Mark) (frame : Frame) : Bool :=
  frame.mark? == some mark

/-- The frames that are given up when an atomic group or a lookahead ends: choices, and the
iterations that started inside. -/
def isGivenUp (frame : Frame) : Bool :=
  frame.isResumable || frame.isMark .emptyCheck

/-- The bounds that a group had before a frame of its own was pushed. -/
def savedBounds? (group : Nat) : Frame → Option Bounds
  | .groupStart number _ saved | .groupEnd number _ saved =>
    if number = group then some saved else none
  | _ => none

/-- The same frame with another count, if it is the entry of a repeat. -/
@[inline] def withCount (count : Nat) : Frame → Frame
  | .repeatEntry id _ body outer savedCount => .repeatEntry id count body outer savedCount
  | other => other

/-- The position that a capture frame holds. -/
def position? : Frame → Option Nat
  | .groupStart _ position _ | .groupEnd _ position _ => position
  | _ => none

end Frame

end PatternMachine
