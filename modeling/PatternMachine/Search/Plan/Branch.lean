import PatternMachine.Search.Plan
import PatternMachine.Search.Setting

/-!
# Branches and choices

A branch leads to another instruction, at once or when the search fails back to the choice it has
left.  Its target has to lie in the code.
-/

namespace PatternMachine

variable (attempt : Attempt) (point : Point) (store : Store)

namespace Plan

/-- What an instruction does that needs its target, which has to lie in the code. -/
@[inline] def branch (offset : Int) (plan : Nat → Plan) : Plan :=
  match attempt.program.target? point.address offset with
  | some target => plan target
  | none => .corrupt .addressOutOfRange

/-- Whether a byte comes next. -/
@[inline] def nextIs (next : UInt8) : Bool :=
  point.cursor.position < attempt.range && attempt.text.byte point.cursor.position == next

/-- A choice to go on elsewhere with the same cursor. -/
@[inline] def choiceAt (address : Nat) : Effect :=
  .push (.choice ⟨address, point.cursor⟩)

/-- Discards the top frame. -/
@[inline] def pop : Plan :=
  if store.depth = 0 then .corrupt .emptyStack else .goto point.next point.cursor [.discard]

end Plan

end PatternMachine
