import PatternMachine.Search.Plan
import PatternMachine.Search.Setting

/-!
# Opening, closing and clearing groups

The logged forms leave a frame that undoes them; the others write into the registers for good.
-/

namespace PatternMachine

variable (attempt : Attempt) (point : Point) (store : Store)

namespace Plan

/-- Opens a group here. -/
def openGroup (group : Nat) (logged : Bool) : Plan :=
  if attempt.program.hasGroup group then
    .goto point.next point.cursor
      [if logged then .openGroup group point.cursor.position
        else .setGroup group
          { store.registers.boundsOf group with start := .direct point.cursor.position }]
  else
    .corrupt (.invalidGroup group)

/-- Closes a group here. -/
def closeGroup (group : Nat) (logged : Bool) : Plan :=
  if attempt.program.hasGroup group then
    .goto point.next point.cursor
      [if logged then .closeGroup group point.cursor.position
        else .setGroup group
          { store.registers.boundsOf group with stop := .direct point.cursor.position }]
  else
    .corrupt (.invalidGroup group)

/-- Unsets groups, to be undone for those whose openings or closings are. -/
def clearGroups (first stop : Nat) : Plan :=
  if first = 0 ∨ stop < first ∨ attempt.program.groupCount + 1 < stop then
    .corrupt (.invalidGroup stop)
  else
    .goto point.next point.cursor ((List.range' first (stop - first)).map fun group =>
      if attempt.program.loggedStarts.contains group || attempt.program.loggedEnds.contains group
      then .clearGroup group
      else .setGroup group .unset)

end Plan

end PatternMachine
