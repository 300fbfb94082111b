import PatternMachine.Search.Plan.Branch

/-!
# Lookaround, atomic groups and calls

Each of these opens with a mark on the stack, and its closing instruction looks for the mark.
-/

namespace PatternMachine

variable (attempt : Attempt) (point : Point) (store : Store)

namespace Plan

/-- Ends a lookahead. -/
def lookEnd : Plan :=
  match store.stack.lookCursor? with
  | some cursor => .goto point.next cursor [.commit .look]
  | none => .corrupt (.missingMark Mark.look.name)

/-- Ends an atomic group. -/
def atomicEnd : Plan :=
  if store.stack.hasMark .atomic then .goto point.next point.cursor [.commit .atomic]
  else .corrupt (.missingMark Mark.atomic.name)

/-- Ends a negative lookaround whose guarded code matched. -/
def excluded (mark : Mark) : Plan :=
  if store.stack.hasMark mark then ⟨[.unwindTo mark], .fail⟩
  else .corrupt (.missingMark mark.name)

/-- Goes back a number of characters. -/
def lookBehind (length : Nat) : Plan :=
  match attempt.text.stepBack? 0 length point.cursor.position with
  | some position => .goto point.next (attempt.text.cursorAt position)
  | none => .fail

/-- Starts a negative lookbehind.  Where the text before the cursor is too short it holds. -/
def lookBehindNotStart (offset : Int) (length : Nat) : Plan :=
  branch attempt point offset fun target =>
    match attempt.text.stepBack? 0 length point.cursor.position with
    | some position =>
      .goto point.next (attempt.text.cursorAt position)
        [.push (.behindNot ⟨target, point.cursor⟩)]
    | none => .goto target point.cursor

/-- Calls a subexpression. -/
def call (target : Nat) : Plan :=
  if target < attempt.program.code.size then
    .goto target point.cursor [.push (.call point.next)]
  else
    .corrupt .addressOutOfRange

/-- Goes back behind the latest call that is not answered. -/
def callReturn : Plan :=
  match store.stack.returnAddress? with
  | some address => .goto address point.cursor [.push .returned]
  | none => .corrupt (.missingMark Mark.call.name)

end Plan

end PatternMachine
