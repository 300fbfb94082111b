/-!
# Why a run ends without an answer

A pattern that does not match is an ordinary answer.  The errors here are the other endings: a
resource limit, a caller that asks to stop, and a program that no compiler should have produced.
`MatchError.message` holds the wording of all of them.
-/

namespace PatternMachine

/-- The marks that a closing instruction looks for on the backtrack stack. -/
inductive Mark where
  /-- Start of a positive lookahead. -/
  | look
  /-- Start of an atomic group. -/
  | atomic
  /-- Start of a negative lookahead. -/
  | lookNot
  /-- Start of a negative lookbehind. -/
  | behindNot
  /-- A subexpression call. -/
  | call
  /-- Start of a loop iteration that may turn out empty. -/
  | emptyCheck
  deriving DecidableEq, Repr

/-- What an error message calls the mark. -/
def Mark.name : Mark → String
  | .look => "position"
  | .atomic => "stop-backtrack"
  | .lookNot => "negative lookahead"
  | .behindNot => "negative lookbehind"
  | .call => "call frame"
  | .emptyCheck => "null-check"

/-- The ways in which a program can be malformed. -/
inductive Corruption where
  /-- Control left the code. -/
  | addressOutOfRange
  /-- A group number that is 0 or above the declared number of groups. -/
  | invalidGroup (group : Nat)
  /-- A repeat id without an entry in the table of repeat ranges. -/
  | invalidRepeat (id : Nat)
  /-- An empty-iteration check id that was never allocated. -/
  | invalidEmptyCheck (id : Nat)
  /-- A class index without an entry in the class table. -/
  | invalidClass (index : Nat)
  /-- A literal that lies outside the template table. -/
  | invalidTemplate (index : Nat)
  /-- An empty iteration whose check is not followed by the loop's way back. -/
  | noLoopBack
  /-- A closing instruction without the mark it closes. -/
  | missingMark (name : String)
  /-- A discard with nothing to discard. -/
  | emptyStack
  /-- The end of an iteration of a repeat that is not active. -/
  | repeatNotEntered (id : Nat)
  deriving DecidableEq, Repr

/-- The wording of a corruption. -/
def Corruption.message : Corruption → String
  | .addressOutOfRange => "instruction pointer out of range"
  | .invalidGroup group => s!"invalid capture group {group}"
  | .invalidRepeat id => s!"invalid repeat id {id}"
  | .invalidEmptyCheck id => s!"invalid null-check id {id}"
  | .invalidClass index => s!"invalid class index {index}"
  | .invalidTemplate index => s!"invalid template index {index}"
  | .noLoopBack => "unexpected bytecode after null check"
  | .missingMark name => s!"no {name} mark on the stack"
  | .emptyStack => "pop from an empty stack"
  | .repeatNotEntered id => s!"repeat {id} was never entered"

/-- The endings of a run that are neither a match nor the absence of one. -/
inductive MatchError where
  /-- The backtrack stack would hold more than `limit` frames. -/
  | stackLimit (limit : Nat)
  /-- The search failed more often than it may. -/
  | retryLimit
  /-- The time budget is used up. -/
  | timeLimit
  /-- The caller asked to stop. -/
  | aborted
  /-- The instruction at `address` belongs to a malformed program. -/
  | corrupt (address : Nat) (reason : Corruption)
  deriving DecidableEq, Repr

namespace MatchError

/-- The wording of an error. -/
def message : MatchError → String
  | .stackLimit limit => s!"match-stack limit over ({limit} frames)"
  | .retryLimit => "retry-limit-in-match over"
  | .timeLimit => "time limit over"
  | .aborted => "match aborted by caller"
  | .corrupt address reason => s!"corrupt program at {address}: {reason.message}"

/-- The number of an error, for callers that tell errors apart by number. -/
def code : MatchError → Int
  | .corrupt .. => -13
  | .stackLimit _ => -15
  | .retryLimit => -17
  | .timeLimit => -20
  | .aborted => -21

/-- Whether the same run with a larger budget could still have an answer. -/
def isResourceExhausted : MatchError → Bool
  | .stackLimit _ | .retryLimit | .timeLimit => true
  | .aborted | .corrupt .. => false

end MatchError

end PatternMachine
