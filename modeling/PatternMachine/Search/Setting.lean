import PatternMachine.Input
import PatternMachine.Program
import PatternMachine.Text.Excerpt
import PatternMachine.Text.Cursor

/-!
# The setting of a run

What stays the same while a run goes on.  The program, the options in effect and the input are the
attempt: they alone decide what instructions do.  The limits and the answers of the world outside
only decide whether the run may go on.
-/

namespace PatternMachine

/-- The world outside a run.  A run asks it two kinds of questions, each numbered from 1. -/
structure Monitor where
  /-- Whether the caller's hook lets the run go on at its `n`-th call. -/
  permits : Nat → Bool
  /-- How many milliseconds the run has taken when it looks at the clock for the `n`-th time. -/
  elapsed : Nat → Nat

/-- A hook that never stops a run, beside a clock that stands still. -/
def Monitor.patient : Monitor :=
  ⟨fun _ => true, fun _ => 0⟩

/-- What is to be matched: everything that decides what an instruction does. -/
structure Attempt where
  program : Program
  /-- The options in effect: those of the program and those added to it. -/
  options : Options
  input : Input
  deriving DecidableEq

namespace Attempt

/-- The text, read in the encoding of the program. -/
@[inline] def text (attempt : Attempt) : Text :=
  ⟨attempt.input.bytes, attempt.program.encoding⟩

/-- The position from which on nothing is consumed. -/
@[inline] def range (attempt : Attempt) : Nat :=
  attempt.input.range

/-- Whether literals and back references ignore case. -/
@[inline] def ignoresCase (attempt : Attempt) : Bool :=
  attempt.options.ignoreCase

end Attempt

/-- What a run is given: an attempt, what bounds it, and the world outside. -/
structure Setting extends Attempt, Limits where
  monitor : Monitor

end PatternMachine
