import PatternMachine.Bytes

/-!
# Inputs of a run

A run looks at a whole text but starts at one position and consumes nothing from another one on.
Assertions still see the text around that span.
-/

namespace PatternMachine

/-- A text and the span that one run may consume. -/
structure Input where
  bytes : ByteArray
  /-- Where the attempt begins. -/
  start : Nat
  /-- Where consumption ends. -/
  range : Nat
  /-- Where the surrounding search started, if not at `start`. -/
  searchStart? : Option Nat
  start_le_range : start ≤ range := by omega
  range_le_size : range ≤ bytes.size := by omega
  deriving DecidableEq

namespace Input

/-- An attempt on a whole text. -/
def whole (bytes : ByteArray) : Input where
  bytes
  start := 0
  range := bytes.size
  searchStart? := none

/-- The same text with another span, which is cut to the text. -/
def span (input : Input) (start range : Nat) : Input where
  bytes := input.bytes
  start := min start (min range input.bytes.size)
  range := min range input.bytes.size
  searchStart? := input.searchStart?

/-- The same attempt in a search that started elsewhere. -/
def searchedFrom (input : Input) (position : Nat) : Input :=
  { input with searchStart? := some position }

/-- Where the surrounding search started. -/
def searchStart (input : Input) : Nat :=
  input.searchStart?.getD input.start

end Input

end PatternMachine
