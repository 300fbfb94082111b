import PatternMachine.Bytes
import PatternMachine.CharClass

/-!
# Instructions

The instruction set of the machine, grouped by what an instruction does: it consumes characters,
asserts something about the position, records captures, branches, or brackets a part of the program
(a loop, a lookaround, an atomic group, a call).  The target of a branch is an offset from the
branching instruction itself; only a call names its target by its index.
-/

namespace PatternMachine

/-- Conditions on a position that consume nothing. -/
inductive Assertion where
  | wordBoundary
  | noWordBoundary
  | wordBegin
  | wordEnd
  | textBegin
  | textEnd
  | lineBegin
  | lineEnd
  /-- The end of the text, or a line terminator that is its last character. -/
  | textEndOrFinalNewline
  /-- The position from which the surrounding search started. -/
  | searchBegin
  deriving DecidableEq, Repr

/-- Repetitions of what a group has captured. -/
inductive BackReference where
  /-- Group 1. -/
  | first
  /-- Group 2. -/
  | second
  /-- One group; `folded` ignores case whatever the options are. -/
  | group (number : Nat) (folded : Bool)
  /-- The first of several groups that is set and repeated here. -/
  | anyOf (numbers : List Nat) (folded : Bool)
  /-- The most recently closed of several groups at a relative call depth. -/
  | atLevel (folded : Bool) (level : Int) (numbers : List Nat)
  deriving DecidableEq, Repr

/-- One instruction of a program. -/
inductive Instruction where
  /-- A candidate for a match; the options decide whether the search goes on. -/
  | accept
  /-- Ends the run with the best candidate so far. -/
  | finish
  /-- Goes back to the latest choice. -/
  | fail
  /-- Consumes a byte. -/
  | byte (value : UInt8)
  /-- Consumes a literal. -/
  | bytes (literal : ByteArray)
  /-- Consumes a part of a literal in the program's table. -/
  | template (index offset length : Nat)
  /-- Consumes a character that folds to a code point. -/
  | foldedChar (code : Nat)
  /-- Consumes characters that fold to code points. -/
  | foldedChars (codes : List Nat)
  /-- Consumes a character of a class. -/
  | charClass (operand : ClassOperand)
  /-- Consumes a character, a line terminator only if `acrossLines` is set. -/
  | anyChar (acrossLines : Bool)
  /-- Consumes as many characters as possible, leaving a choice before each of them, or only before
  those that start with the byte `peeked`. -/
  | anyCharStar (acrossLines : Bool) (peeked : Option UInt8)
  /-- Consumes a character that is a word character, or one that is not. -/
  | word (wanted : Bool)
  /-- Checks a condition on the position. -/
  | assert (assertion : Assertion)
  /-- Opens a group; `logged` openings are undone by backtracking. -/
  | openGroup (number : Nat) (logged : Bool)
  /-- Closes a group; `logged` closings are undone by backtracking. -/
  | closeGroup (number : Nat) (logged : Bool)
  /-- Unsets the groups from `first` up to, but without, `stop`. -/
  | clearGroups (first stop : Nat)
  /-- Consumes a repetition of a capture. -/
  | backReference (reference : BackReference)
  /-- Starts an iteration that may turn out empty. -/
  | emptyCheckStart (id : Nat)
  /-- Ends an iteration, and steps over the way back if it was empty.  An iteration that changed
  one of the `watched` groups is not empty. -/
  | emptyCheckEnd (id : Nat) (watched : Option (List Nat))
  /-- Goes elsewhere. -/
  | jump (offset : Int)
  /-- Leaves a choice to go elsewhere. -/
  | push (offset : Int)
  /-- Discards the top frame of the stack. -/
  | pop
  /-- Leaves a choice to go elsewhere if the next byte is `next`, and goes there otherwise. -/
  | pushOrJump (offset : Int) (next : UInt8)
  /-- Leaves a choice to go elsewhere if the next byte is `next`. -/
  | pushIfNext (offset : Int) (next : UInt8)
  /-- Enters a bounded repeat, whose exit is elsewhere. -/
  | repeatStart (id : Nat) (offset : Int) (greedy : Bool)
  /-- Ends an iteration of a bounded repeat.  The `direct` form counts in a register, the other one
  in the frame that the entry left on the stack. -/
  | repeatNext (id : Nat) (greedy direct : Bool)
  /-- Starts a positive lookahead. -/
  | lookStart
  /-- Ends a positive lookahead and goes back to where it started. -/
  | lookEnd
  /-- Starts a negative lookahead, which holds at its target. -/
  | lookNotStart (offset : Int)
  /-- Ends a negative lookahead: what it excludes is there. -/
  | lookNotFail
  /-- Starts an atomic group. -/
  | atomicStart
  /-- Ends an atomic group and gives up the choices inside. -/
  | atomicEnd
  /-- Goes back a number of characters. -/
  | lookBehind (length : Nat)
  /-- Starts a negative lookbehind a number of characters back, which holds at its target. -/
  | lookBehindNotStart (offset : Int) (length : Nat)
  /-- Ends a negative lookbehind: what it excludes is there. -/
  | lookBehindNotFail
  /-- Calls the subexpression at an index of the code. -/
  | call (target : Nat)
  /-- Goes back behind the call that is being answered. -/
  | callReturn
  deriving DecidableEq

namespace Instruction

/-- What consumes a literal: a single byte has an instruction of its own. -/
def literal (bytes : ByteArray) : Instruction :=
  if single : bytes.size = 1 then .byte bytes[0] else .bytes bytes

/-- Whether an instruction can be the way back of a loop, which an empty iteration steps over. -/
def isLoopBack : Instruction → Bool
  | .jump _ | .push _ | .repeatNext .. => true
  | _ => false

/-- Whether an instruction names a target: only these take part in labels. -/
def hasTarget : Instruction → Bool
  | .jump _ | .push _ | .pushOrJump .. | .pushIfNext .. | .repeatStart .. | .lookNotStart _
  | .lookBehindNotStart .. | .call _ => true
  | _ => false

/-- The instruction, standing at index `address`, with its target at index `target`.  The offset is
meant to be a signed 32-bit number, which it is in code of fewer than 2 ^ 31 instructions; a longer
program has no such offsets, and they are not cut to size here. -/
def withTarget (address target : Nat) : Instruction → Instruction
  | .jump _ => .jump (target - address)
  | .push _ => .push (target - address)
  | .pushOrJump _ next => .pushOrJump (target - address) next
  | .pushIfNext _ next => .pushIfNext (target - address) next
  | .repeatStart id _ greedy => .repeatStart id (target - address) greedy
  | .lookNotStart _ => .lookNotStart (target - address)
  | .lookBehindNotStart _ length => .lookBehindNotStart (target - address) length
  | .call _ => .call target
  | other => other

theorem withTarget_of_not_hasTarget {instruction : Instruction} (address target : Nat)
    (plain : instruction.hasTarget = false) :
    instruction.withTarget address target = instruction := by
  cases instruction <;> simp_all [hasTarget, withTarget]

end Instruction

end PatternMachine
