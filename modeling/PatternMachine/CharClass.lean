import PatternMachine.CharClass.ByteSet
import PatternMachine.Text.CodeRange

/-!
# Character classes

A class is a set of code points in two parts: a bit for each code point below 256, and a table of
ranges for the others.  Some classes state only one part, and each may be negated.
-/

namespace PatternMachine

/-- A class that is stated in full: below 256 the bits decide, from 256 up the ranges. -/
structure CharClass where
  bits : ByteSet
  ranges : Array CodeRange
  negated : Bool
  deriving DecidableEq, Repr

/-- Whether a code point belongs to a class.  An entry of the range table below 256 is never
looked at. -/
def CharClass.contains (charClass : CharClass) (code : Nat) : Bool :=
  (if code < 256 then charClass.bits.contains code else CodeRange.covers charClass.ranges code) !=
    charClass.negated

/-- A class as the operand of an instruction. -/
inductive ClassOperand where
  /-- Only code points below 256 are members, before negation. -/
  | narrow (bits : ByteSet) (negated : Bool)
  /-- Only code points from 256 up are members, before negation. -/
  | wide (ranges : Array CodeRange) (negated : Bool)
  /-- Both parts are stated. -/
  | mixed (bits : ByteSet) (ranges : Array CodeRange) (negated : Bool)
  /-- The class at an index of the program's table. -/
  | entry (index : Nat)
  deriving DecidableEq, Repr

/-- The class that an operand stands for in a program with the given table, or the index that has no
entry there. -/
def ClassOperand.resolve? (classes : Array CharClass) : ClassOperand → Except Nat CharClass
  | .narrow bits negated => .ok ⟨bits, #[], negated⟩
  | .wide ranges negated => .ok ⟨.empty, ranges, negated⟩
  | .mixed bits ranges negated => .ok ⟨bits, ranges, negated⟩
  | .entry index =>
    match classes[index]? with
    | some charClass => .ok charClass
    | none => .error index

end PatternMachine
