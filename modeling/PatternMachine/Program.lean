import PatternMachine.Config
import PatternMachine.Program.Instruction
import PatternMachine.Text.Excerpt

/-!
# Programs

A program is code with its operand tables.  It is assembled once and never changes, so any number of
engines may run it.
-/

namespace PatternMachine

/-- A set of groups in one 32-bit word.  Bit `n` stands for group `n`; all groups from 32 up share
bit 0, which group 0 itself never sets. -/
structure GroupMask where
  bits : BitVec 32
  deriving DecidableEq, Repr

namespace GroupMask

/-- The set without members. -/
def empty : GroupMask :=
  ⟨0#32⟩

/-- The bit that stands for a group. -/
def slot (group : Nat) : Nat :=
  if group < 32 then group else 0

/-- Whether the bit of a group is set. -/
def contains (mask : GroupMask) (group : Nat) : Bool :=
  mask.bits.getLsbD (slot group)

/-- Sets the bit of a group; group 0 sets none. -/
def insert (mask : GroupMask) (group : Nat) : GroupMask :=
  if group = 0 then mask else ⟨mask.bits ||| BitVec.twoPow 32 (slot group)⟩

@[simp] theorem contains_empty (group : Nat) : empty.contains group = false := by
  simp [contains, empty]

theorem slot_lt (group : Nat) : slot group < 32 := by
  unfold slot
  split <;> omega

theorem contains_insert_self (mask : GroupMask) {group : Nat} (positive : group ≠ 0) :
    (mask.insert group).contains group := by
  simp [contains, insert, positive, slot_lt]

end GroupMask

/-- How often the body of a repeat may be executed.  The greatest 32-bit number is the conventional
`upper` of a repeat without an upper bound. -/
structure RepeatRange where
  lower : Nat
  upper : Nat
  deriving DecidableEq, Repr

/-- Code and the tables its operands refer to. -/
structure Program where
  code : Array Instruction
  /-- Literals that instructions refer to by index. -/
  templates : Array ByteArray
  /-- Classes that instructions refer to by index. -/
  classes : Array CharClass
  /-- The ranges of the bounded repeats, by repeat id. -/
  repeatRanges : Array RepeatRange
  /-- The number of capture groups, the whole match not counted. -/
  groupCount : Nat
  /-- The number of empty-iteration checks. -/
  emptyCheckCount : Nat
  /-- Groups whose opening leaves an undo frame. -/
  loggedStarts : GroupMask
  /-- Groups whose closing leaves an undo frame. -/
  loggedEnds : GroupMask
  options : Options
  encoding : Encoding
  deriving DecidableEq

namespace Program

/-- The number of slots of a match's region: one for each group and one for the whole match.  The
number is exact, also for a program with so many groups that no machine word counts the slots. -/
def regionSize (program : Program) : Nat :=
  program.groupCount + 1

/-- The index that a branch at `address` leads to, if it lies in the code. -/
def target? (program : Program) (address : Nat) (offset : Int) : Option Nat :=
  let target := (address : Int) + offset
  if 0 ≤ target ∧ target.toNat < program.code.size then some target.toNat else none

/-- Whether a number belongs to a capture group. -/
def hasGroup (program : Program) (group : Nat) : Bool :=
  group != 0 && group ≤ program.groupCount

/-- The part of a template that an instruction names, if the template has it. -/
def literal? (program : Program) (index offset length : Nat) : Option Excerpt :=
  match program.templates[index]? with
  | some template =>
    if offset + length ≤ template.size then
      some ⟨⟨template, program.encoding⟩, offset, offset + length, true⟩
    else
      none
  | none => none

theorem target?_of_sub {program : Program} {address target : Nat}
    (inside : target < program.code.size) :
    program.target? address (target - address) = some target := by
  have sum : (address : Int) + ((target : Int) - address) = target := by omega
  simp [target?, sum, inside]

end Program

end PatternMachine
