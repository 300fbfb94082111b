import PatternMachine.Search.Frame

/-!
# Registers

What a search keeps outside its stack: where each group lies, and how far each repeat has come.  The
numbers of registers never change; a register that a program does not have reads as unset.
-/

namespace PatternMachine

/-- The register of one bounded repeat. -/
structure RepeatRegister where
  /-- The index of the frame that the latest entry pushed, if the repeat is active. -/
  entry : Option Nat
  /-- Iterations so far, for the forms that count here. -/
  count : Nat
  /-- Where the body starts. -/
  body : Nat
  deriving DecidableEq, Repr, Inhabited

/-- The register of a repeat that is not active. -/
def RepeatRegister.idle : RepeatRegister :=
  ⟨none, 0, 0⟩

/-- The registers of a program: one pair of bounds for each group and the whole match, and one
register for each repeat. -/
structure Registers where
  groups : Array Bounds
  repeats : Array RepeatRegister
  deriving DecidableEq, Repr

namespace Registers

/-- Registers in which nothing is set. -/
def blank (groupSlots repeatSlots : Nat) : Registers :=
  ⟨Array.replicate groupSlots .unset, Array.replicate repeatSlots .idle⟩

/-- Unsets every register. -/
def reset (registers : Registers) : Registers :=
  blank registers.groups.size registers.repeats.size

/-- The bounds of a group. -/
def boundsOf (registers : Registers) (number : Nat) : Bounds :=
  registers.groups.getD number .unset

/-- Writes the bounds of a group. -/
def setGroup (registers : Registers) (number : Nat) (bounds : Bounds) : Registers :=
  { registers with groups := registers.groups.setIfInBounds number bounds }

/-- The register of a repeat. -/
def repeatOf (registers : Registers) (id : Nat) : RepeatRegister :=
  registers.repeats.getD id .idle

/-- Writes the register of a repeat. -/
def setRepeat (registers : Registers) (id : Nat) (register : RepeatRegister) : Registers :=
  { registers with repeats := registers.repeats.setIfInBounds id register }

/-- To write what a register holds changes nothing, and neither does writing where there is none. -/
theorem setIfInBounds_getD_self {Slot : Type} (slots : Array Slot) (index : Nat) (unset : Slot) :
    slots.setIfInBounds index (slots.getD index unset) = slots := by
  rcases Nat.lt_or_ge index slots.size with inside | outside
  · rw [Array.getD_eq_getD_getElem?, Array.getElem?_eq_getElem inside, Option.getD_some,
      Array.setIfInBounds_def, dif_pos inside, Array.set_getElem_self]
  · exact Array.setIfInBounds_eq_of_size_le outside

@[simp] theorem reset_blank (groupSlots repeatSlots : Nat) :
    (blank groupSlots repeatSlots).reset = blank groupSlots repeatSlots := by
  simp [reset, blank]

@[simp] theorem reset_setGroup (registers : Registers) (number : Nat) (bounds : Bounds) :
    (registers.setGroup number bounds).reset = registers.reset := by
  simp [reset, setGroup]

@[simp] theorem reset_setRepeat (registers : Registers) (id : Nat) (register : RepeatRegister) :
    (registers.setRepeat id register).reset = registers.reset := by
  simp [reset, setRepeat]

end Registers

end PatternMachine
