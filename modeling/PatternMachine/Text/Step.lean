import PatternMachine.Text.Basic

/-!
# Stepping over characters

Going forward, the length of a character is known from its first byte.  Going back, the first byte
has to be found: it is the nearest byte before that is not a continuation byte, if that one
announces enough bytes to reach so far.
-/

namespace PatternMachine

namespace Text

/-- Whether a byte can only stand behind the first byte of a character. -/
@[inline] def isContinuation (byte : UInt8) : Bool :=
  0x80 ≤ byte && byte < 0xc0

/-- Walks back from `position` over at most `steps` continuation bytes, not below `start`. -/
def skipBack (text : Text) (start : Nat) : (steps position : Nat) → Nat
  | 0, position => position
  | steps + 1, position =>
    if start < position && isContinuation (text.byte position) then
      text.skipBack start steps (position - 1)
    else
      position

theorem skipBack_le (text : Text) (start steps position : Nat) :
    text.skipBack start steps position ≤ position := by
  induction steps generalizing position with
  | zero => exact Nat.le_refl position
  | succ steps ih =>
    unfold skipBack
    split
    · exact Nat.le_trans (ih (position - 1)) (Nat.sub_le position 1)
    · exact Nat.le_refl position

theorem le_skipBack (text : Text) {start position : Nat} (steps : Nat) (above : start ≤ position) :
    start ≤ text.skipBack start steps position := by
  induction steps generalizing position with
  | zero => exact above
  | succ steps ih =>
    unfold skipBack
    split
    · next more =>
      have := (Bool.and_eq_true_iff.1 more).1
      exact ih (by have := of_decide_eq_true this; omega)
    · exact above

/-- The start of the character that contains the byte at `position`, not looking below `start`.  A
first byte owns only the bytes it announces: a continuation byte that no character reaches stands
alone. -/
def headAt (text : Text) (start position : Nat) : Nat :=
  match text.encoding with
  | .ascii => position
  | .utf8 =>
    if position ≤ start then
      position
    else
      let lead := text.skipBack start 3 position
      let owner := text.byte lead
      if !isContinuation owner && position < lead + text.encoding.announced owner then
        lead
      else
        position

theorem headAt_le (text : Text) (start position : Nat) : text.headAt start position ≤ position := by
  simp only [headAt]
  repeat' split
  all_goals first | exact Nat.le_refl position | exact text.skipBack_le start 3 position

theorem le_headAt (text : Text) {start position : Nat} (above : start ≤ position) :
    start ≤ text.headAt start position := by
  simp only [headAt]
  repeat' split
  all_goals first | exact above | exact text.le_skipBack 3 above

/-- The start of the character before `position`, if that is not `start` already. -/
def prevHead? (text : Text) (start position : Nat) : Option Nat :=
  if position ≤ start then none else some (text.headAt start (position - 1))

theorem prevHead?_lt {text : Text} {start position head : Nat}
    (found : text.prevHead? start position = some head) : head < position := by
  unfold prevHead? at found
  split at found
  · simp at found
  · have := text.headAt_le start (position - 1)
    simp only [Option.some.injEq] at found
    omega

/-- Goes back a number of characters, if there are that many after `start`. -/
def stepBack? (text : Text) (start : Nat) : (characters position : Nat) → Option Nat
  | 0, position => some position
  | characters + 1, position =>
    match text.prevHead? start position with
    | some head => text.stepBack? start characters head
    | none => none

/-- The end of the last character that starts at `position` or later and lies before `range`: a
character that `range` cuts is left out. -/
def fittingEnd (text : Text) (position range : Nat) : Nat :=
  if range ≤ position then
    position
  else
    let head := text.headAt position (range - 1)
    if head + text.charLength head ≤ range then range else head

/-- The start of the last character between `start` and `stop`, or `previous` if there is nothing
between them. -/
@[inline] def lastHead (text : Text) (start stop previous : Nat) : Nat :=
  if start < stop then text.headAt start (stop - 1) else previous

/-! ### All characters of a text -/

/-- The characters from a position on, each as its offset and its code point. -/
def charactersFrom (text : Text) (position : Nat) : List (Nat × Nat) :=
  if position < text.size then
    (position, text.codeAt position text.size) ::
      text.charactersFrom (position + text.charLength position)
  else
    []
termination_by text.size - position
decreasing_by
  have := text.charLength_pos position
  omega

/-- The offsets of the characters before a position, the last one first. -/
def headsBefore (text : Text) (position : Nat) : List Nat :=
  match _found : text.prevHead? 0 position with
  | some head => head :: text.headsBefore head
  | none => []
termination_by position
decreasing_by exact prevHead?_lt _found

end Text

end PatternMachine
