import PatternMachine.Text.Step

/-!
# Cursors

A search stands between two characters: it knows its position and where the character before it
starts.
-/

namespace PatternMachine

/-- A position of a text, together with the start of the character before it. -/
structure Cursor where
  position : Nat
  previous : Nat
  deriving DecidableEq, Repr, Inhabited

/-- The cursor behind one character of a given length. -/
@[inline] def Cursor.step (cursor : Cursor) (length : Nat) : Cursor :=
  ⟨cursor.position + length, cursor.position⟩

namespace Text

/-- The cursor at a position that was not reached by consuming anything.  At the start of the text
there is no character before it, and the position itself stands in for it. -/
def cursorAt (text : Text) (position : Nat) : Cursor :=
  ⟨position, (text.prevHead? 0 position).getD position⟩

/-- The cursor behind what was consumed from `cursor` up to `stop`. -/
@[inline] def cursorBehind (text : Text) (cursor : Cursor) (stop : Nat) : Cursor :=
  ⟨stop, text.lastHead cursor.position stop cursor.previous⟩

@[simp] theorem cursorBehind_self (text : Text) (cursor : Cursor) :
    text.cursorBehind cursor cursor.position = cursor := by
  simp [cursorBehind, lastHead]

end Text

end PatternMachine
