import PatternMachine.Search.Assertion
import PatternMachine.Search.Frame

/-!
# Stars

A star takes as many characters as it can and leaves a choice before each of them.  When it is known
which byte must follow, choices before other bytes are pointless and left out; an ASCII byte is
moreover never part of a longer character, so it may be looked for byte by byte.
-/

namespace PatternMachine

/-- What a star does about the characters it comes to. -/
structure Star where
  /-- Whether it takes line terminators. -/
  acrossLines : Bool
  /-- The byte that must follow, if that is known. -/
  peeked : Option UInt8
  /-- Where the search goes on behind the star. -/
  next : Nat
  deriving DecidableEq, Repr

namespace Star

/-- Whether a star leaves a choice before the character at a position. -/
@[inline] def leavesChoice (star : Star) (text : Text) (position : Nat) : Bool :=
  match star.peeked with
  | some byte => text.byte position == byte
  | none => true

/-- Whether a star fails because of a line terminator at a position. -/
@[inline] def failsAt (star : Star) (text : Text) (position : Nat) : Bool :=
  !star.acrossLines && text.newlineAt position

/-- The choice to take no more characters from a cursor on. -/
@[inline] def choice (star : Star) (cursor : Cursor) : Frame :=
  .choice ⟨star.next, cursor⟩

end Star

namespace Text

/-- The first position from `position` on, and before `stop`, that holds a byte. -/
def findByte? (text : Text) (byte : UInt8) (position stop : Nat) : Option Nat :=
  if position < stop then
    if text.byte position == byte then some position
    else text.findByte? byte (position + 1) stop
  else
    none
termination_by stop - position

theorem findByte?_bounds {text : Text} {byte : UInt8} {position stop found : Nat}
    (isFound : text.findByte? byte position stop = some found) :
    position ≤ found ∧ found < stop := by
  fun_induction text.findByte? byte position stop with
  | case1 position inside _ =>
    cases isFound
    exact ⟨Nat.le_refl _, inside⟩
  | case2 position _ _ ih =>
    obtain ⟨later, before⟩ := ih isFound
    exact ⟨Nat.le_of_succ_le later, before⟩
  | case3 => cases isFound

end Text

end PatternMachine
