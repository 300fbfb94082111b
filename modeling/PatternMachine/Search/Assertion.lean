import PatternMachine.Options
import PatternMachine.Program.Instruction
import PatternMachine.Text.Cursor

/-!
# When assertions hold

Assertions look at the character before and the character after a position of the whole text,
whatever part of it the run may consume.  Only at the start of the text, and where a word begins,
does the end of that part matter.
-/

namespace PatternMachine

namespace Text

/-- Whether a word character starts at a position. -/
def wordAt (text : Text) (position : Nat) : Bool :=
  text.isWordAt position text.size

/-- Whether a line terminator stands at a position. -/
def newlineAt (text : Text) (position : Nat) : Bool :=
  text.isNewlineAt position text.size

/-- Whether exactly one side of the cursor is a word character. -/
def wordBoundary (text : Text) (range : Nat) (cursor : Cursor) : Bool :=
  if cursor.position = 0 then
    cursor.position < range && text.wordAt cursor.position
  else if cursor.position = text.size then
    text.wordAt cursor.previous
  else
    text.wordAt cursor.position != text.wordAt cursor.previous

/-- Whether a line ends at the cursor.  With `finalOnly` a line terminator counts only if it is the
last character of the text. -/
def lineEnd (text : Text) (options : Options) (cursor : Cursor) (finalOnly : Bool) : Bool :=
  if cursor.position = text.size then
    if text.size = 0 || !text.newlineAt cursor.previous then !options.notLineEnd else true
  else
    text.newlineAt cursor.position &&
      (!finalOnly || cursor.position + text.charLength cursor.position == text.size)

end Text

/-- Whether an assertion holds at a cursor. -/
def Assertion.holds (text : Text) (options : Options) (range searchStart : Nat) (cursor : Cursor) :
    Assertion → Bool
  | .wordBoundary => text.wordBoundary range cursor
  | .noWordBoundary => !text.wordBoundary range cursor
  | .wordBegin =>
    cursor.position < range && text.wordAt cursor.position &&
      (cursor.position == 0 || !text.wordAt cursor.previous)
  | .wordEnd =>
    cursor.position != 0 && text.wordAt cursor.previous &&
      (cursor.position == text.size || !text.wordAt cursor.position)
  | .textBegin => cursor.position == 0
  | .textEnd => cursor.position == text.size
  | .lineBegin =>
    if cursor.position = 0 then !options.notLineBegin
    else text.newlineAt cursor.previous && cursor.position != text.size
  | .lineEnd => text.lineEnd options cursor false
  | .textEndOrFinalNewline => text.lineEnd options cursor true
  | .searchBegin => cursor.position == searchStart

end PatternMachine
