import PatternMachine.Search.BackReference
import PatternMachine.Search.Plan

/-!
# Consuming characters

Literals, classes, any characters and back references consume what stands at the cursor, or fail.
Nothing from the end of the attempt on is consumed.
-/

namespace PatternMachine

variable (attempt : Attempt) (point : Point) (store : Store)

namespace Plan

/-- Consumes one character if its code point is accepted. -/
@[inline] def oneChar (accepts : Nat → Bool) : Plan :=
  let cursor := point.cursor
  match attempt.text.charAt? cursor.position attempt.range with
  | some character =>
    if accepts character.code then .goto point.next (cursor.step character.length) else .fail
  | none => .fail

/-- Consumes a literal. -/
@[inline] def literal (excerpt : Excerpt) : Plan :=
  let stop := attempt.text.matchExcerpt? point.cursor.position attempt.range excerpt
    attempt.ignoresCase
  .consumed point.next (stop.map (attempt.text.cursorBehind point.cursor))

/-- Consumes a literal byte.  Where case is ignored this may be a longer character, and the cursor
remembers its start. -/
@[inline] def literalByte (value : UInt8) : Plan :=
  let stop := attempt.text.matchByte? point.cursor.position attempt.range value
    attempt.ignoresCase
  .consumed point.next (stop.map (⟨·, point.cursor.position⟩))

/-- Consumes characters that fold to given code points. -/
def foldedChars (codes : List Nat) : Plan :=
  let stop := attempt.text.matchCodes? point.cursor.position attempt.range codes
  .consumed point.next (stop.map (attempt.text.cursorBehind point.cursor))

/-- Consumes a character of a class. -/
@[inline] def charClass (operand : ClassOperand) : Plan :=
  let cursor := point.cursor
  match attempt.text.charAt? cursor.position attempt.range with
  | none => .fail
  | some character =>
    match operand.resolve? attempt.program.classes with
    | .ok members =>
      if members.contains character.code then .goto point.next (cursor.step character.length)
      else .fail
    | .error index => .corrupt (.invalidClass index)

/-- Consumes any character, a line terminator only if allowed. -/
@[inline] def anyChar (acrossLines : Bool) : Plan :=
  let position := point.cursor.position
  if attempt.text.hasChar position attempt.range &&
      (acrossLines || attempt.options.multiline || !attempt.text.newlineAt position) then
    .goto point.next (point.cursor.step (attempt.text.charLength position))
  else
    .fail

/-- Consumes as many characters as possible. -/
@[inline] def anyCharStar (acrossLines : Bool) (peeked : Option UInt8) : Plan :=
  let star : Star := ⟨acrossLines || attempt.options.multiline, peeked, point.next⟩
  match acrossLines, peeked with
  | true, some next => if next < 0x80 then ⟨[], .leap star next⟩ else ⟨[], .sweep star⟩
  | _, _ => ⟨[], .sweep star⟩

/-- Consumes a repetition of a capture. -/
def backReference (reference : BackReference) : Plan :=
  match reference.repeat? attempt store point.cursor.position with
  | .ok stop => .consumed point.next (stop.map (attempt.text.cursorBehind point.cursor))
  | .error reason => .corrupt reason

end Plan

end PatternMachine
