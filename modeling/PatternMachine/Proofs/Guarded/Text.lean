import Mathlib.Algebra.Group.Int.Defs
import Mathlib.Algebra.Group.Nat.Defs
import PatternMachine.Search.Assertion
import PatternMachine.Search.Star
import PatternMachine.Text.Excerpt

/-!
# Reading texts under guard

Texts are read here once more, by functions that have no result where an access would lie outside: a
slice or a byte beyond the text, or a difference below zero.  Each of them is proved to have the
result of the function that runs, as long as the span lies in the text.
-/

namespace PatternMachine

namespace Text

/-- The part of a text from `first` up to, but without, `last`. -/
def window (text : Text) (first last : Nat) : Text :=
  ⟨text.bytes.extract first last, text.encoding⟩

variable {text : Text} {first last : Nat}

theorem size_window (inside : last ≤ text.size) : (text.window first last).size = last - first := by
  simp only [window, size, ByteArray.size_extract] at inside ⊢
  rw [Nat.min_eq_left inside]

theorem byte_window (inside : last ≤ text.size) {offset : Nat} (within : first + offset < last) :
    (text.window first last).byte offset = text.byte (first + offset) := by
  have short : offset < (text.window first last).bytes.size := by
    have := @size_window text first last inside
    unfold size at this
    omega
  have long : first + offset < text.bytes.size := Nat.lt_of_lt_of_le within inside
  rw [byte_of_lt short, byte_of_lt long]
  exact ByteArray.getElem_extract short

end Text

namespace Guarded

/-! ### Differences, slices and bytes -/

/-- The difference of two numbers, if it is not negative. -/
def sub (left right : Nat) : Option Nat :=
  if right ≤ left then some (left - right) else none

/-- A number cut down or up to a range, if the range is one. -/
def clamp (number low high : Nat) : Option Nat :=
  if low ≤ high then some (max low (min number high)) else none

/-- The part of a text from `first` up to `last`, if the text has it. -/
def slice (text : Text) (first last : Nat) : Option Text :=
  if first ≤ last ∧ last ≤ text.size then some (text.window first last) else none

/-- The byte at a position, if the text has it. -/
def byte (text : Text) (position : Nat) : Option UInt8 :=
  text.bytes[position]?

theorem sub_eq {left right : Nat} (within : right ≤ left) : sub left right = some (left - right) :=
  if_pos within

variable {text : Text} {position stop range : Nat}

theorem slice_eq {first last : Nat} (ordered : first ≤ last) (inside : last ≤ text.size) :
    slice text first last = some (text.window first last) :=
  if_pos ⟨ordered, inside⟩

theorem byte_eq (inside : position < text.size) :
    byte text position = some (text.byte position) := by
  rw [byte, Text.byte_of_lt inside]
  exact getElem?_pos text.bytes position inside

theorem byte_window (inside : stop ≤ text.size) {offset : Nat} (within : position + offset < stop) :
    byte (text.window position stop) offset = some (text.byte (position + offset)) := by
  rw [byte_eq, Text.byte_window inside within]
  rw [Text.size_window inside]
  omega

/-! ### Characters -/

/-- The number of bytes of the character at a position. -/
def charLength (text : Text) (position : Nat) : Option Nat :=
  if text.size ≤ position then
    some 1
  else do
    let rest ← slice text position text.size
    let lead ← byte rest 0
    let left ← sub text.size position
    clamp (text.encoding.announced lead) 1 left

/-- Appends the payload bits of `count` bytes of a slice, the first of which stands at
`position`. -/
def appendPayloads (slice : Text) (code position : Nat) : (count : Nat) → Option Nat
  | 0 => some code
  | count + 1 => do
      let next ← byte slice position
      appendPayloads slice (Text.appendPayload code next) (position + 1) count

/-- The code point of the character that a slice starts with. -/
def decode (slice : Text) : Option Nat := do
  let lead ← byte slice 0
  let length := min (slice.encoding.announced lead) slice.size
  if 1 < length then
    let payload ← sub 6 (length - 1)
    appendPayloads slice (lead.toNat % 2 ^ payload) 1 (length - 1)
  else
    some lead.toNat

/-- The character at a position, if it lies wholly before `range`. -/
def charAt (text : Text) (position range : Nat) : Option (Option Character) :=
  if range ≤ position then
    some none
  else do
    let length ← charLength text position
    if range < position + length then
      some none
    else
      let character ← slice text position (position + length)
      let code ← decode character
      some (some ⟨code, length⟩)

theorem charLength_eq (text : Text) (position : Nat) :
    charLength text position = some (text.charLength position) := by
  unfold charLength Text.charLength
  by_cases inside : position < text.size
  · have announced := text.encoding.announced_pos (text.byte position)
    have first := @byte_window text position text.size (Nat.le_refl _) 0 inside
    rw [if_neg (Nat.not_le.2 inside), if_pos inside]
    simp only [slice_eq (Nat.le_of_lt inside) (Nat.le_refl _), Option.bind_eq_bind,
      Option.bind_some, first, sub_eq (Nat.le_of_lt inside), Nat.add_zero]
    rw [clamp, if_pos (by omega)]
    congr 1
    omega
  · rw [if_pos (Nat.not_lt.1 inside), if_neg inside]

theorem charLength_pos {length : Nat} (found : charLength text position = some length) :
    0 < length := by
  rw [charLength_eq] at found
  cases found
  exact text.charLength_pos position

theorem appendPayloads_window (inside : stop ≤ text.size) (code : Nat) {offset count : Nat}
    (within : position + offset + count ≤ stop) :
    appendPayloads (text.window position stop) code offset count =
      some (text.appendPayloads code (position + offset) count) := by
  induction count generalizing code offset with
  | zero => rfl
  | succ count ih =>
      rw [appendPayloads, byte_window inside (by omega), Text.appendPayloads]
      exact ih _ (by omega)

theorem decode_window (filled : position < stop) (inside : stop ≤ text.size) :
    decode (text.window position stop) = some (text.decode position stop) := by
  have first : byte (text.window position stop) 0 = some (text.byte position) :=
    byte_window inside filled
  have size := @Text.size_window text position stop inside
  have encoding : (text.window position stop).encoding = text.encoding := rfl
  have announced := text.encoding.announced_le (text.byte position)
  simp only [decode, Text.decode, first, Option.bind_eq_bind, Option.bind_some, size, encoding]
  generalize lengthEq :
    min (text.encoding.announced (text.byte position)) (stop - position) = length
  split
  · next long =>
      have bits : 2 ^ (6 - (length - 1)) = 0x80 >>> length := by
        obtain rfl | rfl | rfl : length = 2 ∨ length = 3 ∨ length = 4 := by omega
        · rfl
        · rfl
        · rfl
      rw [sub_eq (by omega), Option.bind_some, bits]
      exact appendPayloads_window inside _ (by omega)
  · rfl

theorem charAt_eq (text : Text) (position : Nat) (inside : range ≤ text.size) :
    charAt text position range = some (text.charAt? position range) := by
  unfold charAt Text.charAt?
  by_cases beyond : range ≤ position
  · rw [if_pos beyond, if_neg]
    simp only [Bool.and_eq_true, decide_eq_true_eq, not_and]
    omega
  · have positive := text.charLength_pos position
    rw [if_neg beyond, charLength_eq, Option.bind_eq_bind, Option.bind_some]
    by_cases cut : range < position + text.charLength position
    · rw [if_pos cut, if_neg]
      simp only [Bool.and_eq_true, decide_eq_true_eq, not_and]
      omega
    · rw [if_neg cut, slice_eq (by omega) (by omega), if_pos, Option.bind_eq_bind, Option.bind_some,
        decode_window (by omega) (by omega)]
      · rfl
      · simp only [Bool.and_eq_true, decide_eq_true_eq]
        omega

theorem charAt_length_pos {character : Character}
    (found : charAt text position range = some (some character)) : 0 < character.length := by
  unfold charAt at found
  split at found
  · cases found
  · obtain ⟨length, isLength, found⟩ := Option.bind_eq_some_iff.1 found
    split at found
    · cases found
    · obtain ⟨piece, _, found⟩ := Option.bind_eq_some_iff.1 found
      obtain ⟨code, _, found⟩ := Option.bind_eq_some_iff.1 found
      cases found
      exact charLength_pos isLength

theorem lt_of_charAt {character : Character}
    (found : charAt text position range = some (some character)) : position < range := by
  unfold charAt at found
  split at found
  · cases found
  · next within => exact Nat.lt_of_not_le within

/-! ### Stepping back -/

/-- Walks back from `position` over at most `steps` continuation bytes, not below `start`. -/
def skipBack (text : Text) (start : Nat) : (steps position : Nat) → Option Nat
  | 0, position => some position
  | steps + 1, position =>
      if start < position then do
        let here ← byte text position
        if Text.isContinuation here then
          let below ← sub position 1
          skipBack text start steps below
        else
          some position
      else
        some position

/-- The start of the character that contains the byte at `position`, not looking below `start`. -/
def headAt (text : Text) (start position : Nat) : Option Nat :=
  match text.encoding with
  | .ascii => some position
  | .utf8 =>
      if position ≤ start then
        some position
      else do
        let lead ← skipBack text start 3 position
        let owner ← byte text lead
        if Text.isContinuation owner then
          some position
        else
          let rest ← slice text lead text.size
          let first ← byte rest 0
          some (if position < lead + text.encoding.announced first then lead else position)

/-- The start of the character before `position`, if that is not `start` already. -/
def prevHead (text : Text) (start position : Nat) : Option (Option Nat) :=
  if position ≤ start then
    some none
  else do
    let last ← sub position 1
    let head ← headAt text start last
    some (some head)

/-- Goes back a number of characters, if there are that many after `start`. -/
def stepBack (text : Text) (start : Nat) : (characters position : Nat) → Option (Option Nat)
  | 0, position => some (some position)
  | characters + 1, position => do
      match ← prevHead text start position with
      | some head => stepBack text start characters head
      | none => some none

/-- The end of the last character that starts at `position` or later and lies before `range`. -/
def fittingEnd (text : Text) (position range : Nat) : Option Nat :=
  if range ≤ position then
    some position
  else do
    let last ← sub range 1
    let head ← headAt text position last
    let length ← charLength text head
    some (if head + length ≤ range then range else head)

/-- The start of the last character between `start` and `stop`, or `previous` if there is nothing
between them. -/
def lastHead (text : Text) (start stop previous : Nat) : Option Nat :=
  if start < stop then do
    let last ← sub stop 1
    headAt text start last
  else
    some previous

/-- The cursor at a position that was not reached by consuming anything. -/
def cursorAt (text : Text) (position : Nat) : Option Cursor := do
  let previous ← prevHead text 0 position
  some ⟨position, previous.getD position⟩

/-- The cursor behind what was consumed from `cursor` up to `stop`. -/
def cursorBehind (text : Text) (cursor : Cursor) (stop : Nat) : Option Cursor := do
  let previous ← lastHead text cursor.position stop cursor.previous
  some ⟨stop, previous⟩

theorem skipBack_eq (start steps : Nat) (inside : position < text.size) :
    skipBack text start steps position = some (text.skipBack start steps position) := by
  induction steps generalizing position with
  | zero => rfl
  | succ steps ih =>
      rw [skipBack, Text.skipBack]
      by_cases above : start < position
      · rw [if_pos above, byte_eq inside, Option.bind_eq_bind, Option.bind_some]
        by_cases continues : Text.isContinuation (text.byte position) = true
        · rw [if_pos continues, if_pos (by simp [above, continues]), sub_eq (by omega),
            Option.bind_eq_bind, Option.bind_some]
          exact ih (by omega)
        · rw [if_neg continues, if_neg (by simp [continues])]
      · rw [if_neg above, if_neg (by simp [above])]

theorem headAt_eq (start : Nat) (inside : position < text.size) :
    headAt text start position = some (text.headAt start position) := by
  unfold headAt Text.headAt
  cases text.encoding with
  | ascii => rfl
  | utf8 =>
      dsimp only
      by_cases atStart : position ≤ start
      · rw [if_pos atStart, if_pos atStart]
      · have lead := text.skipBack_le start 3 position
        have first : byte (text.window (text.skipBack start 3 position) text.size) 0 =
            some (text.byte (text.skipBack start 3 position)) :=
          byte_window (Nat.le_refl _) (Nat.lt_of_le_of_lt lead inside)
        rw [if_neg atStart, if_neg atStart, skipBack_eq start 3 inside, Option.bind_eq_bind,
          Option.bind_some, byte_eq (Nat.lt_of_le_of_lt lead inside), Option.bind_eq_bind,
          Option.bind_some]
        by_cases continues : Text.isContinuation (text.byte (text.skipBack start 3 position)) = true
        · rw [if_pos continues, if_neg (by simp [continues])]
        · rw [if_neg continues, slice_eq (by omega) (Nat.le_refl _), Option.bind_eq_bind,
            Option.bind_some, first, Option.bind_some]
          simp [continues]

theorem prevHead_eq (start : Nat) (inside : position ≤ text.size) :
    prevHead text start position = some (text.prevHead? start position) := by
  unfold prevHead Text.prevHead?
  split
  · rfl
  · rw [sub_eq (by omega), Option.bind_eq_bind, Option.bind_some, headAt_eq start (by omega)]
    rfl

theorem stepBack_eq (start characters : Nat) (inside : position ≤ text.size) :
    stepBack text start characters position = some (text.stepBack? start characters position) := by
  induction characters generalizing position with
  | zero => rfl
  | succ characters ih =>
      rw [stepBack, Text.stepBack?, prevHead_eq start inside, Option.bind_eq_bind, Option.bind_some]
      cases found : text.prevHead? start position with
      | none => rfl
      | some head =>
          exact ih (Nat.le_trans (Nat.le_of_lt (Text.prevHead?_lt found)) inside)

theorem fittingEnd_eq (position : Nat) (inside : range ≤ text.size) :
    fittingEnd text position range = some (text.fittingEnd position range) := by
  unfold fittingEnd Text.fittingEnd
  split
  · rfl
  · rw [sub_eq (by omega), Option.bind_eq_bind, Option.bind_some, headAt_eq position (by omega),
      Option.bind_some, charLength_eq]
    rfl

theorem lastHead_eq (start previous : Nat) (inside : stop ≤ text.size) :
    lastHead text start stop previous = some (text.lastHead start stop previous) := by
  unfold lastHead Text.lastHead
  split
  · rw [sub_eq (by omega), Option.bind_eq_bind, Option.bind_some]
    exact headAt_eq start (by omega)
  · rfl

theorem cursorAt_eq (inside : position ≤ text.size) :
    cursorAt text position = some (text.cursorAt position) := by
  rw [cursorAt, prevHead_eq 0 inside]
  rfl

theorem cursorBehind_eq (cursor : Cursor) (inside : stop ≤ text.size) :
    cursorBehind text cursor stop = some (text.cursorBehind cursor stop) := by
  rw [cursorBehind, lastHead_eq _ _ inside]
  rfl

/-! ### What stands at a position -/

/-- Whether a line terminator stands at a position. -/
def newlineAt (text : Text) (position : Nat) : Option Bool :=
  if position < text.size then do
    let rest ← slice text position text.size
    some (rest.bytes[0]? == some 0x0a)
  else
    some false

/-- Whether a word character stands at a position. -/
def wordAt (text : Text) (position : Nat) : Option Bool :=
  if position < text.size then do
    let length ← charLength text position
    let character ← slice text position (min text.size (position + length))
    let code ← decode character
    some (text.encoding.isWord code)
  else
    some false

/-- The first position from `position` on, and before `stop`, that holds a byte. -/
def findByte (text : Text) (wanted : UInt8) (position stop : Nat) : Option (Option Nat) :=
  if position < stop then do
    let rest ← slice text position stop
    some ((rest.findByte? wanted 0 rest.size).map (position + ·))
  else
    some none

theorem findByte_bounds {wanted : UInt8} {hit : Nat}
    (found : findByte text wanted position stop = some (some hit)) :
    position < stop ∧ position ≤ hit := by
  unfold findByte at found
  split at found
  · next filled =>
      obtain ⟨rest, _, found⟩ := Option.bind_eq_some_iff.1 found
      obtain ⟨offset, _, rfl⟩ := Option.map_eq_some_iff.1 (Option.some.inj found)
      exact ⟨filled, Nat.le_add_right _ _⟩
  · cases found

theorem newlineAt_eq (text : Text) (position : Nat) :
    newlineAt text position = some (text.newlineAt position) := by
  unfold newlineAt Text.newlineAt Text.isNewlineAt
  by_cases inside : position < text.size
  · have first : (text.window position text.size).bytes[0]? = some (text.byte position) :=
      @byte_window text position text.size (Nat.le_refl _) 0 inside
    rw [if_pos inside, slice_eq (Nat.le_of_lt inside) (Nat.le_refl _), Option.bind_eq_bind,
      Option.bind_some, first]
    simp [inside]
  · simp [inside]

theorem wordAt_eq (text : Text) (position : Nat) :
    wordAt text position = some (text.wordAt position) := by
  unfold wordAt Text.wordAt Text.isWordAt Text.codeAt
  by_cases inside : position < text.size
  · have positive := text.charLength_pos position
    have filled : position < min text.size (position + text.charLength position) := by omega
    have within : min text.size (position + text.charLength position) ≤ text.size :=
      Nat.min_le_left _ _
    rw [if_pos inside, charLength_eq, Option.bind_eq_bind, Option.bind_some,
      slice_eq (Nat.le_of_lt filled) within, Option.bind_eq_bind, Option.bind_some,
      decode_window filled within]
    simp [inside]
  · simp [inside]

theorem findByte?_window (wanted : UInt8) (inside : stop ≤ text.size) (offset : Nat) :
    ((text.window position stop).findByte? wanted offset (stop - position)).map (position + ·) =
      text.findByte? wanted (position + offset) stop := by
  induction left : stop - position - offset generalizing offset with
  | zero =>
      rw [Text.findByte?, if_neg (by omega), Text.findByte?, if_neg (by omega)]
      rfl
  | succ left ih =>
      have further : text.findByte? wanted (position + offset) stop =
          if text.byte (position + offset) == wanted then some (position + offset)
          else text.findByte? wanted (position + (offset + 1)) stop := by
        rw [Text.findByte?, if_pos (by omega)]
        rfl
      rw [Text.findByte?, if_pos (by omega), Text.byte_window inside (by omega), further]
      split
      · rfl
      · exact ih (offset + 1) (by omega)

theorem findByte_eq (wanted : UInt8) (position : Nat) (inside : stop ≤ text.size) :
    findByte text wanted position stop = some (text.findByte? wanted position stop) := by
  unfold findByte
  by_cases filled : position < stop
  · rw [if_pos filled, slice_eq (Nat.le_of_lt filled) inside, Option.bind_eq_bind, Option.bind_some,
      Text.size_window inside, findByte?_window wanted inside 0]
    rfl
  · rw [if_neg filled, Text.findByte?, if_neg filled]

end Guarded

end PatternMachine
