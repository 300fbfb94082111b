import PatternMachine.Text.Basic

/-!
# Excerpts

Literals and captures are parts of a text that are looked for elsewhere.  They are compared byte by
byte, or, when case is ignored, folded character by folded character.  Folded characters may differ
in their numbers of bytes, so such a comparison decides how much text it takes.  No comparison goes
far beyond the first difference: `Text.agree` takes long excerpts in pieces, and
`Text.agree_iff` says that the pieces make up the whole.
-/

namespace PatternMachine

/-- The bytes of a text from `first` up to, but without, `last`. -/
structure Excerpt where
  source : Text
  first : Nat
  last : Nat
  /-- Whether a character that reaches beyond `last` is cut down to what lies before.  Otherwise
  nothing is the same as such a character. -/
  cutsLast : Bool
  deriving DecidableEq

namespace Excerpt

/-- All of a text. -/
@[inline] def whole (source : Text) : Excerpt :=
  ⟨source, 0, source.size, true⟩

/-- What a group has captured. -/
@[inline] def captured (source : Text) (first last : Nat) : Excerpt :=
  ⟨source, first, last, false⟩

/-- The number of bytes, 0 if the excerpt ends before it starts. -/
@[inline] def size (excerpt : Excerpt) : Nat :=
  excerpt.last - excerpt.first

/-- The character of an excerpt at a position of its source. -/
@[inline] def char? (excerpt : Excerpt) (position : Nat) : Option Character :=
  if position < excerpt.last &&
      (excerpt.cutsLast || excerpt.source.hasChar position excerpt.last) then
    some (excerpt.source.charBefore position excerpt.last)
  else
    none

theorem char?_length_pos {excerpt : Excerpt} {position : Nat} {character : Character}
    (found : excerpt.char? position = some character) : 0 < character.length := by
  unfold char? at found
  split at found
  · next inside =>
    cases found
    exact Text.charBefore_length_pos _ (of_decide_eq_true (Bool.and_eq_true_iff.1 inside).1)
  · cases found

end Excerpt

namespace Text

/-! ### Byte by byte -/

/-- How many bytes are compared at once. -/
def pieceSize : Nat := 1024

/-- Whether two texts agree over `count` bytes from a position of each. -/
def agree (text : Text) (position : Nat) (source : Text) (first count : Nat) : Bool :=
  if count = 0 then
    true
  else
    let piece := min count pieceSize
    text.byte position == source.byte first &&
      decide (text.bytes.extract position (position + piece) =
        source.bytes.extract first (first + piece)) &&
      text.agree (position + piece) source (first + piece) (count - piece)
termination_by count
decreasing_by
  have : 0 < pieceSize := by decide
  omega

theorem byte_of_lt {text : Text} {position : Nat} (inside : position < text.bytes.size) :
    text.byte position = text.bytes[position] := by
  simp [byte, inside]

/-- Two pieces are the same when they agree at each place. -/
theorem extract_eq_extract_iff {text source : Text} {position first count : Nat}
    (inText : position + count ≤ text.size) (inSource : first + count ≤ source.size) :
    text.bytes.extract position (position + count) = source.bytes.extract first (first + count) ↔
      ∀ offset < count, text.byte (position + offset) = source.byte (first + offset) := by
  unfold size at inText inSource
  constructor
  · intro same offset inside
    have left := @ByteArray.getElem_extract offset text.bytes position (position + count)
      (by rw [ByteArray.size_extract]; omega)
    have right := @ByteArray.getElem_extract offset source.bytes first (first + count)
      (by rw [ByteArray.size_extract]; omega)
    rw [byte_of_lt (by omega), byte_of_lt (by omega), ← left, ← right]
    simp only [same]
  · intro agreeing
    apply ByteArray.ext
    apply Array.ext
    · rw [ByteArray.size_data, ByteArray.size_data, ByteArray.size_extract,
        ByteArray.size_extract]
      omega
    · intro offset inLeft inRight
      rw [ByteArray.size_data, ByteArray.size_extract] at inLeft inRight
      have equal := agreeing offset (by omega)
      rw [byte_of_lt (by omega), byte_of_lt (by omega)] at equal
      rw [← ByteArray.getElem_eq_getElem_data, ← ByteArray.getElem_eq_getElem_data,
        ByteArray.getElem_extract, ByteArray.getElem_extract, equal]

theorem agree_iff {text source : Text} {position first count : Nat}
    (inText : position + count ≤ text.size) (inSource : first + count ≤ source.size) :
    text.agree position source first count = true ↔
      ∀ offset < count, text.byte (position + offset) = source.byte (first + offset) := by
  fun_induction text.agree position source first count with
  | case1 => simp
  | case2 position first count nonempty piece ih =>
    have some_bytes : 0 < piece := by
      have : 0 < pieceSize := by decide
      omega
    have within : piece ≤ count := Nat.min_le_left count pieceSize
    rw [Bool.and_eq_true, Bool.and_eq_true, beq_iff_eq, decide_eq_true_iff,
      extract_eq_extract_iff (by omega) (by omega), ih (by omega) (by omega)]
    constructor
    · rintro ⟨⟨_, front⟩, back⟩ offset inside
      by_cases early : offset < piece
      · exact front offset early
      · have := back (offset - piece) (by omega)
        rwa [show position + piece + (offset - piece) = position + offset by omega,
          show first + piece + (offset - piece) = first + offset by omega] at this
    · intro all
      refine ⟨⟨all 0 (by omega), fun offset inside => all offset (by omega)⟩, ?_⟩
      intro offset inside
      have := all (piece + offset) (by omega)
      rwa [← Nat.add_assoc, ← Nat.add_assoc] at this

/-- The position after an excerpt, if its bytes stand at `position` and before `range`. -/
@[inline] def matchBytes? (text : Text) (position range : Nat) (excerpt : Excerpt) : Option Nat :=
  let stop := position + excerpt.size
  if stop ≤ range && text.agree position excerpt.source excerpt.first excerpt.size then some stop
  else none

/-! ### Folded character by folded character -/

/-- The position after the characters at `position`, if they lie before `range` and fold to the same
code points, one by one, as those of an excerpt from `from` on. -/
def matchFoldedFrom? (text : Text) (range : Nat) (excerpt : Excerpt) (start position : Nat) :
    Option Nat :=
  if start < excerpt.last then
    match _wanted : excerpt.char? start with
    | some wanted =>
      match text.charAt? position range with
      | some found =>
        if text.encoding.fold wanted.code = text.encoding.fold found.code then
          text.matchFoldedFrom? range excerpt (start + wanted.length) (position + found.length)
        else
          none
      | none => none
    | none => none
  else
    some position
termination_by excerpt.last - start
decreasing_by
  have := Excerpt.char?_length_pos _wanted
  omega

/-- The position after the characters at `position`, if they lie before `range` and fold to the
given code points one by one. -/
def matchCodes? (text : Text) (position range : Nat) : List Nat → Option Nat
  | [] => some position
  | code :: codes =>
    match text.charAt? position range with
    | some character =>
      if text.encoding.fold character.code = code then
        text.matchCodes? (position + character.length) range codes
      else
        none
    | none => none

/-! ### Both ways -/

/-- The position after an excerpt, if it stands at `position` and before `range`, compared byte by
byte or, when `ignoreCase` is set, folded character by folded character. -/
@[inline] def matchExcerpt? (text : Text) (position range : Nat) (excerpt : Excerpt)
    (ignoreCase : Bool) : Option Nat :=
  if ignoreCase then text.matchFoldedFrom? range excerpt excerpt.first position
  else text.matchBytes? position range excerpt

/-- The position after a byte, which is compared in the same way as an excerpt of one byte. -/
@[inline] def matchByte? (text : Text) (position range : Nat) (value : UInt8) (ignoreCase : Bool) :
    Option Nat :=
  if ignoreCase then text.matchCodes? position range [text.encoding.fold value.toNat]
  else if position < range && text.byte position == value then some (position + 1)
  else none

end Text

end PatternMachine
