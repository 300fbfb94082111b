import PatternMachine.Bytes
import PatternMachine.Text.Encoding

/-!
# Texts

A text is an array of bytes together with the encoding that reads it.  A position is a byte offset.
A character is never longer than the bytes that are left, so every operation is defined on arbitrary
bytes.
-/

namespace PatternMachine

/-- Bytes, and how to read them. -/
structure Text where
  bytes : ByteArray
  encoding : Encoding
  deriving DecidableEq

/-- A character as it stands in a text: its code point and the number of its bytes. -/
structure Character where
  code : Nat
  length : Nat
  deriving DecidableEq, Repr

namespace Text

/-- The number of bytes. -/
@[inline] def size (text : Text) : Nat :=
  text.bytes.size

/-- The byte at a position, 0 past the end. -/
@[inline] def byte (text : Text) (position : Nat) : UInt8 :=
  if inside : position < text.bytes.size then text.bytes[position] else 0

/-- The number of bytes of the character at a position: what its first byte announces, cut down to
the bytes that are there. -/
def charLength (text : Text) (position : Nat) : Nat :=
  if position < text.size then
    min (text.encoding.announced (text.byte position)) (text.size - position)
  else
    1

theorem charLength_pos (text : Text) (position : Nat) : 0 < text.charLength position := by
  unfold charLength
  split
  · have := text.encoding.announced_pos (text.byte position)
    omega
  · exact Nat.one_pos

theorem add_charLength_le {text : Text} {position : Nat} (inside : position < text.size) :
    position + text.charLength position ≤ text.size := by
  simp only [charLength, inside, if_true]
  omega

/-- Appends the six payload bits of a continuation byte to a code point. -/
@[inline] def appendPayload (code : Nat) (continuation : UInt8) : Nat :=
  code * 64 + continuation.toNat % 64

/-- Appends the payload bits of `count` bytes, the first of which stands at `position`. -/
def appendPayloads (text : Text) (code position : Nat) : (count : Nat) → Nat
  | 0 => code
  | count + 1 =>
    text.appendPayloads (appendPayload code (text.byte position)) (position + 1) count

/-- The code point of the character whose bytes start at `position` and lie before `stop`.  A byte
that stands alone is its own code point; a longer character has the payload bits of its first byte,
of which there are fewer the longer it is, followed by those of the others.  Neither is checked for
being well-formed. -/
def decode (text : Text) (position stop : Nat) : Nat :=
  let lead := text.byte position
  let length := min (text.encoding.announced lead) (stop - position)
  if 1 < length then
    text.appendPayloads (lead.toNat % (0x80 >>> length)) (position + 1) (length - 1)
  else
    lead.toNat

/-- The code point at a position of a text that ends at `stop`. -/
def codeAt (text : Text) (position stop : Nat) : Nat :=
  text.decode position (min stop (position + text.charLength position))

/-- Whether a whole character stands at a position before `range`. -/
@[inline] def hasChar (text : Text) (position range : Nat) : Bool :=
  position < range && position + text.charLength position ≤ range

/-- The character at a position, cut down to what of it lies before `stop`. -/
@[inline] def charBefore (text : Text) (position stop : Nat) : Character :=
  let length := min (text.charLength position) (stop - position)
  ⟨text.decode position (position + length), length⟩

/-- The character at a position, if it lies wholly before `range`. -/
@[inline] def charAt? (text : Text) (position range : Nat) : Option Character :=
  let length := text.charLength position
  if position < range && position + length ≤ range then
    some ⟨text.decode position (position + length), length⟩
  else
    none

/-- Whether a line terminator stands at a position before `stop`. -/
@[inline] def isNewlineAt (text : Text) (position stop : Nat) : Bool :=
  position < stop && text.byte position == 0x0a

/-- Whether a word character stands at a position before `stop`. -/
def isWordAt (text : Text) (position stop : Nat) : Bool :=
  position < stop && text.encoding.isWord (text.codeAt position stop)

theorem hasChar_iff {text : Text} {position range : Nat} :
    text.hasChar position range = true ↔
      position < range ∧ position + text.charLength position ≤ range := by
  simp [hasChar]

theorem charAt?_eq_some_iff {text : Text} {position range : Nat} {character : Character} :
    text.charAt? position range = some character ↔
      (position < range ∧ position + text.charLength position ≤ range) ∧
        character =
          ⟨text.decode position (position + text.charLength position),
            text.charLength position⟩ := by
  simp only [charAt?, Bool.and_eq_true, decide_eq_true_eq]
  split
  · next whole => simp [whole, eq_comm]
  · next cut => simp [cut]

theorem charBefore_length_pos (text : Text) {position stop : Nat} (inside : position < stop) :
    0 < (text.charBefore position stop).length := by
  have := text.charLength_pos position
  simp only [charBefore]
  omega

/-! ### The same bytes in two texts -/

variable {text source : Text} {position start count : Nat}

theorem appendPayloads_congr {code : Nat}
    (same : ∀ offset < count, text.byte (position + offset) = source.byte (start + offset)) :
    text.appendPayloads code position count = source.appendPayloads code start count := by
  induction count generalizing code position start with
  | zero => rfl
  | succ count ih =>
      rw [appendPayloads, appendPayloads,
        show text.byte position = source.byte start from same 0 (Nat.succ_pos count)]
      refine ih fun offset inside => ?_
      rw [Nat.add_assoc, Nat.add_assoc, Nat.add_comm 1]
      exact same (offset + 1) (Nat.succ_lt_succ inside)

/-- The same bytes are the same character. -/
theorem decode_congr (sameEncoding : source.encoding = text.encoding) (filled : 0 < count)
    (same : ∀ offset < count, text.byte (position + offset) = source.byte (start + offset)) :
    text.decode position (position + count) = source.decode start (start + count) := by
  have first : text.byte position = source.byte start := same 0 filled
  simp only [decode, first, sameEncoding, Nat.add_sub_cancel_left]
  split
  · refine appendPayloads_congr fun offset inside => ?_
    rw [Nat.add_assoc, Nat.add_assoc, Nat.add_comm 1]
    exact same (offset + 1) (by omega)
  · rfl

end Text

end PatternMachine
