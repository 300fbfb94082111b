import PatternMachine.Text.Alphanumeric
import PatternMachine.Text.Lowercase

/-!
# Character encodings

An encoding says how many bytes a lead byte announces, which code points are word characters, and
how characters are folded for comparisons that ignore case.  Nothing is rejected as malformed: a
byte that announces nothing is a character by itself, so that stepping through a text always makes
progress.
-/

namespace PatternMachine

/-- How bytes are read as characters. -/
inductive Encoding where
  /-- One byte is one character. -/
  | ascii
  /-- One to four bytes are one character. -/
  | utf8
  deriving DecidableEq, Repr

namespace Encoding

/-- The registered name of the encoding. -/
def name : Encoding → String
  | .ascii => "US-ASCII"
  | .utf8 => "UTF-8"

/-- How many bytes a character that starts with this byte should have. -/
@[inline] def announced (encoding : Encoding) (lead : UInt8) : Nat :=
  match encoding with
  | .ascii => 1
  | .utf8 =>
    if lead < 0xc2 then 1
    else if lead < 0xe0 then 2
    else if lead < 0xf0 then 3
    else if lead < 0xf5 then 4
    else 1

theorem announced_pos (encoding : Encoding) (lead : UInt8) : 0 < encoding.announced lead := by
  unfold announced
  repeat' split
  all_goals decide

theorem announced_le (encoding : Encoding) (lead : UInt8) : encoding.announced lead ≤ 4 := by
  unfold announced
  repeat' split
  all_goals decide

@[simp] theorem announced_ascii (lead : UInt8) : Encoding.ascii.announced lead = 1 := rfl

/-- Whether a code point below `0x80` is a letter, a digit or the underscore. -/
def isAsciiWord (code : Nat) : Bool :=
  (0x30 ≤ code && code ≤ 0x39) || (0x41 ≤ code && code ≤ 0x5a) || code == 0x5f ||
    (0x61 ≤ code && code ≤ 0x7a)

/-- Whether a code point is a word character: a letter, a numeral or the underscore.  In one-byte
text only those of ASCII count. -/
def isWord (encoding : Encoding) (code : Nat) : Bool :=
  if code < 0x80 then
    isAsciiWord code
  else
    match encoding with
    | .ascii => false
    | .utf8 => CodeRange.covers Alphanumeric.ranges code

/-- The code point that stands for all cases of a character.  Only one-to-one changes to lower case
are made, and in one-byte text only those of ASCII. -/
@[inline] def fold (encoding : Encoding) (code : Nat) : Nat :=
  if code < 0x80 then
    if 0x41 ≤ code && code ≤ 0x5a then code + 0x20 else code
  else
    match encoding with
    | .ascii => code
    | .utf8 => lowerCase code

end Encoding

end PatternMachine
