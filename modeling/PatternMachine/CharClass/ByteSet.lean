/-!
# Sets of byte values

A set of numbers below 256, one bit for each.  To the outside it is a row of eight 32-bit words:
number `n` is bit `n % 32` of word `n / 32`.
-/

namespace PatternMachine

/-- A set of numbers below 256. -/
structure ByteSet where
  bits : BitVec 256
  deriving DecidableEq, Repr

namespace ByteSet

/-- The set without members. -/
def empty : ByteSet :=
  ⟨0#256⟩

/-- Membership; no number from 256 up is a member. -/
def contains (set : ByteSet) (number : Nat) : Bool :=
  set.bits.getLsbD number

/-- Adds a number below 256; a larger one changes nothing. -/
def insert (set : ByteSet) (number : Nat) : ByteSet :=
  if number < 256 then ⟨set.bits ||| BitVec.twoPow 256 number⟩ else set

/-- Adds the numbers from `first` to `last`, none if `last` is below `first`. -/
def insertRange (set : ByteSet) (first last : Nat) : ByteSet :=
  (List.range' first (last + 1 - first)).foldl insert set

/-- The set of the given bytes. -/
def ofBytes (bytes : Array UInt8) : ByteSet :=
  bytes.foldl (fun set byte => set.insert byte.toNat) empty

/-- Which of the eight words holds a number. -/
def wordIndex (number : Nat) : Nat :=
  number >>> 5

/-- The bit of a number in its word. -/
def wordMask (number : Nat) : Nat :=
  1 <<< (number % 32)

/-- The eight words, lowest numbers first. -/
def words (set : ByteSet) : List Nat :=
  (List.range 8).map fun index => (set.bits.toNat >>> (32 * index)) % 0x100000000

@[simp] theorem contains_empty (number : Nat) : empty.contains number = false := by
  simp [contains, empty]

@[simp] theorem contains_insert (set : ByteSet) (added number : Nat) :
    (set.insert added).contains number =
      (set.contains number || (decide (number < 256) && number == added)) := by
  unfold insert contains
  split
  · simp only [BitVec.getLsbD_or, BitVec.getLsbD_twoPow]
    grind
  · grind

theorem contains_eq_false_of_le {set : ByteSet} {number : Nat} (large : 256 ≤ number) :
    set.contains number = false :=
  BitVec.getLsbD_of_ge set.bits number large

end ByteSet

end PatternMachine
