import Mathlib.Data.Nat.Bitwise
import PatternMachine.CharClass
import PatternMachine.Proofs.Guarded.Text

/-!
# Comparing and classifying under guard

Literals, captures and classes are looked up here by functions that have no result where an access
would lie outside a text or a table.  As long as the span and the excerpt lie in their texts, each
has the result of the function that runs; the tables of classes need no condition at all.
-/

namespace PatternMachine

namespace Text

variable {text : Text} {first last : Nat}

theorem appendPayloads_window (inside : last ≤ text.size) (code : Nat) {offset count : Nat}
    (within : first + offset + count ≤ last) :
    (text.window first last).appendPayloads code offset count =
      text.appendPayloads code (first + offset) count := by
  induction count generalizing code offset with
  | zero => rfl
  | succ count ih =>
      rw [appendPayloads, appendPayloads, byte_window inside (by omega), Nat.add_assoc]
      exact ih _ (by omega)

theorem decode_window (inside : last ≤ text.size) {offset stop : Nat} (filled : offset < stop)
    (within : first + stop ≤ last) :
    (text.window first last).decode offset stop = text.decode (first + offset) (first + stop) := by
  have encoding : (text.window first last).encoding = text.encoding := rfl
  have length : first + stop - (first + offset) = stop - offset := by omega
  simp only [decode, encoding, byte_window inside (show first + offset < last by omega), length]
  split
  · rw [Nat.add_assoc]
    exact appendPayloads_window inside _ (by omega)
  · rfl

end Text

/-- Whether an excerpt lies in its text; a literal moreover does not end before it starts. -/
structure Excerpt.Inside (excerpt : Excerpt) : Prop where
  first : excerpt.first ≤ excerpt.source.size
  last : excerpt.last ≤ excerpt.source.size
  ordered : excerpt.cutsLast = true → excerpt.first ≤ excerpt.last

namespace Guarded

/-! ### Excerpts -/

/-- The position after an excerpt, if its bytes stand at `position` and before `range`. -/
def matchBytes (text : Text) (position range : Nat) (excerpt : Excerpt) : Option (Option Nat) :=
  let stop := position + excerpt.size
  if stop ≤ range then do
    let here ← slice text position stop
    let wanted ← slice excerpt.source excerpt.first (excerpt.first + excerpt.size)
    some (if here.bytes = wanted.bytes then some stop else none)
  else
    some none

/-- The character of an excerpt at a position of its source.  A literal is a slice of its own. -/
def excerptChar (excerpt : Excerpt) (position : Nat) : Option (Option Character) :=
  if excerpt.cutsLast then do
    let literal ← slice excerpt.source excerpt.first excerpt.last
    let offset ← sub position excerpt.first
    charAt literal offset literal.size
  else
    charAt excerpt.source position excerpt.last

theorem excerptChar_length_pos {excerpt : Excerpt} {position : Nat} {character : Character}
    (found : excerptChar excerpt position = some (some character)) : 0 < character.length := by
  unfold excerptChar at found
  split at found
  · obtain ⟨literal, _, found⟩ := Option.bind_eq_some_iff.1 found
    obtain ⟨offset, _, found⟩ := Option.bind_eq_some_iff.1 found
    exact charAt_length_pos found
  · exact charAt_length_pos found

/-- The position after the characters at `position`, if they lie before `range` and fold to the same
code points, one by one, as those of an excerpt from `start` on. -/
def matchFoldedFrom (text : Text) (range : Nat) (excerpt : Excerpt) (start position : Nat) :
    Option (Option Nat) :=
  if start < excerpt.last then
    match _wanted : excerptChar excerpt start with
    | none => none
    | some none => some none
    | some (some wanted) =>
        match charAt text position range with
        | none => none
        | some none => some none
        | some (some found) =>
            if text.encoding.fold wanted.code = text.encoding.fold found.code then
              matchFoldedFrom text range excerpt (start + wanted.length) (position + found.length)
            else
              some none
  else
    some (some position)
termination_by excerpt.last - start
decreasing_by
  have := excerptChar_length_pos _wanted
  omega

/-- The position after the characters at `position`, if they lie before `range` and fold to the
given code points one by one. -/
def matchCodes (text : Text) (position range : Nat) : List Nat → Option (Option Nat)
  | [] => some (some position)
  | code :: codes => do
      match ← charAt text position range with
      | some character =>
          if text.encoding.fold character.code = code then
            matchCodes text (position + character.length) range codes
          else
            some none
      | none => some none

/-- The position after an excerpt, if it stands at `position` and before `range`. -/
def matchExcerpt (text : Text) (position range : Nat) (excerpt : Excerpt) (ignoreCase : Bool) :
    Option (Option Nat) :=
  if ignoreCase then matchFoldedFrom text range excerpt excerpt.first position
  else matchBytes text position range excerpt

variable {text : Text} {position range : Nat} {excerpt : Excerpt}

theorem matchBytes_eq (within : range ≤ text.size) (inside : excerpt.Inside) (position : Nat) :
    matchBytes text position range excerpt = some (text.matchBytes? position range excerpt) := by
  have reaches : excerpt.first + excerpt.size ≤ excerpt.source.size := by
    have := inside.first
    have := inside.last
    unfold Excerpt.size
    omega
  unfold matchBytes Text.matchBytes?
  dsimp only
  by_cases fits : position + excerpt.size ≤ range
  · have agrees := @Text.agree_iff text excerpt.source position excerpt.first excerpt.size
      (Nat.le_trans fits within) reaches
    have same := Text.extract_eq_extract_iff (Nat.le_trans fits within) reaches
    rw [if_pos fits, slice_eq (Nat.le_add_right _ _) (Nat.le_trans fits within),
      slice_eq (Nat.le_add_right _ _) reaches, Option.bind_eq_bind, Option.bind_some,
      Option.bind_some]
    simp only [Text.window, fits, decide_true, Bool.true_and]
    congr 1
    apply if_congr (same.trans agrees.symm) rfl rfl
  · rw [if_neg fits, if_neg]
    simp [fits]

theorem excerptChar_eq (inside : excerpt.Inside) (after : excerpt.first ≤ position)
    (before : position < excerpt.last) :
    excerptChar excerpt position = some (excerpt.char? position) := by
  have last := inside.last
  unfold excerptChar Excerpt.char?
  cases cuts : excerpt.cutsLast with
  | false =>
      rw [if_neg Bool.noConfusion, charAt_eq _ _ last]
      have whole : Text.hasChar excerpt.source position excerpt.last = true ↔
          position + excerpt.source.charLength position ≤ excerpt.last := by
        rw [Text.hasChar_iff]
        exact and_iff_right before
      simp only [Text.charAt?, before, decide_true, Bool.true_and, Bool.false_or, whole,
        decide_eq_true_eq]
      split
      · next fits =>
          have length : min (excerpt.source.charLength position) (excerpt.last - position) =
              excerpt.source.charLength position := by omega
          simp only [Text.charBefore, length]
      · rfl
  | true =>
      have size := @Text.size_window excerpt.source excerpt.first excerpt.last last
      have byte : (excerpt.source.window excerpt.first excerpt.last).byte
          (position - excerpt.first) = excerpt.source.byte position := by
        rw [Text.byte_window last (by omega)]
        congr 1
        omega
      have length : (excerpt.source.window excerpt.first excerpt.last).charLength
          (position - excerpt.first) =
            min (excerpt.source.charLength position) (excerpt.last - position) := by
        simp only [Text.charLength, size, byte]
        rw [if_pos (by omega), if_pos (by omega)]
        dsimp only [Text.window]
        omega
      have positive := excerpt.source.charLength_pos position
      rw [if_pos rfl, slice_eq (inside.ordered cuts) last, Option.bind_eq_bind, Option.bind_some,
        sub_eq after, Option.bind_eq_bind, Option.bind_some, charAt_eq _ _ (Nat.le_refl _), size]
      rw [Text.charAt?, length, if_pos, if_pos, Text.decode_window last (by omega) (by omega)]
      · have back : excerpt.first + (position - excerpt.first) = position := by omega
        rw [← Nat.add_assoc, back]
        rfl
      · simp [before]
      · simp only [Bool.and_eq_true, decide_eq_true_eq]
        omega

theorem matchFoldedFrom_eq (within : range ≤ text.size) (inside : excerpt.Inside) {start : Nat}
    (after : excerpt.first ≤ start) (position : Nat) :
    matchFoldedFrom text range excerpt start position =
      some (text.matchFoldedFrom? range excerpt start position) := by
  induction left : excerpt.last - start using Nat.strongRecOn generalizing start position with
  | ind left ih =>
      rw [matchFoldedFrom, Text.matchFoldedFrom?]
      by_cases more : start < excerpt.last
      · rw [if_pos more, if_pos more]
        have wanted := excerptChar_eq inside after more
        cases found : excerpt.char? start with
        | none =>
            rw [found] at wanted
            split
            · next other => rw [wanted] at other; cases other
            · rfl
            · next other => rw [wanted] at other; cases other
        | some character =>
            have positive := Excerpt.char?_length_pos found
            rw [found] at wanted
            split
            · next other => rw [wanted] at other; cases other
            · next other => rw [wanted] at other; cases other
            · next character' same =>
                obtain rfl : character = character' := by
                  rw [wanted] at same
                  exact Option.some.inj (Option.some.inj same)
                rw [charAt_eq text position within]
                cases text.charAt? position range with
                | none => rfl
                | some here =>
                    dsimp only
                    split
                    · exact ih _ (by omega) (by omega) _ rfl
                    · rfl
      · rw [if_neg more, if_neg more]

theorem matchCodes_eq (within : range ≤ text.size) (codes : List Nat) (position : Nat) :
    matchCodes text position range codes = some (text.matchCodes? position range codes) := by
  induction codes generalizing position with
  | nil => rfl
  | cons code codes ih =>
      rw [matchCodes, Text.matchCodes?, charAt_eq text position within, Option.bind_eq_bind,
        Option.bind_some]
      cases text.charAt? position range with
      | none => rfl
      | some character =>
          dsimp only
          split
          · exact ih _
          · rfl

theorem matchExcerpt_eq (within : range ≤ text.size) (inside : excerpt.Inside) (position : Nat)
    (ignoreCase : Bool) :
    matchExcerpt text position range excerpt ignoreCase =
      some (text.matchExcerpt? position range excerpt ignoreCase) := by
  unfold matchExcerpt Text.matchExcerpt?
  split
  · exact matchFoldedFrom_eq within inside (Nat.le_refl _) position
  · exact matchBytes_eq within inside position

/-! ### Classes -/

/-- Whether a set of bytes holds a number, as its words say. -/
def bit (set : ByteSet) (number : Nat) : Option Bool :=
  if number < 256 then do
    let word ← set.words[ByteSet.wordIndex number]?
    some (word &&& ByteSet.wordMask number != 0)
  else
    some false

/-- The least position of a table whose range does not end before a code point. -/
def seek (table : Array CodeRange) (code low high : Nat) : Option Nat :=
  if low < high then do
    let middle := (low + high) / 2
    let range ← table[middle]?
    if range.last < code then seek table code (middle + 1) high else seek table code low middle
  else
    some low
termination_by high - low

/-- Whether a sorted table without overlaps has a range that holds a code point. -/
def covers (table : Array CodeRange) (code : Nat) : Option Bool := do
  let low ← seek table code 0 table.size
  if low < table.size then
    let range ← table[low]?
    some (range.first ≤ code)
  else
    some false

/-- Whether a code point belongs to a class. -/
def classContains (charClass : CharClass) (code : Nat) : Option Bool := do
  let found ← if code < 256 then bit charClass.bits code else covers charClass.ranges code
  some (found != charClass.negated)

theorem bit_eq (set : ByteSet) (number : Nat) : bit set number = some (set.contains number) := by
  unfold bit
  split
  · next small =>
      have index : ByteSet.wordIndex number < 8 := by
        rw [ByteSet.wordIndex, Nat.shiftRight_eq_div_pow]
        omega
      have parts : 32 * ByteSet.wordIndex number + number % 32 = number := by
        rw [ByteSet.wordIndex, Nat.shiftRight_eq_div_pow]
        omega
      have modulus : 0x100000000 = 2 ^ 32 := rfl
      rw [ByteSet.words, modulus, List.getElem?_map, List.getElem?_range index, Option.map_some,
        Option.bind_eq_bind, Option.bind_some, ByteSet.wordMask, Nat.one_shiftLeft,
        Nat.and_two_pow, Nat.testBit_mod_two_pow, Nat.testBit_shiftRight, parts,
        ByteSet.contains, BitVec.getLsbD]
      have inWord : number % 32 < 32 := Nat.mod_lt _ (by decide)
      cases set.bits.toNat.testBit number <;> simp [inWord]
  · next large => rw [ByteSet.contains_eq_false_of_le (Nat.not_lt.1 large)]

theorem seek_eq {table : Array CodeRange} {ends : Nat → Nat}
    (ends_eq : ∀ position (inside : position < table.size), ends position = table[position].last)
    (code low : Nat) {high : Nat} (inside : high ≤ table.size) :
    seek table code low high = some (OrderedTable.seek ends code low high) := by
  induction left : high - low using Nat.strongRecOn generalizing low high with
  | ind left ih =>
      rw [seek, OrderedTable.seek]
      by_cases more : low < high
      · have middle : (low + high) / 2 < table.size := by omega
        rw [if_pos more, if_pos more]
        dsimp only
        rw [Array.getElem?_eq_getElem middle, Option.bind_eq_bind, Option.bind_some,
          ends_eq _ middle]
        split
        · exact ih _ (by omega) _ inside rfl
        · exact ih _ (by omega) _ (by omega) rfl
      · rw [if_neg more, if_neg more]

theorem covers_eq (table : Array CodeRange) (code : Nat) :
    covers table code = some (CodeRange.covers table code) := by
  obtain ⟨ends, ends_eq, found⟩ := OrderedTable.exists_ends CodeRange.last table code
  rw [covers, seek_eq ends_eq code 0 (Nat.le_refl _), Option.bind_eq_bind, Option.bind_some,
    CodeRange.covers, found]
  by_cases inside : OrderedTable.seek ends code 0 table.size < table.size
  · rw [if_pos inside, Array.getElem?_eq_getElem inside]
    rfl
  · rw [if_neg inside, Array.getElem?_eq_none (Nat.not_lt.1 inside)]

theorem classContains_eq (charClass : CharClass) (code : Nat) :
    classContains charClass code = some (charClass.contains code) := by
  unfold classContains CharClass.contains
  split
  · rw [bit_eq]
    rfl
  · rw [covers_eq]
    rfl

/-! ### Assertions -/

/-- Whether exactly one side of the cursor is a word character. -/
def wordBoundary (text : Text) (range : Nat) (cursor : Cursor) : Option Bool :=
  if cursor.position = 0 then
    if cursor.position < range then wordAt text cursor.position else some false
  else if cursor.position = text.size then
    wordAt text cursor.previous
  else do
    let after ← wordAt text cursor.position
    let before ← wordAt text cursor.previous
    some (after != before)

/-- Whether a line ends at the cursor. -/
def lineEnd (text : Text) (options : Options) (cursor : Cursor) (finalOnly : Bool) : Option Bool :=
  if cursor.position = text.size then
    if text.size = 0 then
      some (!options.notLineEnd)
    else do
      let before ← newlineAt text cursor.previous
      some (before || !options.notLineEnd)
  else do
    let after ← newlineAt text cursor.position
    if after && finalOnly then
      let length ← charLength text cursor.position
      some (cursor.position + length == text.size)
    else
      some after

/-- Whether an assertion holds at a cursor. -/
def holds (text : Text) (options : Options) (range searchStart : Nat) (cursor : Cursor) :
    Assertion → Option Bool
  | .wordBoundary => wordBoundary text range cursor
  | .noWordBoundary => (wordBoundary text range cursor).map not
  | .wordBegin =>
      if cursor.position < range then do
        let after ← wordAt text cursor.position
        if after && cursor.position != 0 then (wordAt text cursor.previous).map not else some after
      else
        some false
  | .wordEnd =>
      if cursor.position = 0 then
        some false
      else do
        let before ← wordAt text cursor.previous
        if before && cursor.position != text.size then (wordAt text cursor.position).map not
        else some before
  | .textBegin => some (cursor.position == 0)
  | .textEnd => some (cursor.position == text.size)
  | .lineBegin =>
      if cursor.position = 0 then some (!options.notLineBegin)
      else (newlineAt text cursor.previous).map (· && cursor.position != text.size)
  | .lineEnd => lineEnd text options cursor false
  | .textEndOrFinalNewline => lineEnd text options cursor true
  | .searchBegin => some (cursor.position == searchStart)

theorem wordBoundary_eq (text : Text) (range : Nat) (cursor : Cursor) :
    wordBoundary text range cursor = some (text.wordBoundary range cursor) := by
  unfold wordBoundary Text.wordBoundary
  simp only [wordAt_eq, Option.bind_eq_bind, Option.bind_some]
  split
  · split
    · next inside => simp [inside]
    · next outside => simp [outside]
  · split <;> rfl

theorem lineEnd_eq (text : Text) (options : Options) (cursor : Cursor) (finalOnly : Bool) :
    lineEnd text options cursor finalOnly = some (text.lineEnd options cursor finalOnly) := by
  unfold lineEnd Text.lineEnd
  simp only [newlineAt_eq, charLength_eq, Option.bind_eq_bind, Option.bind_some]
  split
  · split
    · next empty => simp [empty]
    · next filled => cases text.newlineAt cursor.previous <;> simp [filled]
  · cases text.newlineAt cursor.position <;> cases finalOnly <;> simp

theorem holds_eq (text : Text) (options : Options) (range searchStart : Nat) (cursor : Cursor)
    (assertion : Assertion) :
    holds text options range searchStart cursor assertion =
      some (assertion.holds text options range searchStart cursor) := by
  cases assertion with
  | wordBoundary => exact wordBoundary_eq text range cursor
  | noWordBoundary =>
      simp only [holds, wordBoundary_eq, Option.map_some]
      rfl
  | wordBegin =>
      simp only [holds, Assertion.holds, wordAt_eq, Option.bind_eq_bind, Option.bind_some,
        Option.map_some, bne]
      by_cases inside : cursor.position < range
      · rw [if_pos inside, decide_eq_true inside]
        cases text.wordAt cursor.position <;> cases cursor.position == 0 <;> rfl
      · rw [if_neg inside, decide_eq_false inside]
        rfl
  | wordEnd =>
      simp only [holds, Assertion.holds, wordAt_eq, Option.bind_eq_bind, Option.bind_some,
        Option.map_some, bne]
      by_cases atStart : cursor.position = 0
      · rw [if_pos atStart, beq_iff_eq.2 atStart]
        rfl
      · rw [if_neg atStart, beq_eq_false_iff_ne.2 atStart]
        cases text.wordAt cursor.previous <;> cases cursor.position == text.size <;> rfl
  | lineBegin =>
      simp only [holds, Assertion.holds, newlineAt_eq, Option.map_some]
      split <;> rfl
  | lineEnd => exact lineEnd_eq text options cursor false
  | textEndOrFinalNewline => exact lineEnd_eq text options cursor true
  | textBegin | textEnd | searchBegin => rfl

end Guarded

end PatternMachine
