import PatternMachine.Proofs.Landing
import PatternMachine.Proofs.Stepping

/-!
# Boundaries of characters

A position of a well-formed text is a boundary if whole characters lead to it from the start, which is
so wherever no byte stands that only follows others (`Text.isBoundary_iff`).  A cursor knows where it is
if it stands at a boundary and remembers the start of the character before it.  What starts at a boundary
ends at one if it is read character by character, and so do the bytes of an excerpt, wherever they are
found, if they end with a whole character.
-/

namespace PatternMachine

namespace Text

/-- Whether whole characters lead from the start of a text to a position of it. -/
structure IsBoundary (text : Text) (position : Nat) : Prop where
  meets : text.Meets 0 position
  inText : position ≤ text.size

/-- Whether a cursor stands at the boundary behind a character whose start it remembers, or at the start
of the text, which it remembers itself. -/
inductive Knows (text : Text) : Cursor → Prop
  | start : Knows text ⟨0, 0⟩
  | behind {head : Nat} (meets : text.Meets 0 head) (inside : head < text.size) :
      Knows text ⟨head + text.charLength head, head⟩

variable {text : Text} {position stop range : Nat}

namespace IsBoundary

theorem zero (text : Text) : text.IsBoundary 0 :=
  ⟨.refl text 0, Nat.zero_le _⟩

/-- Behind a character that starts at a boundary there is another one. -/
theorem step (boundary : text.IsBoundary position) (inside : position < text.size) :
    text.IsBoundary (position + text.charLength position) :=
  ⟨boundary.meets.step, add_charLength_le inside⟩

/-- The end of a text is a boundary, even if the last character lacks bytes. -/
theorem size (text : Text) : text.IsBoundary text.size := by
  refine ⟨?_, Nat.le_refl _⟩
  obtain ⟨head, before, meets, within⟩ := text.exists_meets (Nat.zero_le text.size)
  rcases Nat.eq_or_lt_of_le before with rfl | inside
  · exact meets
  · exact absurd (add_charLength_le inside) (Nat.not_le.2 within)

end IsBoundary

namespace Knows

variable {cursor : Cursor}

theorem isBoundary (knows : text.Knows cursor) : text.IsBoundary cursor.position := by
  cases knows with
  | start => exact .zero text
  | behind meets inside => exact .step ⟨meets, Nat.le_of_lt inside⟩ inside

/-- The cursor behind a character that starts at a boundary knows where it is. -/
theorem step (boundary : text.IsBoundary position) (inside : position < text.size) :
    text.Knows ⟨position + text.charLength position, position⟩ :=
  .behind boundary.meets inside

end Knows

/-! ### Well-formed texts -/

section

variable (wellFormed : text.WellFormed)

include wellFormed

/-- The boundaries of a well-formed text are the positions at which no byte stands that only follows
others. -/
theorem isBoundary_iff :
    text.IsBoundary position ↔ position ≤ text.size ∧ text.follows position = false := by
  have meets_of_leads : ∀ {position}, position < text.size → text.follows position = false →
      text.Meets 0 position :=
    (wellFormed.unbroken 0 text.size).meets_of_leads (Nat.zero_le _)
  constructor
  · intro boundary
    refine ⟨boundary.inText, Bool.eq_false_iff.2 fun follows => ?_⟩
    have inside := lt_size_of_follows follows
    obtain ⟨head, before, stands, within⟩ := wellFormed position inside
    have apart : head < position := by
      refine Nat.lt_of_le_of_ne before ?_
      rintro rfl
      rw [stands.leads] at follows
      cases follows
    have earlier := Nat.lt_trans apart inside
    have met := meets_of_leads earlier stands.leads
    -- The boundary would lie inside of the character that the byte belongs to.
    refine absurd (met.le_of_lt boundary.meets apart) (Nat.not_le.2 ?_)
    rwa [wellFormed.charLength_eq earlier]
  · rintro ⟨inText, leads⟩
    rcases Nat.lt_or_eq_of_le inText with inside | rfl
    · exact ⟨meets_of_leads inside leads, inText⟩
    · exact .size text

/-- The cursor at a boundary that was not reached by consuming anything knows where it is. -/
theorem knows_cursorAt (boundary : text.IsBoundary position) :
    text.Knows (text.cursorAt position) := by
  rcases Nat.eq_zero_or_pos position with rfl | behind
  · exact .start
  · obtain ⟨head, meets, rfl⟩ := boundary.meets.exists_last behind
    have inside : head < text.size :=
      Nat.lt_of_lt_of_le (Nat.lt_add_of_pos_right (text.charLength_pos head)) boundary.inText
    have before := (wellFormed.unbroken 0 _).prevHead?_step meets (Nat.le_refl _)
    rw [cursorAt, before]
    exact .behind meets inside

/-- A cursor that knows where it is remembers nothing else than what its position tells. -/
theorem Knows.eq_cursorAt {cursor : Cursor} (knows : text.Knows cursor) :
    cursor = text.cursorAt cursor.position := by
  cases knows with
  | start => rfl
  | behind meets inside =>
      rw [cursorAt, (wellFormed.unbroken 0 _).prevHead?_step meets (Nat.le_refl _)]
      rfl

/-- The cursor behind what was consumed up to a boundary knows where it is. -/
theorem Knows.cursorBehind {cursor : Cursor} (knows : text.Knows cursor)
    (onward : cursor.position ≤ stop) (boundary : text.IsBoundary stop) :
    text.Knows (text.cursorBehind cursor stop) := by
  rcases Nat.eq_or_lt_of_le onward with rfl | behind
  · rwa [cursorBehind_self]
  · have start := knows.isBoundary.meets
    obtain ⟨head, meets, rfl⟩ := (start.between boundary.meets onward).exists_last behind
    have inside : head < text.size :=
      Nat.lt_of_lt_of_le (Nat.lt_add_of_pos_right (text.charLength_pos head)) boundary.inText
    rw [Text.cursorBehind, (wellFormed.unbroken _ _).lastHead meets (Nat.le_refl _)]
    exact .behind (start.trans meets) inside

/-- From a boundary one steps back over as many characters as there are before. -/
theorem IsBoundary.exists_stepBack? (boundary : text.IsBoundary position) :
    ∃ count, text.stepForward 0 count = position ∧ ∀ characters,
      text.stepBack? 0 characters position =
        if characters ≤ count then some (text.stepForward 0 (count - characters)) else none := by
  obtain ⟨count, rfl⟩ := boundary.meets
  exact ⟨count, rfl, (wellFormed.unbroken 0 _).stepBack?_stepForward (Nat.le_refl _)⟩

theorem IsBoundary.stepBack? {characters : Nat} (boundary : text.IsBoundary position)
    (found : text.stepBack? 0 characters position = some stop) : text.IsBoundary stop := by
  obtain ⟨count, -, back⟩ := boundary.exists_stepBack? wellFormed
  refine ⟨?_, Nat.le_trans (stepBack?_le found) boundary.inText⟩
  rw [back] at found
  split at found
  · cases found
    exact ⟨_, rfl⟩
  · cases found

/-- The last whole character of a span that starts at a boundary ends at one. -/
theorem IsBoundary.fittingEnd (boundary : text.IsBoundary position) (whole : range ≤ text.size) :
    text.IsBoundary (text.fittingEnd position range) := by
  refine ⟨boundary.meets.trans (wellFormed.unbroken position range).meets_fittingEnd, ?_⟩
  rcases Nat.le_total position range with within | beyond
  · exact Nat.le_trans (fittingEnd_le within) whole
  · rw [Text.fittingEnd, if_pos beyond]
    exact boundary.inText

end

/-! ### Character by character -/

section

variable (whole : range ≤ text.size)

include whole

theorem knows_charAt? {character : Character} (boundary : text.IsBoundary position)
    (found : text.charAt? position range = some character) :
    text.Knows ⟨position + character.length, position⟩ := by
  obtain ⟨⟨before, _⟩, rfl⟩ := charAt?_eq_some_iff.1 found
  exact .step boundary (Nat.lt_of_lt_of_le before whole)

theorem isBoundary_matchCodes? {codes : List Nat} (boundary : text.IsBoundary position)
    (found : text.matchCodes? position range codes = some stop) : text.IsBoundary stop := by
  induction codes generalizing position with
  | nil =>
      cases found
      exact boundary
  | cons code codes ih =>
      rw [matchCodes?] at found
      split at found
      · next character here =>
          split at found
          · exact ih (knows_charAt? whole boundary here).isBoundary found
          · cases found
      · cases found

theorem isBoundary_matchFoldedFrom? {excerpt : Excerpt} {start : Nat}
    (boundary : text.IsBoundary position)
    (found : text.matchFoldedFrom? range excerpt start position = some stop) :
    text.IsBoundary stop := by
  fun_induction text.matchFoldedFrom? range excerpt start position with
  | case1 start position _ wanted _ character here _ ih =>
      exact ih (knows_charAt? whole boundary here).isBoundary found
  | case2 | case3 | case4 => cases found
  | case5 =>
      cases found
      exact boundary

end

end Text

/-! ### Byte by byte -/

/-- Whether the last bytes of an excerpt, if it has any, are those that a byte announces that may stand
at the start of a character. -/
structure Excerpt.EndsWhole (excerpt : Excerpt) : Prop where
  inSource : excerpt.last ≤ excerpt.source.size
  ends : excerpt.first < excerpt.last → ∃ head, excerpt.first ≤ head ∧
    excerpt.source.follows head = false ∧ head + excerpt.source.announcedAt head = excerpt.last

namespace Text

variable {text source : Text} {position stop range first last : Nat} {excerpt : Excerpt}

theorem follows_congr {other : Nat} (sameEncoding : text.encoding = source.encoding)
    (same : text.byte position = source.byte other) :
    text.follows position = source.follows other := by
  rw [follows, follows, same, sameEncoding]

theorem announcedAt_congr {other : Nat} (sameEncoding : text.encoding = source.encoding)
    (same : text.byte position = source.byte other) :
    text.announcedAt position = source.announcedAt other := by
  rw [announcedAt, announcedAt, same, sameEncoding]

/-- What ends with a whole character ends at a boundary, wherever in a well-formed text it is found. -/
theorem isBoundary_matchBytes? (wellFormed : text.WellFormed) (whole : range ≤ text.size)
    (sameEncoding : text.encoding = excerpt.source.encoding) (endsWhole : excerpt.EndsWhole)
    (boundary : text.IsBoundary position)
    (found : text.matchBytes? position range excerpt = some stop) : text.IsBoundary stop := by
  have within := matchBytes?_le found
  simp only [matchBytes?] at found
  split at found
  · next agrees =>
      cases found
      rcases Nat.lt_or_ge excerpt.first excerpt.last with some_bytes | empty
      · obtain ⟨head, onward, leads, ends⟩ := endsWhole.ends some_bytes
        have positive := excerpt.source.encoding.announced_pos (excerpt.source.byte head)
        rw [← announcedAt] at positive
        have inSource := endsWhole.inSource
        rw [Excerpt.size] at within agrees ⊢
        have same := (agree_iff (by omega) (by omega)).1 (Bool.and_eq_true_iff.1 agrees).2
          (head - excerpt.first) (by omega)
        rw [Nat.add_sub_cancel' onward] at same
        have inside : position + (head - excerpt.first) < text.size := by omega
        have lead : text.IsBoundary (position + (head - excerpt.first)) := by
          refine (isBoundary_iff wellFormed).2 ⟨Nat.le_of_lt inside, ?_⟩
          rw [follows_congr sameEncoding same, leads]
        have next := lead.step inside
        rw [wellFormed.charLength_eq inside, announcedAt_congr sameEncoding same] at next
        rwa [show position + (excerpt.last - excerpt.first) = position + (head - excerpt.first) +
          excerpt.source.announcedAt head by omega]
      · rwa [Excerpt.size, Nat.sub_eq_zero_of_le empty]
  · cases found

/-- What is found, in either way of comparing, behind a boundary ends at one. -/
theorem isBoundary_matchExcerpt? (wellFormed : text.WellFormed) (whole : range ≤ text.size)
    (sameEncoding : text.encoding = excerpt.source.encoding) (endsWhole : excerpt.EndsWhole)
    (boundary : text.IsBoundary position) {ignoreCase : Bool}
    (found : text.matchExcerpt? position range excerpt ignoreCase = some stop) :
    text.IsBoundary stop := by
  unfold matchExcerpt? at found
  split at found
  · exact isBoundary_matchFoldedFrom? whole boundary found
  · exact isBoundary_matchBytes? wellFormed whole sameEncoding endsWhole boundary found

/-- A byte that is a character of its own is found, in either way of comparing, as one character. -/
theorem knows_matchByte? (wellFormed : text.WellFormed) (whole : range ≤ text.size) {value : UInt8}
    (single : text.encoding.announced value = 1) (boundary : text.IsBoundary position)
    {ignoreCase : Bool} (found : text.matchByte? position range value ignoreCase = some stop) :
    text.Knows ⟨stop, position⟩ := by
  unfold matchByte? at found
  split at found
  · rw [matchCodes?] at found
    split at found
    · next character here =>
        split at found
        · cases found
          exact knows_charAt? whole boundary here
        · cases found
    · cases found
  split at found
  · next here =>
      cases found
      obtain ⟨before, isValue⟩ := Bool.and_eq_true_iff.1 here
      have inside := Nat.lt_of_lt_of_le (of_decide_eq_true before) whole
      have knows := Knows.step boundary inside
      rwa [wellFormed.charLength_eq inside, announcedAt, eq_of_beq isValue, single] at knows
  · cases found

/-- In a well-formed text, what lies before a boundary ends whole. -/
theorem IsBoundary.exists_whole (wellFormed : source.WellFormed) (boundary : source.IsBoundary last)
    (start : source.IsBoundary first) (some_bytes : first < last) :
    ∃ head, first ≤ head ∧ source.follows head = false ∧ head + source.announcedAt head = last := by
  obtain ⟨head, meets, ends⟩ :=
    (start.meets.between boundary.meets (Nat.le_of_lt some_bytes)).exists_last some_bytes
  have positive := source.charLength_pos head
  have inText := boundary.inText
  have inside : head < source.size := by omega
  have lead : source.IsBoundary head := ⟨start.meets.trans meets, Nat.le_of_lt inside⟩
  refine ⟨head, meets.onward, ((isBoundary_iff wellFormed).1 lead).2, ?_⟩
  rwa [← wellFormed.charLength_eq inside]

/-- What was captured between two boundaries ends whole. -/
theorem endsWhole_captured (wellFormed : source.WellFormed) (start : source.IsBoundary first)
    (stop : source.IsBoundary last) : (Excerpt.captured source first last).EndsWhole :=
  ⟨stop.inText, stop.exists_whole wellFormed start⟩

/-- A part of a text that is a well-formed text of its own ends whole. -/
theorem endsWhole_of_extract (inSource : last ≤ source.size)
    (wellFormed : (⟨source.bytes.extract first last, source.encoding⟩ : Text).WellFormed)
    (cutsLast : Bool) : (⟨source, first, last, cutsLast⟩ : Excerpt).EndsWhole := by
  generalize isPart : (⟨source.bytes.extract first last, source.encoding⟩ : Text) = part
    at wellFormed
  have sameEncoding : source.encoding = part.encoding := by rw [← isPart]
  have size : part.size = last - first := by
    rw [← isPart, Text.size, ByteArray.size_extract]
    exact congrArg (· - first) (Nat.min_eq_left inSource)
  have same : ∀ offset < part.size, source.byte (first + offset) = part.byte offset := by
    subst isPart
    intro offset (inside : offset < (source.bytes.extract first last).size)
    have inSource : first + offset < source.bytes.size :=
      Nat.lt_of_lt_of_le (Nat.add_lt_of_lt_sub' (size ▸ inside)) inSource
    rw [byte_of_lt inSource, ← ByteArray.getElem_extract inside]
    exact (@byte_of_lt ⟨source.bytes.extract first last, _⟩ offset inside).symm
  refine ⟨inSource, fun (some_bytes : first < last) => ?_⟩
  obtain ⟨head, -, leads, ends⟩ := (IsBoundary.size part).exists_whole wellFormed (.zero part)
    (by rw [size]; exact Nat.sub_pos_of_lt some_bytes)
  have positive := part.encoding.announced_pos (part.byte head)
  rw [← announcedAt] at positive
  have here := same head (by omega)
  refine ⟨first + head, Nat.le_add_right _ _, ?_, ?_⟩
  · exact (follows_congr sameEncoding here).trans leads
  · have announced := announcedAt_congr sameEncoding here
    dsimp only
    omega

/-- The bytes of a well-formed text end whole. -/
theorem endsWhole_whole (wellFormed : source.WellFormed) : (Excerpt.whole source).EndsWhole :=
  ⟨Nat.le_refl _, (IsBoundary.size source).exists_whole wellFormed (.zero source)⟩

end Text

/-- Whether bytes encode characters: any bytes do where one byte is one character, and elsewhere those
that a string is encoded to. -/
def Encoding.Encodes : Encoding → ByteArray → Prop
  | .ascii, _ => True
  | .utf8, bytes => ∃ string : String, bytes = string.toUTF8

theorem Encoding.Encodes.wellFormed {encoding : Encoding} {bytes : ByteArray}
    (encodes : encoding.Encodes bytes) : (⟨bytes, encoding⟩ : Text).WellFormed := by
  cases encoding with
  | ascii => exact Text.wellFormed_of_ascii rfl
  | utf8 =>
      obtain ⟨string, isEncoded⟩ := encodes
      exact Text.wellFormed_of_string isEncoded

/-- A byte that encodes a character announces no other bytes. -/
theorem Encoding.Encodes.announced_eq_one {encoding : Encoding} {value : UInt8}
    (encodes : encoding.Encodes ⟨#[value]⟩) : encoding.announced value = 1 := by
  obtain ⟨head, before, stands, -⟩ := encodes.wellFormed 0 Nat.one_pos
  obtain rfl := Nat.eq_zero_of_le_zero before
  have fits : 0 + encoding.announced value ≤ 1 := stands.fits
  exact Nat.le_antisymm (by omega) (encoding.announced_pos value)

end PatternMachine
