import PatternMachine.Proofs.Expression.Leaf
import PatternMachine.Proofs.Stepping

/-!
# Ignoring case

What is found byte by byte is also found where case is ignored, because the same bytes are the same
characters, and these fold alike.  The exception is what ends in the middle of a character: bytes
end anywhere, but folded characters are whole.  `Text.ignoring_case_accepts_whole_characters` says
of both ways to compare when the second one finds what the first one has found.
-/

namespace PatternMachine

namespace Text

/-- Whether the last character on the way from an origin to a range announces bytes that are not
before the range. -/
def IsCut (text : Text) (origin range : Nat) : Prop :=
  ∃ head < range, text.Meets origin head ∧ range < head + text.announcedAt head

variable {text source : Text} {position start count range stop : Nat}

/-- Behind a whole character the same one is cut as before it. -/
theorem isCut_behind (inText : range ≤ text.size)
    (fits : start + text.announcedAt start ≤ range) :
    text.IsCut start range ↔ text.IsCut (start + text.announcedAt start) range := by
  have positive : 0 < text.announcedAt start := text.encoding.announced_pos _
  have length : text.charLength start = text.announcedAt start := by
    rw [charLength, if_pos (by omega)]
    exact Nat.min_eq_left (by rw [announcedAt] at fits; omega)
  have next := (Meets.refl text start).step
  rw [length] at next
  constructor
  · rintro ⟨head, before, meets, beyond⟩
    rcases Nat.eq_or_lt_of_le meets.onward with rfl | later
    · exact absurd fits (Nat.not_le.2 beyond)
    · have apart := (Meets.refl text start).le_of_lt meets later
      rw [length] at apart
      exact ⟨head, before, next.between meets apart, beyond⟩
  · rintro ⟨head, before, meets, beyond⟩
    exact ⟨head, before, next.trans meets, beyond⟩

/-! ### Folded character by folded character -/

variable {excerpt : Excerpt}

theorem matchFoldedFrom?_of_done (done : excerpt.last ≤ start) :
    text.matchFoldedFrom? range excerpt start position = some position := by
  rw [matchFoldedFrom?, if_neg (Nat.not_lt.2 done)]

/-- A character of the excerpt is compared with the one that stands in the text. -/
theorem matchFoldedFrom?_of_char? {wanted : Character} (inside : start < excerpt.last)
    (isWanted : excerpt.char? start = some wanted) :
    text.matchFoldedFrom? range excerpt start position =
      (text.charAt? position range).bind fun found =>
        if text.encoding.fold wanted.code = text.encoding.fold found.code then
          text.matchFoldedFrom? range excerpt (start + wanted.length) (position + found.length)
        else none := by
  rw [matchFoldedFrom?, if_pos inside]
  split
  · next other isOther =>
    obtain rfl : wanted = other := Option.some.inj (isWanted.symm.trans isOther)
    cases text.charAt? position range <;> rfl
  · next isNone =>
    rw [isWanted] at isNone
    cases isNone

/-- An excerpt that has no character where one should be is found nowhere. -/
theorem matchFoldedFrom?_of_no_char (inside : start < excerpt.last)
    (isNone : excerpt.char? start = none) :
    text.matchFoldedFrom? range excerpt start position = none := by
  rw [matchFoldedFrom?, if_pos inside]
  split
  · next other isOther =>
    rw [isNone] at isOther
    cases isOther
  · rfl

section

variable (sameEncoding : excerpt.source.encoding = text.encoding) (whole : range ≤ text.size)
  (inSource : excerpt.last ≤ excerpt.source.size) (within : stop ≤ range)
  (inside : start < excerpt.last) (ends : position + (excerpt.last - start) = stop)
  (same : ∀ offset < excerpt.last - start,
    text.byte (position + offset) = excerpt.source.byte (start + offset))

include sameEncoding whole inSource within inside ends same

/-- A whole character is found where its bytes are. -/
theorem matchFoldedFrom?_of_fits
    (fits : start + excerpt.source.announcedAt start ≤ excerpt.last) :
    text.matchFoldedFrom? range excerpt start position =
      text.matchFoldedFrom? range excerpt (start + excerpt.source.announcedAt start)
        (position + excerpt.source.announcedAt start) := by
  have first : text.byte position = excerpt.source.byte start := same 0 (by omega)
  have positive : 0 < excerpt.source.announcedAt start :=
    excerpt.source.encoding.announced_pos _
  have length : excerpt.source.charLength start = excerpt.source.announcedAt start := by
    rw [charLength, if_pos (by omega)]
    exact Nat.min_eq_left (by rw [announcedAt] at fits; omega)
  have length' : text.charLength position = excerpt.source.announcedAt start := by
    rw [charLength, if_pos (by omega), first, ← sameEncoding]
    exact Nat.min_eq_left (by rw [announcedAt] at fits; omega)
  have isWanted : excerpt.char? start =
      some ⟨excerpt.source.decode start (start + excerpt.source.announcedAt start),
        excerpt.source.announcedAt start⟩ := by
    have short : min (excerpt.source.announcedAt start) (excerpt.last - start) =
        excerpt.source.announcedAt start := Nat.min_eq_left (by omega)
    simp only [Excerpt.char?, hasChar, charBefore, length, short, inside, fits, decide_true,
      Bool.and_true, Bool.or_true, if_true]
  have found : text.charAt? position range =
      some ⟨text.decode position (position + excerpt.source.announcedAt start),
        excerpt.source.announcedAt start⟩ :=
    charAt?_eq_some_iff.2 ⟨⟨by omega, by omega⟩, by rw [length']⟩
  rw [matchFoldedFrom?_of_char? inside isWanted, found, Option.bind_some]
  refine if_pos ?_
  rw [decode_congr sameEncoding positive fun offset few => same offset (by omega)]

/-- A character that is cut is found where its bytes are only if it is cut there as well. -/
theorem matchFoldedFrom?_iff_of_cut
    (beyond : excerpt.last < start + excerpt.source.announcedAt start) :
    text.matchFoldedFrom? range excerpt start position = some stop ↔
      stop = text.size ∧ (excerpt.cutsLast = true ∨ excerpt.last = excerpt.source.size) := by
  have first : text.byte position = excerpt.source.byte start := same 0 (by omega)
  have length : excerpt.source.charLength start =
      min (excerpt.source.announcedAt start) (excerpt.source.size - start) := by
    rw [charLength, if_pos (by omega)]
    rfl
  have length' : text.charLength position =
      min (excerpt.source.announcedAt start) (text.size - position) := by
    rw [charLength, if_pos (by omega), first, ← sameEncoding]
    rfl
  have hasChar_iff : excerpt.source.hasChar start excerpt.last = true ↔
      excerpt.last = excerpt.source.size := by
    rw [hasChar_iff, length]
    omega
  by_cases shown : excerpt.cutsLast = true ∨ excerpt.last = excerpt.source.size
  · have isWanted : excerpt.char? start =
        some ⟨excerpt.source.decode start (start + (excerpt.last - start)),
          excerpt.last - start⟩ := by
      have short : min (excerpt.source.charLength start) (excerpt.last - start) =
          excerpt.last - start := by omega
      rw [← hasChar_iff, ← Bool.or_eq_true] at shown
      simp only [Excerpt.char?, charBefore, short, inside, shown, decide_true, Bool.and_true,
        if_true]
    rw [matchFoldedFrom?_of_char? inside isWanted, Option.bind_eq_some_iff]
    constructor
    · rintro ⟨character, found, taken⟩
      obtain ⟨_, rfl⟩ := charAt?_eq_some_iff.1 found
      split at taken
      · rw [matchFoldedFrom?_of_done (by dsimp only; omega), Option.some.injEq] at taken
        exact ⟨by dsimp only at taken; omega, shown⟩
      · cases taken
    · rintro ⟨atEnd, -⟩
      have length' : text.charLength position = excerpt.last - start := by omega
      refine ⟨⟨text.decode position (position + (excerpt.last - start)), excerpt.last - start⟩,
        charAt?_eq_some_iff.2 ⟨⟨by omega, by omega⟩, by rw [length']⟩, ?_⟩
      rw [if_pos, matchFoldedFrom?_of_done (by dsimp only; omega), ends]
      rw [decode_congr sameEncoding (by omega) same]
  · have isNone : excerpt.char? start = none := by
      rw [← hasChar_iff, ← Bool.or_eq_true, Bool.not_eq_true] at shown
      simp only [Excerpt.char?, shown, Bool.and_false, Bool.false_eq_true, if_false]
    rw [matchFoldedFrom?_of_no_char inside isNone]
    exact iff_of_false (Option.some_ne_none stop).symm fun both => shown both.2

end

/-- What stands in a text byte by byte is found there character by character, unless its last
character is cut otherwise. -/
theorem matchFoldedFrom?_iff_of_same (sameEncoding : excerpt.source.encoding = text.encoding)
    (whole : range ≤ text.size) (inSource : excerpt.last ≤ excerpt.source.size)
    (within : stop ≤ range) (onward : start ≤ excerpt.last)
    (ends : position + (excerpt.last - start) = stop)
    (same : ∀ offset < excerpt.last - start,
      text.byte (position + offset) = excerpt.source.byte (start + offset)) :
    text.matchFoldedFrom? range excerpt start position = some stop ↔
      (excerpt.source.IsCut start excerpt.last →
        stop = text.size ∧ (excerpt.cutsLast = true ∨ excerpt.last = excerpt.source.size)) := by
  induction left : excerpt.last - start using Nat.strongRecOn generalizing start position with
  | ind left ih =>
      rcases Nat.eq_or_lt_of_le onward with rfl | inside
      · rw [matchFoldedFrom?_of_done (Nat.le_refl _)]
        refine iff_of_true (congrArg some (by omega)) ?_
        rintro ⟨head, before, meets, -⟩
        exact absurd before (Nat.not_lt.2 meets.onward)
      · rcases Nat.lt_or_ge excerpt.last (start + excerpt.source.announcedAt start) with
          beyond | fits
        · rw [matchFoldedFrom?_iff_of_cut sameEncoding whole inSource within inside ends same
            beyond]
          exact (true_imp_iff.symm.trans (imp_congr_left
            (iff_of_true trivial ⟨start, inside, .refl _ _, beyond⟩)))
        · have positive : 0 < excerpt.source.announcedAt start :=
            excerpt.source.encoding.announced_pos _
          rw [matchFoldedFrom?_of_fits sameEncoding whole inSource within inside ends same fits,
            isCut_behind inSource fits]
          refine ih _ (by omega) fits (by omega) (fun offset few => ?_) rfl
          rw [Nat.add_assoc, Nat.add_assoc]
          exact same _ (by omega)

/-! ### Both ways -/

/-- A byte alone is cut if it announces others. -/
theorem isCut_byte_iff (encoding : Encoding) (value : UInt8) :
    (⟨⟨#[value]⟩, encoding⟩ : Text).IsCut 0 1 ↔ 1 < encoding.announced value := by
  constructor
  · rintro ⟨head, before, -, beyond⟩
    obtain rfl := Nat.lt_one_iff.1 before
    rw [Nat.zero_add] at beyond
    exact beyond
  · refine fun announces => ⟨0, Nat.one_pos, .refl _ 0, ?_⟩
    rw [Nat.zero_add]
    exact announces

/-- For every text, range, literal and capture: what is found byte by byte is found in the same
place where case is ignored, unless its last character, as one reads it from its start, announces
more bytes than it has.  Then it is found if and only if the text ends where it is found to end, and,
if it is a capture, the text that it was captured from ends with it.  A byte alone is a literal of
one byte. -/
theorem ignoring_case_accepts_whole_characters (whole : range ≤ text.size) :
    (∀ excerpt : Excerpt, excerpt.source.encoding = text.encoding →
      excerpt.last ≤ excerpt.source.size →
      text.matchExcerpt? position range excerpt false = some stop →
      (text.matchExcerpt? position range excerpt true = some stop ↔
        (excerpt.source.IsCut excerpt.first excerpt.last →
          stop = text.size ∧ (excerpt.cutsLast = true ∨ excerpt.last = excerpt.source.size)))) ∧
    ∀ value, text.matchByte? position range value false = some stop →
      (text.matchByte? position range value true = some stop ↔
        (1 < text.encoding.announced value → stop = text.size)) := by
  have excerpts : ∀ excerpt : Excerpt, excerpt.source.encoding = text.encoding →
      excerpt.last ≤ excerpt.source.size →
      text.matchExcerpt? position range excerpt false = some stop →
      (text.matchExcerpt? position range excerpt true = some stop ↔
        (excerpt.source.IsCut excerpt.first excerpt.last →
          stop = text.size ∧
            (excerpt.cutsLast = true ∨ excerpt.last = excerpt.source.size))) := by
    intro excerpt sameEncoding inSource found
    simp only [matchExcerpt?, matchBytes?, Bool.false_eq_true, if_false] at found
    split at found
    · next agrees =>
      cases found
      obtain ⟨within, agrees⟩ := Bool.and_eq_true_iff.1 agrees
      have within := of_decide_eq_true within
      rw [matchExcerpt?, if_pos rfl]
      rcases Nat.lt_or_ge excerpt.last excerpt.first with empty | onward
      · -- An excerpt that ends before it starts is found at once.
        rw [matchFoldedFrom?_of_done (Nat.le_of_lt empty)]
        refine iff_of_true (congrArg some ?_) ?_
        · rw [Excerpt.size, Nat.sub_eq_zero_of_le (Nat.le_of_lt empty), Nat.add_zero]
        · rintro ⟨head, before, meets, -⟩
          exact absurd meets.onward (Nat.not_le.2 (Nat.lt_trans before empty))
      · rw [Excerpt.size] at within agrees
        exact matchFoldedFrom?_iff_of_same sameEncoding whole inSource within onward rfl
          ((agree_iff (Nat.le_trans within whole) (by omega)).1 agrees)
    · cases found
  refine ⟨excerpts, fun value found => ?_⟩
  rw [matchByte?_eq whole] at found ⊢
  have byte := excerpts _ rfl (Nat.le_refl 1) found
  rw [show (Excerpt.whole ⟨⟨#[value]⟩, text.encoding⟩).last = 1 from rfl,
    show (Excerpt.whole ⟨⟨#[value]⟩, text.encoding⟩).first = 0 from rfl,
    show (Excerpt.whole ⟨⟨#[value]⟩, text.encoding⟩).source = ⟨⟨#[value]⟩, text.encoding⟩ from rfl,
    isCut_byte_iff] at byte
  exact byte.trans (imp_congr_right fun _ => and_iff_left (.inl rfl))

/-- A literal that lacks its last byte is found at the end of a text that lacks the same byte, and a
capture of whole characters is found before others. -/
theorem ignoring_case_accepts_whole_characters_at_end :
    let text : Text := ⟨⟨#[0xc3, 0x89, 0x61, 0xc3, 0x89, 0x61, 0xe3, 0x81]⟩, .utf8⟩
    let literal : Excerpt := .whole ⟨⟨#[0x61, 0xe3, 0x81]⟩, .utf8⟩
    let capture : Excerpt := .captured text 0 3
    8 ≤ text.size ∧ text.matchExcerpt? 5 8 literal false = some 8 ∧
      text.matchExcerpt? 5 8 literal true = some 8 ∧
      text.matchExcerpt? 3 8 capture false = some 6 ∧
      text.matchExcerpt? 3 8 capture true = some 6 ∧
      text.matchByte? 2 8 0x61 false = some 3 ∧ text.matchByte? 2 8 0x61 true = some 3 := by
  intro text literal capture
  have whole : 8 ≤ text.size := by decide
  have literalFound : text.matchExcerpt? 5 8 literal false = some 8 := by decide +kernel
  have captureFound : text.matchExcerpt? 3 8 capture false = some 6 := by decide +kernel
  have byteFound : text.matchByte? 2 8 0x61 false = some 3 := by decide +kernel
  have notCut : ¬ text.IsCut 0 3 := by
    have lengths : ∀ head < 3, ¬ 3 < head + text.announcedAt head := by decide +kernel
    rintro ⟨head, before, -, beyond⟩
    exact lengths head before beyond
  refine ⟨whole, literalFound, ?_, captureFound, ?_, byteFound, ?_⟩
  · exact ((ignoring_case_accepts_whole_characters whole).1 literal rfl (Nat.le_refl 3)
      literalFound).2 fun _ => ⟨rfl, .inl rfl⟩
  · exact ((ignoring_case_accepts_whole_characters whole).1 capture rfl (by decide)
      captureFound).2 fun isCut => absurd isCut notCut
  · exact ((ignoring_case_accepts_whole_characters whole).2 0x61 byteFound).2 fun announces =>
      absurd announces (by decide)

/-- A literal that lacks its last byte is found byte by byte where a whole character stands, and so
is a capture that has only the first byte of a character.  Neither is found where case is
ignored. -/
theorem ignoring_case_refuses_cut_characters :
    let text : Text := ⟨⟨#[0xe3, 0x81, 0x82, 0xe3, 0x81, 0x82]⟩, .utf8⟩
    let literal : Excerpt := .whole ⟨⟨#[0xe3, 0x81]⟩, .utf8⟩
    let capture : Excerpt := .captured text 0 1
    text.matchExcerpt? 0 6 literal false = some 2 ∧ text.matchExcerpt? 0 6 literal true = none ∧
      text.matchExcerpt? 3 6 capture false = some 4 ∧
      text.matchExcerpt? 3 6 capture true = none := by
  decide +kernel

end Text

end PatternMachine
