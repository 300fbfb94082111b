import PatternMachine.Proofs.Landing

/-!
# Texts that are the same up to a horizon

Two texts of one length may differ from some position on.  Whatever looks only at characters that
lie wholly before that position finds the same in both.  A character that the position cuts is seen
to be cut in both, because its first byte says how long it is.
-/

namespace PatternMachine

/-- Whether two texts of one length have the same bytes before a position. -/
structure Text.SameTo (horizon : Nat) (left right : Text) : Prop where
  encoding : right.encoding = left.encoding
  size : right.size = left.size
  inside : horizon ≤ left.size
  byte : ∀ position < horizon, right.byte position = left.byte position

/-- Whether two excerpts are the same part of texts that are the same there. -/
structure Excerpt.Same (left right : Excerpt) : Prop where
  first : right.first = left.first
  last : right.last = left.last
  cutsLast : right.cutsLast = left.cutsLast
  sources : ∃ horizon, left.source.SameTo horizon right.source ∧ left.last ≤ horizon ∧
    left.first + left.size ≤ horizon

namespace Text.SameTo

variable {horizon : Nat} {left right : Text} (same : left.SameTo horizon right) {position : Nat}

theorem refl (text : Text) : text.SameTo text.size text :=
  ⟨rfl, rfl, Nat.le_refl _, fun _ _ => rfl⟩

include same

/-! ### Characters -/

theorem charLength (before : position < horizon) :
    right.charLength position = left.charLength position := by
  rw [Text.charLength, Text.charLength, same.size, same.byte position before, same.encoding]

theorem hasChar {range : Nat} (inside : range ≤ horizon) :
    right.hasChar position range = left.hasChar position range := by
  by_cases before : position < range
  · simp only [Text.hasChar, same.charLength (Nat.lt_of_lt_of_le before inside)]
  · simp [Text.hasChar, before]

theorem decode {stop : Nat} (before : position < stop) (inside : stop ≤ horizon) :
    right.decode position stop = left.decode position stop := by
  obtain ⟨count, rfl⟩ := Nat.exists_eq_add_of_le (Nat.le_of_lt before)
  refine decode_congr same.encoding.symm (by omega) fun offset few => ?_
  exact same.byte (position + offset) (by omega)

theorem charAt? {range : Nat} (inside : range ≤ horizon) :
    right.charAt? position range = left.charAt? position range := by
  by_cases before : position < range
  · have length := same.charLength (Nat.lt_of_lt_of_le before inside)
    have positive := left.charLength_pos position
    simp only [Text.charAt?, length]
    split
    · next whole =>
        have fits := of_decide_eq_true (Bool.and_eq_true_iff.1 whole).2
        rw [same.decode (by omega) (Nat.le_trans fits inside)]
    · rfl
  · simp [Text.charAt?, before]

theorem charBefore {stop : Nat} (before : position < stop) (inside : stop ≤ horizon) :
    right.charBefore position stop = left.charBefore position stop := by
  have positive := left.charLength_pos position
  simp only [Text.charBefore, same.charLength (Nat.lt_of_lt_of_le before inside)]
  rw [same.decode (by omega) (by omega)]

theorem newlineAt (before : position < horizon) :
    right.newlineAt position = left.newlineAt position := by
  rw [Text.newlineAt, Text.newlineAt, same.size, isNewlineAt, isNewlineAt,
    same.byte position before]

theorem findByte? {byte : UInt8} {stop : Nat} (inside : stop ≤ horizon) :
    right.findByte? byte position stop = left.findByte? byte position stop := by
  fun_induction left.findByte? byte position stop with
  | case1 position before here =>
      rw [Text.findByte?, if_pos before, same.byte position (by omega), if_pos here]
  | case2 position before elsewhere ih =>
      rw [Text.findByte?, if_pos before, same.byte position (by omega), if_neg elsewhere, ih]
  | case3 position behind => rw [Text.findByte?, if_neg behind]

/-! ### Going back -/

theorem skipBack {start steps : Nat} (before : position < horizon) :
    right.skipBack start steps position = left.skipBack start steps position := by
  induction steps generalizing position with
  | zero => rfl
  | succ steps ih =>
      rw [Text.skipBack, Text.skipBack, same.byte position before, ih (by omega)]

theorem headAt {start : Nat} (before : position < horizon) :
    right.headAt start position = left.headAt start position := by
  have lead := left.skipBack_le start 3 position
  simp only [Text.headAt, same.encoding, same.skipBack before,
    same.byte _ (Nat.lt_of_le_of_lt lead before)]

theorem prevHead? {start : Nat} (within : position ≤ horizon) :
    right.prevHead? start position = left.prevHead? start position := by
  unfold Text.prevHead?
  split
  · rfl
  · rw [same.headAt (by omega)]

theorem stepBack? {start characters : Nat} (within : position ≤ horizon) :
    right.stepBack? start characters position = left.stepBack? start characters position := by
  induction characters generalizing position with
  | zero => rfl
  | succ characters ih =>
      rw [Text.stepBack?, Text.stepBack?, same.prevHead? within]
      cases before : left.prevHead? start position with
      | none => rfl
      | some head => exact ih (Nat.le_trans (Nat.le_of_lt (prevHead?_lt before)) within)

theorem fittingEnd {range : Nat} (inside : range ≤ horizon) :
    right.fittingEnd position range = left.fittingEnd position range := by
  unfold Text.fittingEnd
  split
  · rfl
  · have head := left.headAt_le position (range - 1)
    simp only [same.headAt (show range - 1 < horizon by omega)]
    rw [same.charLength (by omega)]

theorem lastHead {start stop previous : Nat} (inside : stop ≤ horizon) :
    right.lastHead start stop previous = left.lastHead start stop previous := by
  unfold Text.lastHead
  split
  · exact same.headAt (by omega)
  · rfl

theorem cursorAt (within : position ≤ horizon) :
    right.cursorAt position = left.cursorAt position := by
  rw [Text.cursorAt, Text.cursorAt, same.prevHead? within]

theorem cursorBehind {stop : Nat} (cursor : Cursor) (inside : stop ≤ horizon) :
    right.cursorBehind cursor stop = left.cursorBehind cursor stop := by
  rw [Text.cursorBehind, Text.cursorBehind, same.lastHead inside]

/-! ### Excerpts -/

theorem extract {count : Nat} (inside : position + count ≤ horizon) :
    right.bytes.extract position (position + count) =
      left.bytes.extract position (position + count) := by
  have within := same.inside
  have size := same.size
  rw [extract_eq_extract_iff (by omega) (by omega)]
  intro offset before
  exact same.byte _ (by omega)

/-- Excerpts of texts that are the same so far agree with them to the same extent. -/
theorem agree {source source' : Text} {horizon' : Nat} (sources : source.SameTo horizon' source')
    {first count : Nat} (inText : position + count ≤ horizon)
    (inSource : first + count ≤ horizon') :
    right.agree position source' first count = left.agree position source first count := by
  fun_induction left.agree position source first count with
  | case1 => rw [Text.agree, if_pos rfl]
  | case2 position first count nonempty piece ih =>
      have within : piece ≤ count := Nat.min_le_left count pieceSize
      rw [Text.agree, if_neg nonempty, same.byte position (by omega),
        sources.byte first (by omega), ← ih (by omega) (by omega),
        ← same.extract (show position + piece ≤ horizon by omega),
        ← sources.extract (show first + piece ≤ horizon' by omega)]

end Text.SameTo

namespace Excerpt.Same

variable {left right : Excerpt} (same : left.Same right)

/-- A part of a text is the same as itself. -/
theorem refl {excerpt : Excerpt} (stops : excerpt.last ≤ excerpt.source.size)
    (starts : excerpt.first ≤ excerpt.source.size) : excerpt.Same excerpt := by
  refine ⟨rfl, rfl, rfl, excerpt.source.size, .refl _, stops, ?_⟩
  unfold size
  omega

/-- What lies before the horizon is the same in both texts. -/
theorem captured {horizon first last : Nat} {text text' : Text}
    (texts : text.SameTo horizon text') (starts : first ≤ horizon) (stops : last ≤ horizon) :
    (Excerpt.captured text first last).Same (.captured text' first last) := by
  refine ⟨rfl, rfl, rfl, horizon, texts, stops, ?_⟩
  simp only [size, Excerpt.captured]
  omega

include same

theorem size : right.size = left.size := by
  rw [Excerpt.size, Excerpt.size, same.first, same.last]

theorem char? (position : Nat) : right.char? position = left.char? position := by
  obtain ⟨horizon, sources, stops, _⟩ := same.sources
  unfold Excerpt.char?
  rw [same.last, same.cutsLast, sources.hasChar stops]
  by_cases before : position < left.last
  · rw [sources.charBefore before stops]
  · simp [before]

end Excerpt.Same

namespace Text.SameTo

variable {horizon : Nat} {left right : Text} (same : left.SameTo horizon right)
  {position range : Nat} (inside : range ≤ horizon)

include same inside

theorem matchCodes? (codes : List Nat) :
    right.matchCodes? position range codes = left.matchCodes? position range codes := by
  induction codes generalizing position with
  | nil => rfl
  | cons code codes ih =>
      simp only [Text.matchCodes?, same.charAt? inside, same.encoding]
      split
      · next character here =>
          rw [ih]
      · rfl

variable {excerpt excerpt' : Excerpt} (excerpts : excerpt.Same excerpt')

include excerpts

theorem matchBytes? : right.matchBytes? position range excerpt' =
    left.matchBytes? position range excerpt := by
  obtain ⟨horizon', sources, _, inSource⟩ := excerpts.sources
  simp only [Text.matchBytes?, excerpts.size, excerpts.first]
  by_cases fits : position + excerpt.size ≤ range
  · rw [same.agree sources (Nat.le_trans fits inside) inSource]
  · simp [fits]

theorem matchFoldedFrom? (start : Nat) :
    right.matchFoldedFrom? range excerpt' start position =
      left.matchFoldedFrom? range excerpt start position := by
  fun_induction left.matchFoldedFrom? range excerpt start position with
  | case1 start position more wanted isWanted found isFound folds ih =>
      rw [Text.matchFoldedFrom?, if_pos (by rwa [excerpts.last]), excerpts.char?, isWanted]
      simp only [same.charAt? inside, isFound, same.encoding, if_pos folds]
      exact ih
  | case2 start position more wanted isWanted found isFound folds =>
      rw [Text.matchFoldedFrom?, if_pos (by rwa [excerpts.last]), excerpts.char?, isWanted]
      simp only [same.charAt? inside, isFound, same.encoding, if_neg folds]
  | case3 start position more wanted isWanted cut =>
      rw [Text.matchFoldedFrom?, if_pos (by rwa [excerpts.last]), excerpts.char?, isWanted]
      simp only [same.charAt? inside, cut]
  | case4 start position more cut =>
      rw [Text.matchFoldedFrom?, if_pos (by rwa [excerpts.last]), excerpts.char?, cut]
  | case5 start position done =>
      rw [Text.matchFoldedFrom?, if_neg (by rwa [excerpts.last])]

theorem matchExcerpt? (ignoreCase : Bool) :
    right.matchExcerpt? position range excerpt' ignoreCase =
      left.matchExcerpt? position range excerpt ignoreCase := by
  cases ignoreCase
  · exact same.matchBytes? inside excerpts
  · simp only [Text.matchExcerpt?, if_true, excerpts.first]
    exact same.matchFoldedFrom? inside excerpts _

end Text.SameTo

theorem Text.SameTo.matchByte? {horizon : Nat} {left right : Text}
    (same : left.SameTo horizon right) {position range : Nat} (inside : range ≤ horizon)
    (value : UInt8) (ignoreCase : Bool) :
    right.matchByte? position range value ignoreCase =
      left.matchByte? position range value ignoreCase := by
  unfold Text.matchByte?
  rw [same.encoding, same.matchCodes? inside]
  by_cases before : position < range
  · rw [same.byte position (Nat.lt_of_lt_of_le before inside)]
  · simp [before]

end PatternMachine
