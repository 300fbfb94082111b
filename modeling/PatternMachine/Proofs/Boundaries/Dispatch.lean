import PatternMachine.Proofs.Bounds.Dispatch
import PatternMachine.Proofs.Boundaries.Text

/-!
# Dispatches go from boundary to boundary

On a well-formed text every instruction goes on, if it does, at a cursor that knows where it is, if it
has started at one and if what it consumes byte by byte is made of whole characters.  A star leaves its
choices only at such cursors.  What a group has captured is made of whole characters when it lies between
boundaries, so a back reference needs no such condition.
-/

namespace PatternMachine

/-- Whether the literal that an instruction consumes, if it does so byte by byte, encodes characters. -/
def Instruction.TakesWholeCharacters (program : Program) : Instruction → Prop
  | .byte value => program.encoding.Encodes ⟨#[value]⟩
  | .bytes content => program.encoding.Encodes content
  | .template index offset length => ∀ excerpt,
      program.literal? index offset length = some excerpt →
        program.encoding.Encodes (excerpt.source.bytes.extract excerpt.first excerpt.last)
  | _ => True

/-- Whether all literals of a program encode characters. -/
def Program.TakesWholeCharacters (program : Program) : Prop :=
  ∀ instruction ∈ program.code, instruction.TakesWholeCharacters program

variable {attempt : Attempt} {point : Point} {store : Store} {stop : Nat}

/-- The part of a template that an instruction names ends whole, if it encodes characters. -/
theorem Program.endsWhole_literal? {program : Program} {index offset length : Nat} {excerpt : Excerpt}
    (named : program.literal? index offset length = some excerpt)
    (encodes : program.encoding.Encodes
      (excerpt.source.bytes.extract excerpt.first excerpt.last)) :
    excerpt.source.encoding = program.encoding ∧ excerpt.EndsWhole := by
  unfold literal? at named
  split at named
  · next template read =>
      split at named
      · next inside =>
          cases named
          exact ⟨rfl, Text.endsWhole_of_extract inside encodes.wellFormed true⟩
      · cases named
  · cases named

section

variable (wellFormed : attempt.text.WellFormed)

include wellFormed

/-- A back reference leaves off at a boundary, if groups lie between boundaries. -/
theorem BackReference.isBoundary_repeat? {reference : BackReference}
    (records : store.Records attempt.text.IsBoundary)
    (boundary : attempt.text.IsBoundary point.cursor.position)
    (found : reference.repeat? attempt store point.cursor.position = .ok (some stop)) :
    attempt.text.IsBoundary stop := by
  have captured : ∀ {first last ignoreCase}, attempt.text.IsBoundary first ∧
      attempt.text.IsBoundary last → attempt.matchCaptured? first last point.cursor.position
        ignoreCase = some stop → attempt.text.IsBoundary stop := fun bounds here =>
    Text.isBoundary_matchExcerpt? wellFormed attempt.range_le_size rfl
      (Text.endsWhole_captured wellFormed bounds.1 bounds.2) boundary here
  cases repeats_of_repeat? found with
  | nothing => exact boundary
  | group span here => exact captured (records.span? span) here
  | atLevel span here => exact captured (records.spanAtLevel? span) here

/-- A star that starts at a cursor that knows where it is comes only to such cursors. -/
theorem Attempt.carriesStars_knows (knows : attempt.text.Knows point.cursor) :
    attempt.CarriesStars attempt.text.Knows point.cursor where
  start := knows
  char := by
    intro cursor knows whole
    obtain ⟨before, _⟩ := Text.hasChar_iff.1 whole
    exact .step knows.isBoundary (Nat.lt_of_lt_of_le before attempt.range_le_size)
  hit := by
    intro hit after before plain
    have inText := (knows.isBoundary.fittingEnd wellFormed attempt.range_le_size).inText
    exact knows.cursorBehind wellFormed after ((Text.isBoundary_iff wellFormed).2
      ⟨Nat.le_trans (Nat.le_of_lt before) inText, Text.follows_of_ascii plain⟩)
  stop := knows.cursorBehind wellFormed (attempt.text.le_fittingEnd _ _)
    (knows.isBoundary.fittingEnd wellFormed attempt.range_le_size)

end

namespace Plan

/-- A literal leaves off at a cursor that knows where it is, if it ends whole. -/
theorem knows_literal (wellFormed : attempt.text.WellFormed)
    (knows : attempt.text.Knows point.cursor) {excerpt : Excerpt}
    (sameEncoding : excerpt.source.encoding = attempt.program.encoding)
    (endsWhole : excerpt.EndsWhole) :
    (literal attempt point excerpt).exit.Goes attempt.text.Knows :=
  goes_consumed _ fun _ here => knows.cursorBehind wellFormed (Text.le_matchExcerpt? here)
    (Text.isBoundary_matchExcerpt? wellFormed attempt.range_le_size sameEncoding.symm endsWhole
      knows.isBoundary here)

/-- Every instruction goes on, if it does, at a cursor that knows where it is. -/
theorem knows_ofInstruction (wellFormed : attempt.text.WellFormed)
    (knows : attempt.text.Knows point.cursor) (stands : store.Stands attempt.text.Knows)
    (records : store.Records attempt.text.IsBoundary) {instruction : Instruction}
    (takes : instruction.TakesWholeCharacters attempt.program) :
    (ofInstruction attempt point store instruction).exit.Goes attempt.text.Knows := by
  have stays : instruction.movesCursor = false →
      (ofInstruction attempt point store instruction).exit.Goes attempt.text.Knows :=
    goes_of_not_movesCursor knows
  have char : attempt.text.hasChar point.cursor.position attempt.range = true →
      attempt.text.Knows (point.cursor.step (attempt.text.charLength point.cursor.position)) :=
    (Attempt.carriesStars_knows wellFormed knows).char _ knows
  cases instruction with
  | byte value =>
      exact goes_consumed _ fun _ => Text.knows_matchByte? wellFormed attempt.range_le_size
        takes.announced_eq_one knows.isBoundary
  | bytes content =>
      exact knows_literal wellFormed knows rfl (Text.endsWhole_whole takes.wellFormed)
  | template index offset length =>
      simp only [ofInstruction]
      split
      · next excerpt named =>
          obtain ⟨sameEncoding, endsWhole⟩ := Program.endsWhole_literal? named (takes excerpt named)
          exact knows_literal wellFormed knows sameEncoding endsWhole
      · exact trivial
  | foldedChar code | word wanted => exact goes_oneChar char _
  | foldedChars codes =>
      exact goes_consumed _ fun _ here => knows.cursorBehind wellFormed (Text.le_matchCodes? here)
        (Text.isBoundary_matchCodes? attempt.range_le_size knows.isBoundary here)
  | charClass operand => exact goes_charClass char operand
  | anyChar acrossLines => exact goes_anyChar char acrossLines
  | backReference reference =>
      simp only [ofInstruction, backReference]
      split
      · next stop? repeated =>
          refine goes_consumed _ fun stop isStop => ?_
          rw [isStop] at repeated
          exact knows.cursorBehind wellFormed (BackReference.le_repeat? repeated)
            (BackReference.isBoundary_repeat? wellFormed records knows.isBoundary repeated)
      · exact trivial
  | lookEnd =>
      simp only [ofInstruction, lookEnd]
      split
      · next cursor found =>
          obtain ⟨index, read⟩ := Stack.exists_of_lookCursor? found
          exact stands index _ read
      · exact trivial
  | lookBehind length =>
      simp only [ofInstruction, lookBehind]
      split
      · next position found =>
          exact Text.knows_cursorAt wellFormed (knows.isBoundary.stepBack? wellFormed found)
      · exact trivial
  | lookBehindNotStart offset length =>
      apply goes_branch
      intro target
      split
      · next position found =>
          exact Text.knows_cursorAt wellFormed (knows.isBoundary.stepBack? wellFormed found)
      · exact knows
  | _ => exact stays rfl

end Plan

end PatternMachine
