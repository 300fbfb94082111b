import PatternMachine.Proofs.Expression.Assembly
import PatternMachine.Proofs.Expression.Enumeration

/-!
# Expressions of one instruction

Literals, classes and any characters are single instructions.  Each of them goes on where the
expression says that a match ends, and fails where there is none.
-/

namespace PatternMachine

/-- What an attempt is about, as expressions see it. -/
def Attempt.subject (attempt : Attempt) : Subject where
  text := attempt.text
  range := attempt.range
  ignoresCase := attempt.ignoresCase
  multiline := attempt.options.multiline
  classes := attempt.program.classes

/-! ### Literals -/

namespace Text

variable {text literal : Text}

/-- A literal's characters are those of the excerpt that is all of it. -/
theorem char?_whole {start : Nat} (inside : start < literal.size) :
    (Excerpt.whole literal).char? start =
      some ⟨literal.codeAt start literal.size, literal.charLength start⟩ := by
  have fits := Text.add_charLength_le inside
  have length : min (literal.charLength start) (literal.size - start) =
      literal.charLength start := by omega
  have stop : min literal.size (start + literal.charLength start) =
      start + literal.charLength start := by omega
  simp only [Excerpt.char?, Excerpt.whole, inside, decide_true, Bool.true_or, Bool.and_true,
    if_true, charBefore, codeAt, length, stop]

/-- A literal is compared with case ignored as the list of its folded characters. -/
theorem matchFoldedFrom?_whole (same : literal.encoding = text.encoding) (range start : Nat)
    (position : Nat) :
    text.matchFoldedFrom? range (.whole literal) start position =
      text.matchCodes? position range (Subject.foldedCodes literal start) := by
  have step : ∀ start, Subject.foldedCodes literal start =
      if start < literal.size then
        text.encoding.fold (literal.codeAt start literal.size) ::
          Subject.foldedCodes literal (start + literal.charLength start)
      else [] := by
    intro start
    rw [Subject.foldedCodes, charactersFrom]
    split
    · rw [List.map_cons, ← same]
      rfl
    · rfl
  induction left : literal.size - start using Nat.strongRecOn generalizing start position with
  | ind left ih =>
      rw [matchFoldedFrom?, step]
      by_cases inside : start < literal.size
      · have further := literal.charLength_pos start
        rw [if_pos inside, if_pos (show start < (Excerpt.whole literal).last from inside),
          matchCodes?]
        split
        · next wanted found =>
            rw [char?_whole inside] at found
            obtain rfl := Option.some.inj found
            dsimp only
            cases text.charAt? position range with
            | none => rfl
            | some character =>
                dsimp only
                by_cases folds : text.encoding.fold (literal.codeAt start literal.size) =
                    text.encoding.fold character.code
                · rw [if_pos folds, if_pos folds.symm]
                  exact ih _ (by omega) _ _ rfl
                · rw [if_neg folds, if_neg (Ne.symm folds)]
        · next none_found =>
            rw [char?_whole inside] at none_found
            cases none_found
      · rw [if_neg inside, if_neg (show ¬ start < (Excerpt.whole literal).last from inside)]
        rfl

/-- A byte alone is a literal of one character, whatever it announces. -/
theorem foldedCodes_of_size_eq_one (single : literal.size = 1) :
    Subject.foldedCodes literal 0 = [literal.encoding.fold (literal.byte 0).toNat] := by
  have alone : literal.charLength 0 = 1 := by
    have announced := literal.encoding.announced_pos (literal.byte 0)
    rw [charLength, if_pos (by omega), single]
    omega
  have code : literal.codeAt 0 literal.size = (literal.byte 0).toNat := by
    have announced := literal.encoding.announced_pos (literal.byte 0)
    have length : min (literal.encoding.announced (literal.byte 0)) (1 - 0) = 1 := by omega
    rw [codeAt, single, alone, decode]
    simp only [Nat.zero_add, Nat.min_self, length]
    rfl
  rw [Subject.foldedCodes, charactersFrom, if_pos (by omega), charactersFrom, alone,
    if_neg (by omega), List.map_cons, List.map_nil, code]

/-- A byte is compared as an excerpt of one byte. -/
theorem matchByte?_eq {position range : Nat} (whole : range ≤ text.size) (value : UInt8)
    (ignoreCase : Bool) :
    text.matchByte? position range value ignoreCase =
      text.matchExcerpt? position range (.whole ⟨⟨#[value]⟩, text.encoding⟩) ignoreCase := by
  cases ignoreCase with
  | true =>
      have folded := @foldedCodes_of_size_eq_one ⟨⟨#[value]⟩, text.encoding⟩ rfl
      rw [matchExcerpt?, if_pos rfl]
      exact (congrArg (text.matchCodes? position range) folded.symm).trans
        (@matchFoldedFrom?_whole text ⟨⟨#[value]⟩, text.encoding⟩ rfl range 0 position).symm
  | false =>
      have size : (Excerpt.whole ⟨⟨#[value]⟩, text.encoding⟩).size = 1 := rfl
      simp only [matchByte?, matchExcerpt?, matchBytes?, size, Bool.false_eq_true, if_false,
        Bool.and_eq_true, decide_eq_true_eq, beq_iff_eq]
      refine if_congr (and_congr_right fun inside => ?_) rfl rfl
      rw [agree_iff (Nat.le_trans inside whole) (Nat.le_refl 1)]
      constructor
      · intro same offset first
        obtain rfl := Nat.lt_one_iff.1 first
        exact same
      · exact fun same => same 0 Nat.one_pos

end Text

namespace Subject

variable {subject : Subject}

theorem literalStop?_of_ignoresCase (ignores : subject.ignoresCase = true) (bytes : ByteArray)
    (position : Nat) :
    subject.literalStop? bytes position =
      subject.text.matchCodes? position subject.range
        (foldedCodes ⟨bytes, subject.text.encoding⟩ 0) :=
  if_pos ignores

theorem literalStop?_of_not_ignoresCase (minds : subject.ignoresCase = false) (bytes : ByteArray)
    (position : Nat) :
    subject.literalStop? bytes position =
      if position + bytes.size ≤ subject.range ∧ ∀ offset < bytes.size,
          subject.text.byte (position + offset) =
            Text.byte ⟨bytes, subject.text.encoding⟩ offset then
        some (position + bytes.size)
      else
        none :=
  if_neg (by rw [minds]; exact Bool.noConfusion)

end Subject

namespace Attempt

variable (attempt : Attempt)

/-- A literal is compared as a whole. -/
theorem matchExcerpt?_whole (bytes : ByteArray) (position : Nat)
    (within : attempt.range ≤ attempt.text.size) :
    attempt.text.matchExcerpt? position attempt.range
        (.whole ⟨bytes, attempt.program.encoding⟩) attempt.ignoresCase =
      attempt.subject.literalStop? bytes position := by
  unfold Text.matchExcerpt?
  cases ignores : attempt.ignoresCase with
  | true =>
      rw [Subject.literalStop?_of_ignoresCase ignores, if_pos rfl]
      exact @Text.matchFoldedFrom?_whole attempt.text ⟨bytes, attempt.program.encoding⟩ rfl
        attempt.range 0 position
  | false =>
      rw [Subject.literalStop?_of_not_ignoresCase ignores, if_neg Bool.noConfusion]
      have size : (Excerpt.whole ⟨bytes, attempt.program.encoding⟩).size = bytes.size :=
        Nat.sub_zero _
      simp only [Text.matchBytes?, size, Bool.and_eq_true, decide_eq_true_eq]
      apply if_congr _ rfl rfl
      apply and_congr_right
      intro fits
      have agrees := @Text.agree_iff attempt.text ⟨bytes, attempt.program.encoding⟩ position 0
        bytes.size (Nat.le_trans fits within) (Nat.le_of_eq (Nat.zero_add _))
      simp only [Nat.zero_add] at agrees
      exact agrees

/-- A byte is compared as a literal of that byte. -/
theorem matchByte?_literal {bytes : ByteArray} (position : Nat) (single : bytes.size = 1)
    {value : UInt8} (first : Text.byte ⟨bytes, attempt.program.encoding⟩ 0 = value) :
    attempt.text.matchByte? position attempt.range value attempt.ignoresCase =
      attempt.subject.literalStop? bytes position := by
  obtain ⟨data⟩ := bytes
  obtain ⟨only, rfl⟩ := Array.size_eq_one_iff.1 single
  obtain rfl : only = value := first
  rw [← attempt.matchExcerpt?_whole _ position attempt.input.range_le_size]
  exact Text.matchByte?_eq attempt.input.range_le_size only attempt.ignoresCase

end Attempt

open Stage

variable {attempt : Attempt} {start first last : Nat} {cursor : Cursor} {store : Store}
  {standing : Standing}

/-- An instruction that goes on where a match ends, if there is one, and fails otherwise. -/
theorem Enumerates.leaf {instruction : Instruction} {stop? : Option Nat}
    (fetched : attempt.program.code[start]? = some instruction)
    (fails : stop? = none → Plan.ofInstruction attempt ⟨start, cursor⟩ store instruction = .fail)
    (goesOn : ∀ stop, stop? = some stop → ∃ previous,
      Plan.ofInstruction attempt ⟨start, cursor⟩ store instruction =
        .goto (start + 1) ⟨stop, previous⟩)
    (captures : store.captures = standing.captures) (grounded : store.Grounded) :
    Enumerates attempt (start + 1) store first last (.dispatching ⟨start, cursor⟩ store)
      (stop?.toList.map standing.moveTo) := by
  cases stop? with
  | none => exact Enumerates.nothing.of_reaches (Reaches.fail fetched (fails rfl))
  | some stop =>
      obtain ⟨previous, planned⟩ := goesOn stop rfl
      apply Enumerates.of_reaches (Reaches.goto fetched planned)
      exact Enumerates.single rfl captures (.refl grounded) rfl

theorem enumerates_literal {bytes : ByteArray}
    (fetched : attempt.program.code[start]? = some (.literal bytes))
    (captures : store.captures = standing.captures) (grounded : store.Grounded)
    (position : cursor.position = standing.position) :
    Enumerates attempt (start + 1) store first last (.dispatching ⟨start, cursor⟩ store)
      ((Expression.literal bytes).successes attempt.subject standing) := by
  rw [Expression.successes, ← position]
  unfold Instruction.literal at fetched
  split at fetched
  · next single =>
      have byte : Text.byte ⟨bytes, attempt.program.encoding⟩ 0 = bytes[0] :=
        Text.byte_of_lt (by rw [single]; exact Nat.one_pos)
      have same := attempt.matchByte?_literal cursor.position single byte
      apply Enumerates.leaf fetched _ _ captures grounded
      · intro nowhere
        simp only [Plan.ofInstruction, Plan.literalByte, same, nowhere]
        rfl
      · intro stop found
        refine ⟨cursor.position, ?_⟩
        simp only [Plan.ofInstruction, Plan.literalByte, same, found]
        rfl
  · have same := attempt.matchExcerpt?_whole bytes cursor.position attempt.input.range_le_size
    apply Enumerates.leaf fetched _ _ captures grounded
    · intro nowhere
      simp only [Plan.ofInstruction, Plan.literal, same, nowhere]
      rfl
    · intro stop found
      refine ⟨attempt.text.lastHead cursor.position stop cursor.previous, ?_⟩
      simp only [Plan.ofInstruction, Plan.literal, same, found]
      rfl

theorem enumerates_charClass {operand : ClassOperand} {members : CharClass}
    (fetched : attempt.program.code[start]? = some (.charClass operand))
    (resolved : operand.resolve? attempt.program.classes = .ok members)
    (captures : store.captures = standing.captures) (grounded : store.Grounded)
    (position : cursor.position = standing.position) :
    Enumerates attempt (start + 1) store first last (.dispatching ⟨start, cursor⟩ store)
      ((Expression.charClass operand).successes attempt.subject standing) := by
  rw [Expression.successes, ← position]
  have resolved' : operand.resolve? attempt.subject.classes = .ok members := resolved
  apply Enumerates.leaf fetched _ _ captures grounded
  · intro nowhere
    rw [Subject.classStop?, resolved'] at nowhere
    dsimp only [Attempt.subject] at nowhere
    simp only [Plan.ofInstruction, Plan.charClass, resolved]
    cases here : attempt.text.charAt? cursor.position attempt.range with
    | none => rfl
    | some character =>
        rw [here] at nowhere
        dsimp only at nowhere
        split at nowhere
        · cases nowhere
        · next excluded => exact if_neg excluded
  · intro stop found
    refine ⟨cursor.position, ?_⟩
    rw [Subject.classStop?, resolved'] at found
    dsimp only [Attempt.subject] at found
    simp only [Plan.ofInstruction, Plan.charClass, resolved]
    cases here : attempt.text.charAt? cursor.position attempt.range with
    | none =>
        rw [here] at found
        cases found
    | some character =>
        rw [here] at found
        dsimp only at found
        split at found
        · next included =>
            cases found
            exact if_pos included
        · cases found

theorem enumerates_anyChar {acrossLines : Bool}
    (fetched : attempt.program.code[start]? = some (.anyChar acrossLines))
    (captures : store.captures = standing.captures) (grounded : store.Grounded)
    (position : cursor.position = standing.position) :
    Enumerates attempt (start + 1) store first last (.dispatching ⟨start, cursor⟩ store)
      ((Expression.anyChar acrossLines).successes attempt.subject standing) := by
  rw [Expression.successes, ← position]
  have stops : attempt.subject.anyStop? acrossLines cursor.position =
      if attempt.text.hasChar cursor.position attempt.range &&
          (acrossLines || attempt.options.multiline ||
            !attempt.text.newlineAt cursor.position) then
        some (cursor.position + attempt.text.charLength cursor.position)
      else none := by
    unfold Subject.anyStop?
    dsimp only [Attempt.subject]
    cases found : attempt.text.charAt? cursor.position attempt.range with
    | none =>
        have cut : attempt.text.hasChar cursor.position attempt.range = false := by
          rw [Bool.eq_false_iff]
          intro whole
          rw [Text.charAt?_eq_some_iff.2 ⟨Text.hasChar_iff.1 whole, rfl⟩] at found
          cases found
        rw [cut]
        rfl
    | some character =>
        obtain ⟨inside, rfl⟩ := Text.charAt?_eq_some_iff.1 found
        have inText : cursor.position < attempt.text.size :=
          Nat.lt_of_lt_of_le inside.1 attempt.input.range_le_size
        have newline : attempt.text.newlineAt cursor.position =
            (attempt.text.byte cursor.position == 0x0a) := by
          rw [Text.newlineAt, Text.isNewlineAt, decide_eq_true inText, Bool.true_and]
        rw [Text.hasChar_iff.2 inside, Bool.true_and, newline]
        rfl
  rw [stops]
  have planned : Plan.ofInstruction attempt ⟨start, cursor⟩ store (.anyChar acrossLines) =
      if attempt.text.hasChar cursor.position attempt.range &&
          (acrossLines || attempt.options.multiline ||
            !attempt.text.newlineAt cursor.position) then
        .goto (start + 1) (cursor.step (attempt.text.charLength cursor.position))
      else .fail := rfl
  apply Enumerates.leaf fetched _ _ captures grounded
  · intro nowhere
    rw [planned]
    split at nowhere
    · cases nowhere
    · next excluded => exact if_neg excluded
  · intro stop found
    refine ⟨cursor.position, ?_⟩
    rw [planned]
    split at found
    · next included =>
        cases found
        exact if_pos included
    · cases found

end PatternMachine
