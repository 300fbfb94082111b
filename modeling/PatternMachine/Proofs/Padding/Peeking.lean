import PatternMachine.Proofs.Answers
import PatternMachine.Proofs.Padding.ByteSearch

/-!
# Stars that look for the next byte

A star that knows which byte must follow leaves a choice only where that byte comes next.  A star
that does not know leaves choices everywhere, and the search fails as soon as it goes back to one of
the others.  So both give the same answer (`Engine.peeking_stars_are_stars`).  This holds too if the
star does not look at the characters between, as long as the text is well-formed.
-/

namespace PatternMachine

/-- Whether a literal that starts with a byte stands at an address. -/
def Program.Expects (program : Program) (address : Nat) (byte : UInt8) : Prop :=
  program.code[address]? = some (.byte byte) ∨
    ∃ content : ByteArray, program.code[address]? = some (.bytes content) ∧ content[0]? = some byte

/-- Whether a point is at an address, and a byte does not come next. -/
def Attempt.missesAt (attempt : Attempt) (address : Nat) (byte : UInt8) (point : Point) : Bool :=
  point.address == address && !Plan.nextIs attempt point byte

/-- Whether a character that is the same as a byte when case is ignored starts with the byte. -/
def Attempt.Distinguishes (attempt : Attempt) (byte : UInt8) : Prop :=
  attempt.ignoresCase = true → ∀ position character,
    attempt.text.charAt? position attempt.range = some character →
      attempt.text.encoding.fold character.code = attempt.text.encoding.fold byte.toNat →
        attempt.text.byte position = byte

theorem Attempt.distinguishes_of_caseKept {attempt : Attempt} (caseKept : attempt.ignoresCase = false)
    (byte : UInt8) : attempt.Distinguishes byte := by
  intro ignoresCase
  rw [caseKept] at ignoresCase
  cases ignoresCase

/-! ### Where the byte does not come next -/

/-- Texts that agree agree on their first bytes. -/
theorem Text.byte_eq_of_agree {text source : Text} {position first count : Nat}
    (nonempty : 0 < count) (agrees : text.agree position source first count = true) :
    text.byte position = source.byte first := by
  rw [agree, if_neg (Nat.ne_of_gt nonempty), Bool.and_eq_true, Bool.and_eq_true] at agrees
  exact eq_of_beq agrees.1.1

namespace Plan

variable {attempt : Attempt} {point : Point} {byte : UInt8}

theorem literalByte_of_miss (distinct : attempt.Distinguishes byte)
    (misses : nextIs attempt point byte = false) : literalByte attempt point byte = .fail := by
  have nothing : attempt.text.matchByte? point.cursor.position attempt.range byte
      attempt.ignoresCase = none := by
    cases ignoresCase : attempt.ignoresCase with
    | false => exact if_neg (ne_true_of_eq_false misses)
    | true =>
        rw [Text.matchByte?, if_pos rfl, Text.matchCodes?]
        split
        · next character here =>
            refine if_neg fun same => ?_
            have inside := (Text.charAt?_eq_some_iff.1 here).1.1
            have isByte := distinct ignoresCase _ _ here same
            rw [nextIs, isByte, beq_self_eq_true, Bool.and_true, decide_eq_true inside] at misses
            cases misses
        · rfl
  rw [literalByte, nothing]
  rfl

theorem literal_of_miss (caseKept : attempt.ignoresCase = false)
    (misses : nextIs attempt point byte = false) {content : ByteArray}
    (first : content[0]? = some byte) :
    literal attempt point (.whole ⟨content, attempt.program.encoding⟩) = .fail := by
  obtain ⟨nonempty, isFirst⟩ := getElem?_eq_some_iff.1 first
  have nothing : attempt.text.matchExcerpt? point.cursor.position attempt.range
      (.whole ⟨content, attempt.program.encoding⟩) attempt.ignoresCase = none := by
    rw [Text.matchExcerpt?, caseKept, if_neg Bool.noConfusion, Text.matchBytes?]
    refine if_neg fun found => ?_
    obtain ⟨fits, agrees⟩ := Bool.and_eq_true_iff.1 found
    have inside : point.cursor.position + content.size ≤ attempt.range := of_decide_eq_true fits
    have same : attempt.text.byte point.cursor.position = content[0] :=
      (Text.byte_eq_of_agree nonempty agrees).trans (Text.byte_of_lt nonempty)
    have next : nextIs attempt point byte = true := by
      rw [nextIs, same, Bool.and_eq_true, beq_iff_eq, decide_eq_true_eq]
      exact ⟨by omega, isFirst⟩
    rw [misses] at next
    cases next
  rw [literal, nothing]
  rfl

end Plan

/-- A search that comes to a literal byte fails where another one comes next. -/
theorem Setting.failsAt_of_byte {setting : Setting} {address : Nat} {byte : UInt8}
    (fetched : setting.program.code[address]? = some (.byte byte))
    (distinct : setting.Distinguishes byte) {point : Point}
    (misses : setting.missesAt address byte point = true) : setting.FailsAt point := by
  obtain ⟨atAddress, notNext⟩ := Bool.and_eq_true_iff.1 misses
  rw [Bool.not_eq_true'] at notNext
  exact ⟨.byte byte, by rw [beq_iff_eq.1 atAddress, fetched], fun store =>
    Plan.literalByte_of_miss distinct notNext⟩

/-- A search that comes to a literal fails where the first byte of that does not come next. -/
theorem Program.Expects.failsAt {setting : Setting} {address : Nat} {byte : UInt8}
    (expects : setting.program.Expects address byte) (caseKept : setting.ignoresCase = false)
    {point : Point} (misses : setting.missesAt address byte point = true) :
    setting.FailsAt point := by
  rcases expects with fetched | ⟨content, fetched, first⟩
  · exact setting.failsAt_of_byte fetched (Attempt.distinguishes_of_caseKept caseKept byte) misses
  · obtain ⟨atAddress, notNext⟩ := Bool.and_eq_true_iff.1 misses
    rw [Bool.not_eq_true'] at notNext
    exact ⟨.bytes content, by rw [beq_iff_eq.1 atAddress, fetched], fun store =>
      Plan.literal_of_miss caseKept notNext first⟩

/-! ### Stars that leave fewer choices -/

namespace Star

variable {attempt : Attempt} {acrossLines : Bool} {byte : UInt8} {next : Nat}

/-- Where a star does not come to the byte, going on behind it leads nowhere. -/
theorem misses_of_ne {cursor : Cursor}
    (other : (attempt.text.byte cursor.position == byte) = false) :
    attempt.missesAt next byte ⟨next, cursor⟩ = true := by
  rw [Attempt.missesAt, Plan.nextIs, other, beq_self_eq_true, Bool.and_false]
  rfl

/-- A star that looks at every character leaves some of the choices that it leaves without the byte
to follow. -/
theorem sweepMoves_pads (cursor : Cursor) :
    Move.Pads (attempt.missesAt next byte)
      ((⟨acrossLines, some byte, next⟩ : Star).sweepMoves attempt.text attempt.range cursor)
      ((⟨acrossLines, none, next⟩ : Star).sweepMoves attempt.text attempt.range cursor) := by
  induction cursor using Star.sweepMoves.induct ⟨acrossLines, none, next⟩ attempt.text
    attempt.range with
  | case1 cursor whole ih =>
      have rest : Move.Pads (attempt.missesAt next byte)
          (if (⟨acrossLines, some byte, next⟩ : Star).failsAt attempt.text cursor.position then
              Move.failing
            else (⟨acrossLines, some byte, next⟩ : Star).sweepMoves attempt.text attempt.range
              (cursor.step (attempt.text.charLength cursor.position)))
          (if (⟨acrossLines, none, next⟩ : Star).failsAt attempt.text cursor.position then
              Move.failing
            else (⟨acrossLines, none, next⟩ : Star).sweepMoves attempt.text attempt.range
              (cursor.step (attempt.text.charLength cursor.position))) := by
        rw [show (⟨acrossLines, some byte, next⟩ : Star).failsAt attempt.text cursor.position =
          (⟨acrossLines, none, next⟩ : Star).failsAt attempt.text cursor.position from rfl]
        split
        · exact .failing
        · exact ih
      rw [@sweepMoves_of_leavesChoice ⟨acrossLines, none, next⟩ _ _ _ whole rfl]
      cases leaves : (⟨acrossLines, some byte, next⟩ : Star).leavesChoice attempt.text
          cursor.position with
      | true =>
          rw [sweepMoves_of_leavesChoice whole leaves]
          exact .work (.choice _ rest)
      | false =>
          rw [sweepMoves_of_not_leavesChoice whole leaves]
          exact .work (.extra (misses_of_ne leaves) rest)
  | case2 cursor done =>
      have cut : attempt.text.hasChar cursor.position attempt.range = false :=
        Bool.eq_false_iff.2 done
      rw [sweepMoves_of_done cut, sweepMoves_of_done cut]
      exact .goto _

end Star

/-- However a star looks for the next byte, it makes some of the moves that it makes without it. -/
theorem Attempt.anyCharStar_pads {attempt : Attempt} {point : Point} {acrossLines : Bool}
    {byte : UInt8} (wellFormed : attempt.text.WellFormed) :
    Move.Pads (attempt.missesAt point.next byte)
      (attempt.exitMoves point (Plan.anyCharStar attempt point acrossLines (some byte)).exit)
      (attempt.exitMoves point (Plan.anyCharStar attempt point acrossLines none).exit) := by
  cases acrossLines with
  | false => exact Star.sweepMoves_pads point.cursor
  | true =>
      by_cases plain : byte < 0x80
      · rw [Plan.anyCharStar, if_pos plain]
        rcases Nat.lt_or_ge attempt.range point.cursor.position with beyond | within
        · have filled : attempt.text.fittingEnd point.cursor.position attempt.range =
              point.cursor.position := if_pos (Nat.le_of_lt beyond)
          have nothing : attempt.text.hasChar point.cursor.position attempt.range = false := by
            rw [Bool.eq_false_iff, ne_eq, Text.hasChar_iff]
            omega
          have sweeps : Plan.anyCharStar attempt point true none =
              ⟨[], .sweep ⟨true, none, point.next⟩⟩ := rfl
          rw [sweeps, exitMoves, exitMoves, filled, Star.leapMoves_of_done,
            Text.cursorBehind_self, Star.sweepMoves_of_done nothing]
          exact .goto _
        · exact (Star.leapMoves_pads plain (wellFormed.unbroken _ _) point.cursor
            (Text.cursorBehind_self ..) (.refl ..) within).trans (Star.sweepMoves_pads point.cursor)
      · rw [Plan.anyCharStar, if_neg plain]
        exact Star.sweepMoves_pads point.cursor

/-- A program with a star in the place of an instruction. -/
def Program.withStar (program : Program) (address : Nat) (acrossLines : Bool) : Program :=
  program.withCode (program.code.setIfInBounds address (.anyCharStar acrossLines none))

namespace Search

variable {setting : Setting} {star : Nat} {acrossLines : Bool} {byte : UInt8}

/-- If the literal behind a star starts with the byte that the star looks for, a run without limits
has the same outcomes with a star that looks for nothing. -/
theorem run?_iff_of_peeking (free : setting.Free)
    (peeks : setting.program.code[star]? = some (.anyCharStar acrossLines (some byte)))
    (expects : setting.program.Expects (star + 1) byte) (noPop : .pop ∉ setting.program.code)
    (caseKept : setting.ignoresCase = false) (wellFormed : setting.text.WellFormed)
    {code : Array Instruction}
    (isCode : code = setting.program.code.setIfInBounds star (.anyCharStar acrossLines none))
    (store : Store) (outcome : Outcome) :
    (∃ dispatches ending, run? setting dispatches (start setting store) = some ending ∧
        ending.outcome = outcome) ↔
      ∃ dispatches ending, run? (setting.withCode code) dispatches
        (start (setting.withCode code) store) = some ending ∧ ending.outcome = outcome := by
  have inside : star < setting.program.code.size := (Array.getElem?_eq_some_iff.1 peeks).1
  have replaced : code[star]? = some (.anyCharStar acrossLines none) := by
    rw [isCode, Array.getElem?_setIfInBounds_self_of_lt inside]
  have behind : (setting.withCode code).program.Expects (star + 1) byte := by
    have same : code[star + 1]? = setting.program.code[star + 1]? := by
      rw [isCode, Array.getElem?_setIfInBounds_ne (Nat.ne_of_lt (Nat.lt_succ_self star))]
    rw [Program.Expects] at expects ⊢
    rwa [Setting.withCode, Program.withCode, same]
  have fails : ∀ point, setting.missesAt (star + 1) byte point = true →
      (setting.withCode code).FailsAt point :=
    fun _ misses => behind.failsAt caseKept misses
  refine run?_iff_of_pads free store peeks isCode (.inl rfl) noPop fails ?_ outcome
  intro left right pads atStar
  have fetched : setting.program.code[left.point.address]? =
      some (.anyCharStar acrossLines (some byte)) := by rw [atStar, peeks]
  have fetched' : (setting.withCode code).program.code[right.point.address]? =
      some (.anyCharStar acrossLines none) := by
    rw [pads.point, atStar]
    exact replaced
  have stores : (Effect.onStoreAll left.store (Plan.anyCharStar setting.toAttempt left.point
      acrossLines (some byte)).effects).PaddedBy setting.program (setting.missesAt (star + 1) byte)
      (Effect.onStoreAll right.store (Plan.anyCharStar setting.toAttempt left.point acrossLines
        none).effects) := by
    rw [Plan.effects_anyCharStar, Plan.effects_anyCharStar]
    exact pads.store
  obtain ⟨next, next', stepped, stepped', nextPads⟩ := pads.exists_step free fetched fetched' rfl
    (by rw [pads.point]; rfl) stores
  have padded := @Attempt.anyCharStar_pads setting.toAttempt left.point acrossLines byte wellFormed
  rw [Point.next, atStar] at padded
  rw [stepped, stepped']
  exact nextPads.play free fails padded

end Search

/-- A star that looks for the byte with which the literal behind it starts gives the same answers as
one that looks for nothing.  The text is the encoding of a string, or each of its bytes is a
character; the span may begin and end anywhere. -/
theorem Engine.peeking_stars_are_stars {program : Program} {star : Nat} {acrossLines : Bool}
    {byte : UInt8} (peeks : program.code[star]? = some (.anyCharStar acrossLines (some byte)))
    (expects : program.Expects (star + 1) byte) (noPop : .pop ∉ program.code)
    {config : MatchConfig} (unlimited : config.toLimits = .unlimited)
    (caseKept : (program.options.union config.options).ignoreCase = false) {input : Input}
    (isText : program.encoding = .ascii ∨ ∃ string : String, input.bytes = string.toUTF8)
    {monitor : Monitor} (permitted : ∀ call, monitor.permits call = true) (before : Region)
    (outcome : Outcome) (region : Region) :
    (withConfig program config).Answers input before monitor outcome region ↔
      (withConfig (program.withStar star acrossLines) config).Answers input before monitor outcome
        region := by
  let setting := (withConfig program config).setting input monitor
  have wellFormed : setting.text.WellFormed := by
    rcases isText with oneByte | ⟨string, encodes⟩
    · exact Text.wellFormed_of_ascii oneByte
    · exact Text.wellFormed_of_string encodes
  have free : setting.Free := ⟨unlimited, permitted⟩
  refine answers_iff ?options ?slots (fun outcome => ?_) outcome region
  case options => rfl
  case slots => rfl
  exact Search.run?_iff_of_peeking free peeks expects noPop caseKept wellFormed rfl _ outcome

/-- A search for the longest match in a span that begins and ends in the middle of a character. -/
theorem Engine.peeking_stars_are_stars_of_cut_characters :
    let program : Program :=
      { code := #[.anyCharStar true (some 98), .bytes ⟨#[98, 99]⟩, .accept]
        templates := #[], classes := #[], repeatRanges := #[], groupCount := 0
        emptyCheckCount := 0, loggedStarts := .empty, loggedEnds := .empty, options := .none
        encoding := .utf8 }
    let config : MatchConfig := ⟨.unlimited, { findLongest := true }⟩
    let input : Input := (Input.whole "éabcbé".toUTF8).span 1 7
    let found : Region := ⟨#[some 1], #[some 5]⟩
    program.Expects 1 98 ∧ .pop ∉ program.code ∧
      (withConfig program config).Answers input .empty .patient (.matched found) found ∧
      (withConfig (program.withStar 0 true) config).Answers input .empty .patient (.matched found)
        found := by
  intro program config input found
  have expects : program.Expects 1 98 := .inr ⟨_, rfl, by decide⟩
  have noPop : .pop ∉ program.code := by simp [program]
  have matched : ((withConfig program config).runWithMonitor? 9 input .empty .patient).map
      (fun answer => (answer.1.outcome, answer.1.region)) = some (.matched found, found) := by
    decide +kernel
  obtain ⟨⟨report, after⟩, ran, answer⟩ := Option.map_eq_some_iff.1 matched
  obtain ⟨outcome, region⟩ := Prod.mk.inj answer
  have answers : (withConfig program config).Answers input .empty .patient (.matched found)
      found := ⟨9, report, after, ran, outcome, region⟩
  refine ⟨expects, noPop, answers, ?_⟩
  exact (peeking_stars_are_stars rfl expects noPop rfl rfl (.inr ⟨"éabcbé", rfl⟩) (fun _ => rfl)
    .empty (.matched found) found).1 answers

end PatternMachine
