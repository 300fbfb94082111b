import PatternMachine.Proofs.Answers
import PatternMachine.Proofs.Horizon.Text
import PatternMachine.Proofs.Safety

/-!
# Runs do not see beyond their span

An instruction that asks about the position may look at the character there even where the span
ends.  A program without such instructions comes to the same states on texts of one length that are
the same within the span, whatever stands behind it.
-/

namespace PatternMachine

/-! ### Other texts -/

/-- The same span of another text of the same length. -/
def Input.withBytes (input : Input) (bytes : ByteArray) (sized : bytes.size = input.bytes.size) :
    Input where
  bytes
  start := input.start
  range := input.range
  searchStart? := input.searchStart?
  start_le_range := input.start_le_range
  range_le_size := Nat.le_trans input.range_le_size (Nat.le_of_eq sized.symm)

/-- The same attempt on another text. -/
def Attempt.withBytes (attempt : Attempt) (bytes : ByteArray)
    (sized : bytes.size = attempt.input.bytes.size) : Attempt :=
  { attempt with input := attempt.input.withBytes bytes sized }

/-- The same setting with another text. -/
def Setting.withBytes (setting : Setting) (bytes : ByteArray)
    (sized : bytes.size = setting.input.bytes.size) : Setting :=
  { setting with toAttempt := setting.toAttempt.withBytes bytes sized }

/-- Whether an assertion looks at the character behind the cursor. -/
def Assertion.looksAhead : Assertion → Bool
  | .wordBoundary | .noWordBoundary | .wordBegin | .wordEnd | .lineEnd
  | .textEndOrFinalNewline => true
  | .textBegin | .textEnd | .lineBegin | .searchBegin => false

/-- Whether an instruction looks at a character that it does not consume. -/
def Instruction.looksAhead : Instruction → Bool
  | .assert assertion => assertion.looksAhead
  | _ => false

/-- Whether the character before a cursor, if there is one, starts within a span. -/
def Cursor.Anchored (range : Nat) (cursor : Cursor) : Prop :=
  cursor.position = 0 ∨ cursor.previous < range

theorem Text.anchored_cursorAt (text : Text) {position range : Nat} (within : position ≤ range) :
    (text.cursorAt position).Anchored range := by
  unfold Cursor.Anchored cursorAt
  cases before : text.prevHead? 0 position with
  | none =>
      unfold prevHead? at before
      split at before
      · next atStart => exact .inl (Nat.le_zero.1 atStart)
      · cases before
  | some head => exact .inr (Nat.lt_of_lt_of_le (prevHead?_lt before) within)

/-- The character before the cursor always starts within the span. -/
theorem Attempt.carries_anchored (attempt : Attempt) :
    attempt.Carries (Cursor.Anchored attempt.range) where
  char := fun _ _ _ before _ _ => .inr before
  behind := by
    intro cursor stop anchored _ inside
    unfold Cursor.Anchored Text.cursorBehind Text.lastHead
    dsimp only
    split
    · have := attempt.text.headAt_le cursor.position (stop - 1)
      omega
    · rcases anchored with atStart | before
      · omega
      · exact .inr before
  back := fun _ => attempt.text.anchored_cursorAt

/-! ### Dispatches -/

section Dispatch

variable {attempt : Attempt} {bytes : ByteArray} {sized : bytes.size = attempt.input.bytes.size}
  (same : attempt.text.SameTo attempt.range (attempt.withBytes bytes sized).text)
  {point : Point} {store : Store}

include same

namespace Plan

theorem consumed_withBytes {address : Nat} {stop? : Option Nat}
    (inside : ∀ stop, stop? = some stop → stop ≤ attempt.range) :
    consumed address (stop?.map ((attempt.withBytes bytes sized).text.cursorBehind point.cursor)) =
      consumed address (stop?.map (attempt.text.cursorBehind point.cursor)) := by
  cases stop? with
  | none => rfl
  | some stop => rw [Option.map_some, Option.map_some, same.cursorBehind _ (inside stop rfl)]

theorem oneChar_withBytes (accepts : Nat → Bool) :
    oneChar (attempt.withBytes bytes sized) point accepts = oneChar attempt point accepts := by
  have here : (attempt.withBytes bytes sized).text.charAt? point.cursor.position
      (attempt.withBytes bytes sized).range =
        attempt.text.charAt? point.cursor.position attempt.range := same.charAt? (Nat.le_refl _)
  unfold oneChar
  dsimp only
  rw [here]

theorem literal_withBytes (within : point.cursor.position ≤ attempt.range) {excerpt : Excerpt}
    (excerpts : excerpt.Same excerpt) :
    literal (attempt.withBytes bytes sized) point excerpt = literal attempt point excerpt := by
  have here : (attempt.withBytes bytes sized).text.matchExcerpt? point.cursor.position
      (attempt.withBytes bytes sized).range excerpt (attempt.withBytes bytes sized).ignoresCase =
        attempt.text.matchExcerpt? point.cursor.position attempt.range excerpt
          attempt.ignoresCase := same.matchExcerpt? (Nat.le_refl _) excerpts _
  unfold literal
  dsimp only
  rw [here]
  exact consumed_withBytes same fun stop => Text.matchExcerpt?_le within

theorem literalByte_withBytes (value : UInt8) :
    literalByte (attempt.withBytes bytes sized) point value = literalByte attempt point value := by
  have here : (attempt.withBytes bytes sized).text.matchByte? point.cursor.position
      (attempt.withBytes bytes sized).range value (attempt.withBytes bytes sized).ignoresCase =
        attempt.text.matchByte? point.cursor.position attempt.range value attempt.ignoresCase :=
    same.matchByte? (Nat.le_refl _) value _
  unfold literalByte
  dsimp only
  rw [here]

theorem foldedChars_withBytes (within : point.cursor.position ≤ attempt.range)
    (codes : List Nat) :
    foldedChars (attempt.withBytes bytes sized) point codes = foldedChars attempt point codes := by
  have here : (attempt.withBytes bytes sized).text.matchCodes? point.cursor.position
      (attempt.withBytes bytes sized).range codes =
        attempt.text.matchCodes? point.cursor.position attempt.range codes :=
    same.matchCodes? (Nat.le_refl _) codes
  unfold foldedChars
  dsimp only
  rw [here]
  exact consumed_withBytes same fun stop => Text.matchCodes?_le within

theorem charClass_withBytes (operand : ClassOperand) :
    charClass (attempt.withBytes bytes sized) point operand = charClass attempt point operand := by
  have here : (attempt.withBytes bytes sized).text.charAt? point.cursor.position
      (attempt.withBytes bytes sized).range =
        attempt.text.charAt? point.cursor.position attempt.range := same.charAt? (Nat.le_refl _)
  unfold charClass
  dsimp only
  rw [here]
  rfl

theorem anyChar_withBytes (acrossLines : Bool) :
    anyChar (attempt.withBytes bytes sized) point acrossLines =
      anyChar attempt point acrossLines := by
  have here : (attempt.withBytes bytes sized).text.hasChar point.cursor.position
      (attempt.withBytes bytes sized).range =
        attempt.text.hasChar point.cursor.position attempt.range := same.hasChar (Nat.le_refl _)
  unfold anyChar
  dsimp only
  rw [here]
  cases whole : attempt.text.hasChar point.cursor.position attempt.range with
  | false => rfl
  | true =>
      have before := (Text.hasChar_iff.1 whole).1
      rw [same.newlineAt before, same.charLength before]
      rfl

theorem nextIs_withBytes (next : UInt8) :
    nextIs (attempt.withBytes bytes sized) point next = nextIs attempt point next := by
  by_cases before : point.cursor.position < attempt.range
  · have here : (attempt.withBytes bytes sized).text.byte point.cursor.position =
        attempt.text.byte point.cursor.position := same.byte _ before
    rw [nextIs, nextIs, here]
    rfl
  · have cut : decide (point.cursor.position < attempt.range) = false := decide_eq_false before
    have cut' : decide (point.cursor.position < (attempt.withBytes bytes sized).range) = false :=
      cut
    rw [nextIs, nextIs, cut, cut', Bool.false_and, Bool.false_and]

theorem lookBehind_withBytes (within : point.cursor.position ≤ attempt.range) (length : Nat) :
    lookBehind (attempt.withBytes bytes sized) point length = lookBehind attempt point length := by
  unfold lookBehind
  rw [same.stepBack? within]
  cases found : attempt.text.stepBack? 0 length point.cursor.position with
  | none => rfl
  | some position =>
      dsimp only
      rw [same.cursorAt (Nat.le_trans (Text.stepBack?_le found) within)]

theorem lookBehindNotStart_withBytes (within : point.cursor.position ≤ attempt.range)
    (offset : Int) (length : Nat) :
    lookBehindNotStart (attempt.withBytes bytes sized) point offset length =
      lookBehindNotStart attempt point offset length := by
  unfold lookBehindNotStart
  rw [same.stepBack? within]
  cases found : attempt.text.stepBack? 0 length point.cursor.position with
  | none => rfl
  | some position =>
      dsimp only
      rw [same.cursorAt (Nat.le_trans (Text.stepBack?_le found) within)]
      rfl

/-- An assertion that does not look ahead holds of both texts or of none. -/
theorem holds_withBytes (anchored : point.cursor.Anchored attempt.range) {assertion : Assertion}
    (blind : assertion.looksAhead = false) :
    assertion.holds (attempt.withBytes bytes sized).text attempt.options attempt.range
        attempt.input.searchStart point.cursor =
      assertion.holds attempt.text attempt.options attempt.range attempt.input.searchStart
        point.cursor := by
  cases assertion with
  | textBegin | searchBegin => rfl
  | textEnd => rw [Assertion.holds, Assertion.holds, same.size]
  | lineBegin =>
      rw [Assertion.holds, Assertion.holds, same.size]
      rcases anchored with atStart | before
      · rw [if_pos atStart, if_pos atStart]
      · rw [same.newlineAt before]
  | _ => cases blind

end Plan

/-! ### Back references -/

namespace BackReference

open Attempt

theorem matchCaptured?_withBytes (position : Nat) {first last : Nat}
    (starts : first ≤ attempt.range) (stops : last ≤ attempt.range) (ignoreCase : Bool) :
    (attempt.withBytes bytes sized).matchCaptured? first last position ignoreCase =
      attempt.matchCaptured? first last position ignoreCase :=
  same.matchExcerpt? (Nat.le_refl _) (.captured same starts stops) ignoreCase

variable (fits : store.Fits attempt) (position : Nat)

include fits

theorem repeatGroup?_withBytes (group : Nat) (ignoreCase : Bool) :
    repeatGroup? (attempt.withBytes bytes sized) store position group ignoreCase =
      repeatGroup? attempt store position group ignoreCase := by
  unfold repeatGroup?
  cases spanned : store.span? group with
  | none => rfl
  | some span =>
      obtain ⟨starts, stops⟩ := fits.span? spanned
      dsimp only
      rw [matchCaptured?_withBytes same position starts stops]
      rfl

theorem repeatAny?_withBytes (groups : List Nat) (ignoreCase : Bool) :
    repeatAny? (attempt.withBytes bytes sized) store position ignoreCase groups =
      repeatAny? attempt store position ignoreCase groups := by
  induction groups with
  | nil => rfl
  | cons group groups ih =>
      rw [repeatAny?, repeatAny?, ih]
      cases spanned : store.span? group with
      | none => rfl
      | some span =>
          obtain ⟨starts, stops⟩ := fits.span? spanned
          dsimp only
          rw [matchCaptured?_withBytes same position starts stops]
          rfl

theorem repeat?_withBytes (reference : BackReference) :
    reference.repeat? (attempt.withBytes bytes sized) store position =
      reference.repeat? attempt store position := by
  cases reference with
  | first | second | group number folded =>
      exact repeatGroup?_withBytes same fits position _ _
  | anyOf numbers folded => exact repeatAny?_withBytes same fits position numbers _
  | atLevel folded level numbers =>
      rw [repeat?, repeat?, repeatAtLevel?, repeatAtLevel?]
      cases spanned : store.stack.spanAtLevel? numbers level with
      | none => rfl
      | some span =>
          obtain ⟨first, last⟩ := span
          obtain ⟨starts, stops⟩ := fits.spanAtLevel? spanned
          rw [Option.bind_some, Option.bind_some]
          dsimp only
          rw [matchCaptured?_withBytes same position starts stops folded]
          rfl

end BackReference

/-- An instruction that does not look ahead does the same on both texts. -/
theorem Plan.ofInstruction_withBytes (fits : store.Fits attempt)
    (within : point.cursor.position ≤ attempt.range)
    (anchored : point.cursor.Anchored attempt.range) {instruction : Instruction}
    (blind : instruction.looksAhead = false) :
    ofInstruction (attempt.withBytes bytes sized) point store instruction =
      ofInstruction attempt point store instruction := by
  cases instruction with
  | byte value => exact literalByte_withBytes same value
  | bytes content => exact literal_withBytes same within (.refl (Nat.le_refl _) (Nat.zero_le _))
  | template index offset length =>
      simp only [ofInstruction]
      have literal? : (attempt.withBytes bytes sized).program.literal? index offset length =
          attempt.program.literal? index offset length := rfl
      rw [literal?]
      cases found : attempt.program.literal? index offset length with
      | none => rfl
      | some excerpt =>
          apply literal_withBytes same within
          unfold Program.literal? at found
          split at found
          · split at found
            · next template _ inside =>
                cases found
                exact .refl inside (Nat.le_trans (Nat.le_add_right _ _) inside)
            · cases found
          · cases found
  | foldedChar code =>
      exact oneChar_withBytes same fun found => attempt.text.encoding.fold found == code
  | word wanted =>
      exact oneChar_withBytes same fun found => attempt.text.encoding.isWord found == wanted
  | foldedChars codes => exact foldedChars_withBytes same within codes
  | charClass operand => exact charClass_withBytes same operand
  | anyChar acrossLines => exact anyChar_withBytes same acrossLines
  | assert assertion =>
      have holds := holds_withBytes same anchored blind
      exact congrArg (check point.next point.cursor) holds
  | backReference reference =>
      simp only [ofInstruction, backReference]
      rw [BackReference.repeat?_withBytes same fits]
      split
      · next stop? repeated =>
          apply consumed_withBytes same
          rintro stop rfl
          exact BackReference.repeat?_le within repeated
      · rfl
  | pushOrJump offset next | pushIfNext offset next =>
      simp only [ofInstruction, nextIs_withBytes same]
      rfl
  | lookBehind length => exact lookBehind_withBytes same within length
  | lookBehindNotStart offset length => exact lookBehindNotStart_withBytes same within offset length
  | _ => rfl

end Dispatch

/-! ### Moves -/

namespace Star

variable {horizon : Nat} {left right : Text} (same : left.SameTo horizon right) (star : Star)

include same

/-- A star that stays within the horizon makes the same moves on both texts. -/
theorem sweepMoves_sameTo {range : Nat} (inside : range ≤ horizon) (cursor : Cursor) :
    star.sweepMoves right range cursor = star.sweepMoves left range cursor := by
  fun_induction Star.sweepMoves star left range cursor with
  | case1 cursor whole choices ih =>
      have before := Nat.lt_of_lt_of_le (Text.hasChar_iff.1 whole).1 inside
      have character : right.hasChar cursor.position range = true := by
        rw [same.hasChar inside]
        exact whole
      have leaves : star.leavesChoice right cursor.position =
          star.leavesChoice left cursor.position := by
        unfold leavesChoice
        rw [same.byte _ before]
      have fails : star.failsAt right cursor.position = star.failsAt left cursor.position := by
        rw [failsAt, failsAt, same.newlineAt before]
      rw [sweepMoves, dif_pos character, leaves, fails, same.charLength before, ih]
      rfl
  | case2 cursor cut =>
      have nothing : ¬ right.hasChar cursor.position range = true := by
        rw [same.hasChar inside]
        exact cut
      rw [sweepMoves, dif_neg nothing]

theorem leapMoves_sameTo {byte : UInt8} {stop : Nat} (inside : stop ≤ horizon) (origin : Cursor)
    (position : Nat) :
    star.leapMoves right byte origin stop position =
      star.leapMoves left byte origin stop position := by
  fun_induction Star.leapMoves star left byte origin stop position with
  | case1 position hit found ih =>
      have before := (Text.findByte?_bounds found).2
      have found' : right.findByte? byte position stop = some hit := by
        rw [same.findByte? inside]
        exact found
      rw [leapMoves]
      split
      · next other isOther =>
          rw [found'] at isOther
          cases isOther
          rw [same.cursorBehind origin (Nat.le_of_lt (Nat.lt_of_lt_of_le before inside)), ih]
      · next none_found =>
          rw [found'] at none_found
          cases none_found
  | case2 position none_found =>
      rw [leapMoves]
      split
      · next other isOther =>
          rw [same.findByte? inside, none_found] at isOther
          cases isOther
      · rw [same.cursorBehind origin inside]

end Star

section Run

variable {setting : Setting} {bytes : ByteArray} {sized : bytes.size = setting.input.bytes.size}

theorem Attempt.exitMoves_withBytes {attempt : Attempt}
    {sized : bytes.size = attempt.input.bytes.size}
    (same : attempt.text.SameTo attempt.range (attempt.withBytes bytes sized).text) {point : Point}
    (within : point.cursor.position ≤ attempt.range) (exit : Exit) :
    (attempt.withBytes bytes sized).exitMoves point exit = attempt.exitMoves point exit := by
  cases exit with
  | sweep star => exact star.sweepMoves_sameTo same (Nat.le_refl _) point.cursor
  | leap star byte =>
      have stop : (attempt.withBytes bytes sized).text.fittingEnd point.cursor.position
          (attempt.withBytes bytes sized).range =
            attempt.text.fittingEnd point.cursor.position attempt.range :=
        same.fittingEnd (Nat.le_refl _)
      rw [exitMoves, exitMoves, stop]
      exact star.leapMoves_sameTo same (Text.fittingEnd_le within) point.cursor _
  | _ => rfl

/-- A dispatch consists of the same moves on both texts, unless its instruction looks ahead. -/
theorem Attempt.moves_withBytes {attempt : Attempt}
    {sized : bytes.size = attempt.input.bytes.size}
    (same : attempt.text.SameTo attempt.range (attempt.withBytes bytes sized).text)
    (blind : ∀ instruction ∈ attempt.program.code, instruction.looksAhead = false)
    {point : Point} {store : Store} (fits : store.Fits attempt)
    (within : point.cursor.position ≤ attempt.range)
    (anchored : point.cursor.Anchored attempt.range) :
    (attempt.withBytes bytes sized).moves point store = attempt.moves point store := by
  have program : (attempt.withBytes bytes sized).program = attempt.program := rfl
  rw [moves, moves, program]
  cases fetched : attempt.program.code[point.address]? with
  | none => rfl
  | some instruction =>
      dsimp only
      rw [Plan.ofInstruction_withBytes same fits within anchored
        (blind instruction (Array.mem_of_getElem? fetched)), planMoves, planMoves,
        exitMoves_withBytes same within]

/-- A move does not look at the text. -/
theorem Move.attempt_withBytes (search : Search) (move : Move) :
    move.attempt (setting.withBytes bytes sized) search = move.attempt setting search := by
  cases move <;> rfl

namespace Search

variable (same : setting.text.SameTo setting.range (setting.toAttempt.withBytes bytes sized).text)
  (blind : ∀ instruction ∈ setting.program.code, instruction.looksAhead = false)

include same blind

theorem step_withBytes {search : Search} (fits : search.Fits setting.toAttempt)
    (stands : search.Stands (Cursor.Anchored setting.range)) :
    search.step (setting.withBytes bytes sized) = search.step setting := by
  have attempt : Move.attempt (setting.withBytes bytes sized) = Move.attempt setting := by
    funext search move
    exact Move.attempt_withBytes search move
  have moves : (setting.withBytes bytes sized).moves search.point search.store =
      setting.moves search.point search.store :=
    Attempt.moves_withBytes same blind fits.store fits.cursor.position stands.cursor
  rw [step_eq_play, step_eq_play, moves, Move.play, Move.play, attempt]

/-- A run comes to the same end on both texts. -/
theorem run?_withBytes {search : Search} (fits : search.Fits setting.toAttempt)
    (stands : search.Stands (Cursor.Anchored setting.range)) (dispatches : Nat) :
    run? (setting.withBytes bytes sized) dispatches search = run? setting dispatches search := by
  induction dispatches generalizing search with
  | zero => rfl
  | succ dispatches ih =>
      rw [run?, run?, step_withBytes same blind fits stands]
      cases stepped : search.step setting with
      | error ending => rfl
      | ok next =>
          exact ih (fits.step stepped)
            (stands.step setting.carries_anchored fits.cursor.position stepped)

end Search

end Run

/-- Texts that begin with the same bytes are the same up to the end of the span. -/
theorem Attempt.sameTo_withBytes {attempt : Attempt} {bytes : ByteArray}
    (sized : bytes.size = attempt.input.bytes.size)
    (same : bytes.extract 0 attempt.range = attempt.input.bytes.extract 0 attempt.range) :
    attempt.text.SameTo attempt.range (attempt.withBytes bytes sized).text where
  encoding := rfl
  size := sized
  inside := attempt.input.range_le_size
  byte := by
    have inside : 0 + attempt.range ≤ attempt.text.size := by
      rw [Nat.zero_add]
      exact attempt.input.range_le_size
    have inside' : 0 + attempt.range ≤ (attempt.withBytes bytes sized).text.size :=
      Nat.le_trans inside (Nat.le_of_eq sized.symm)
    rw [← Nat.zero_add attempt.range] at same
    intro position before
    have byte := (Text.extract_eq_extract_iff inside' inside).1 same position before
    rwa [Nat.zero_add] at byte

namespace Engine

variable {engine : Engine}

/-- A run of an engine is the same on two texts that are the same within its span. -/
theorem exec?_withBytes (used : engine.Used)
    (blind : ∀ instruction ∈ engine.program.code, instruction.looksAhead = false) {input : Input}
    {bytes : ByteArray} (sized : bytes.size = input.bytes.size)
    (same : bytes.extract 0 input.range = input.bytes.extract 0 input.range) (dispatches : Nat)
    (monitor : Monitor) :
    engine.exec? dispatches (input.withBytes bytes sized) monitor =
      engine.exec? dispatches input monitor := by
  let setting := engine.setting input monitor
  have texts : setting.text.SameTo setting.range (setting.toAttempt.withBytes bytes sized).text :=
    Attempt.sameTo_withBytes sized same
  have start : Search.start (setting.withBytes bytes sized) engine.store =
      .start setting engine.store := by
    have cursor : (setting.withBytes bytes sized).text.cursorAt setting.input.start =
        setting.text.cursorAt setting.input.start :=
      texts.cursorAt setting.input.start_le_range
    exact congrArg (fun cursor => ({ Search.start setting engine.store with
      point := ⟨0, cursor⟩ } : Search)) cursor
  have stands : (Search.start setting engine.store).Stands (Cursor.Anchored setting.range) :=
    ⟨setting.text.anchored_cursorAt setting.input.start_le_range, .empty⟩
  have ran := Search.run?_withBytes texts blind (used.fits_start input monitor) stands dispatches
  rw [← start] at ran
  have opening : engine.openingEvent (input.withBytes bytes sized) = engine.openingEvent input := by
    rw [openingEvent, openingEvent, show (input.withBytes bytes sized).bytes.size =
      input.bytes.size from sized]
    rfl
  unfold exec?
  dsimp only
  rw [opening]
  exact congrArg _ (ran.trans (congrArg _ start))

/-- Bytes beyond the span have no influence.  If no instruction of the program looks ahead, a run
has the same outcome, the same region and the same calls of the hook on all texts of one length that
begin with the same bytes up to the end of the span, whether they are well-formed or not.  What the
clock says makes no difference either, as time is not limited. -/
theorem bytes_beyond_span_have_no_influence (used : engine.Used)
    (blind : ∀ instruction ∈ engine.program.code, instruction.looksAhead = false)
    (timeless : engine.config.timeLimit = none) {left right : Input}
    (start : right.start = left.start) (range : right.range = left.range)
    (searchStart : right.searchStart? = left.searchStart?)
    (sized : right.bytes.size = left.bytes.size)
    (same : right.bytes.extract 0 left.range = left.bytes.extract 0 left.range) (dispatches : Nat)
    (region : Region) (permits : Nat → Bool) (elapsed elapsed' : Nat → Nat) :
    engine.exec? dispatches right ⟨permits, elapsed'⟩ =
        engine.exec? dispatches left ⟨permits, elapsed⟩ ∧
      engine.runWithMonitor? dispatches right region ⟨permits, elapsed'⟩ =
        engine.runWithMonitor? dispatches left region ⟨permits, elapsed⟩ := by
  have right_eq : right = left.withBytes right.bytes sized := by
    cases right
    cases start
    cases range
    cases searchStart
    rfl
  have ran : engine.exec? dispatches right ⟨permits, elapsed'⟩ =
      engine.exec? dispatches left ⟨permits, elapsed⟩ := by
    rw [right_eq, exec?_withBytes used blind sized same]
    exact exec?_withClock timeless permits elapsed' elapsed
  refine ⟨ran, ?_⟩
  rw [runWithMonitor?, runWithMonitor?, ran]

/-- The span cuts the last character, and only one of the two texts goes on with the rest of one.  A
star does not take it from either. -/
theorem bytes_beyond_span_have_no_influence_on_cut_character :
    let program : Program :=
      { code := #[.anyCharStar true none, .accept], templates := #[], classes := #[],
        repeatRanges := #[], groupCount := 0, emptyCheckCount := 0, loggedStarts := .empty,
        loggedEnds := .empty, options := .none, encoding := .utf8 }
    let engine := withConfig program ⟨.unlimited, .none⟩
    let left := (Input.whole ⟨#[97, 0xc3, 0xa9]⟩).span 0 2
    let right := (Input.whole ⟨#[97, 0xc3, 40]⟩).span 0 2
    engine.exec? 2 right .patient = engine.exec? 2 left .patient ∧
      (engine.exec? 2 left .patient).map (fun answer => answer.1.outcome) =
        some (.matched ⟨#[some 0], #[some 1]⟩) := by
  intro program engine left right
  have blind : ∀ instruction ∈ engine.program.code, instruction.looksAhead = false := by
    decide +kernel
  have ran := bytes_beyond_span_have_no_influence (.fresh program _) blind rfl
    (show right.start = left.start from rfl) rfl rfl rfl (by decide +kernel) 2 .empty
    (fun _ => true) (fun _ => 0) fun _ => 0
  exact ⟨ran.1, by decide +kernel⟩

end Engine

end PatternMachine
