import PatternMachine.Proofs.Lockstep
import PatternMachine.Proofs.Padding.Runs
import PatternMachine.Proofs.Stepping

/-!
# Looking for a byte

A star that takes line terminators and knows that a byte of ASCII must follow does not look at the
characters that it takes: it goes from one occurrence of the byte to the next.  Where no character is
broken off these are the moves that it would make character by character, but for units of work
(`Star.leapMoves_pads`).  So it leaves the same choices and goes on at the same cursor
(`Search.byte_search_takes_characters`).  Where a character is broken off it may leave a choice inside
of it (`Search.byte_search_enters_broken_characters`).
-/

namespace PatternMachine

namespace Star

variable {star : Star} {text : Text} {byte : UInt8} {origin : Cursor} {position stop : Nat}

/-- Bytes that are another one may be passed over. -/
theorem findByte?_of_ne {later : Nat} (onward : position ≤ later) (inside : later ≤ stop)
    (others : ∀ between, position ≤ between → between < later → text.byte between ≠ byte) :
    text.findByte? byte position stop = text.findByte? byte later stop := by
  induction onward with
  | refl => rfl
  | @step later onward ih =>
      have other := others later onward (Nat.lt_succ_self later)
      rw [ih (Nat.le_of_succ_le inside) fun between after before =>
        others between after (Nat.lt_succ_of_lt before), Text.findByte?,
        if_pos (show later < stop from inside), if_neg (fun same => other (eq_of_beq same))]

theorem leapMoves_congr {later : Nat}
    (same : text.findByte? byte position stop = text.findByte? byte later stop) :
    star.leapMoves text byte origin stop position = star.leapMoves text byte origin stop later := by
  rw [leapMoves, leapMoves.eq_1 star text byte origin stop later]
  split
  · next hit found =>
      rw [same] at found
      split
      · next hit' found' => rw [Option.some.inj (found.symm.trans found')]
      · next none_found => rw [found] at none_found; cases none_found
  · next none_found =>
      rw [same] at none_found
      split
      · next hit found => rw [found] at none_found; cases none_found
      · rfl

theorem leapMoves_of_hit (inside : position < stop) (isHit : text.byte position = byte) :
    star.leapMoves text byte origin stop position =
      .work :: .perform (.push (star.choice (text.cursorBehind origin position))) ::
        star.leapMoves text byte origin stop (position + 1) := by
  have found : text.findByte? byte position stop = some position := by
    rw [Text.findByte?, if_pos inside, isHit, beq_self_eq_true, if_pos rfl]
  rw [leapMoves]
  split
  · next hit found' => rw [Option.some.inj (found'.symm.trans found)]
  · next none_found => rw [found] at none_found; cases none_found

theorem leapMoves_of_done (stop : Nat) :
    star.leapMoves text byte origin stop stop = [.goto ⟨star.next, text.cursorBehind origin stop⟩] := by
  have nothing : text.findByte? byte stop stop = none := by
    rw [Text.findByte?, if_neg (Nat.lt_irrefl stop)]
  rw [leapMoves]
  split
  · next hit found => rw [nothing] at found; cases found
  · rfl

/-- Where no character is broken off, a star that looks for a byte of ASCII makes the moves that it
would make character by character, but for units of work. -/
theorem leapMoves_pads {barren : Point → Bool} {next range : Nat} (plain : byte < 0x80)
    (unbroken : text.Unbroken origin.position range) (cursor : Cursor)
    (behind : text.cursorBehind origin cursor.position = cursor)
    (meets : text.Meets origin.position cursor.position) (within : cursor.position ≤ range) :
    Move.Pads barren
      ((⟨true, some byte, next⟩ : Star).leapMoves text byte origin
        (text.fittingEnd origin.position range) cursor.position)
      ((⟨true, some byte, next⟩ : Star).sweepMoves text range cursor) := by
  induction cursor using Star.sweepMoves.induct ⟨true, some byte, next⟩ text range with
  | case1 cursor whole ih =>
      obtain ⟨before, fits⟩ := Text.hasChar_iff.1 whole
      have ahead := unbroken.le_fittingEnd meets.step fits
      have positive := text.charLength_pos cursor.position
      have rest := ih (by rw [Text.cursorBehind, Cursor.step, unbroken.lastHead meets fits])
        meets.step fits
      have goesOn : (⟨true, some byte, next⟩ : Star).failsAt text cursor.position = false := rfl
      by_cases isHit : text.byte cursor.position = byte
      · have leaves : (⟨true, some byte, next⟩ : Star).leavesChoice text cursor.position = true :=
          beq_iff_eq.2 isHit
        have single : text.charLength cursor.position = 1 := by
          have announced := text.charLength_le_announcedAt cursor.position
          rw [Text.announcedAt_of_ascii (by rwa [isHit])] at announced
          omega
        rw [sweepMoves_of_leavesChoice whole leaves, goesOn, if_neg Bool.noConfusion]
        rw [single] at rest ⊢
        rw [leapMoves_of_hit (by omega) isHit, behind]
        exact .work (.choice _ rest)
      · have leaves : (⟨true, some byte, next⟩ : Star).leavesChoice text cursor.position = false :=
          beq_eq_false_iff_ne.2 isHit
        -- No other byte of the character is the one looked for.
        have others : ∀ between, cursor.position ≤ between →
            between < cursor.position + text.charLength cursor.position →
              text.byte between ≠ byte := by
          intro between notBefore inside same
          rcases Nat.eq_or_lt_of_le notBefore with rfl | after
          · exact isHit same
          · have follows := unbroken.follow meets.onward after inside
              (Nat.lt_of_lt_of_le inside fits)
            rw [Text.follows_of_ascii (by rwa [same])] at follows
            cases follows
        rw [sweepMoves_of_not_leavesChoice whole leaves, goesOn, if_neg Bool.noConfusion,
          leapMoves_congr (findByte?_of_ne (Nat.le_add_right _ _) ahead others)]
        exact .moreWork rest
  | case2 cursor done =>
      have cut : text.hasChar cursor.position range = false := Bool.eq_false_iff.2 done
      rw [sweepMoves_of_done cut, unbroken.fittingEnd_of_done meets within cut, leapMoves_of_done,
        behind]
      exact .goto _

/-- The moves of a star that leaves choices one after the other, and goes on at a cursor after a
number of units of work. -/
inductive Takes (star : Star) (cursor : Cursor) : List Frame → Nat → List Move → Prop
  | goto : Takes star cursor [] 0 [.goto ⟨star.next, cursor⟩]
  | work {frames : List Frame} {units : Nat} {moves : List Move}
      (rest : Takes star cursor frames units moves) :
      Takes star cursor frames (units + 1) (.work :: moves)
  | choice {point : Point} {frames : List Frame} {units : Nat} {moves : List Move}
      (rest : Takes star cursor frames units moves) :
      Takes star cursor (.choice point :: frames) units
        (.perform (.push (.choice point)) :: moves)

variable (star text) in
/-- The choices that a star leaves that takes one character after the other, from the first one to
the last one. -/
def choices (range : Nat) (cursor : Cursor) : List Frame :=
  (star.sweepMoves text range cursor).filterMap fun
    | .perform (.push frame) => some frame
    | _ => none

/-- A star that takes line terminators takes all characters. -/
theorem exists_takes_sweepMoves (across : star.acrossLines = true) (range : Nat)
    (cursor : Cursor) : ∃ last units,
      star.Takes last (star.choices text range cursor) units (star.sweepMoves text range cursor) := by
  unfold choices
  induction cursor using Star.sweepMoves.induct star text range with
  | case1 cursor whole ih =>
      have goesOn : star.failsAt text cursor.position = false := by rw [failsAt, across]; rfl
      obtain ⟨last, units, rest⟩ := ih
      cases leaves : star.leavesChoice text cursor.position with
      | true =>
          rw [sweepMoves_of_leavesChoice whole leaves, goesOn, if_neg Bool.noConfusion]
          exact ⟨last, units + 1, .work (.choice rest)⟩
      | false =>
          rw [sweepMoves_of_not_leavesChoice whole leaves, goesOn, if_neg Bool.noConfusion]
          exact ⟨last, units + 1, .work rest⟩
  | case2 cursor done =>
      rw [sweepMoves_of_done (Bool.eq_false_iff.2 done)]
      exact ⟨cursor, 0, .goto⟩

namespace Takes

variable {cursor : Cursor} {frames : List Frame} {units : Nat} {moves moves' : List Move}

/-- Moves without some units of work leave the same choices. -/
theorem of_pads (pads : Move.Pads (fun _ => false) moves moves')
    (takes : star.Takes cursor frames units moves') :
    ∃ few ≤ units, star.Takes cursor frames few moves := by
  induction pads generalizing frames units with
  | goto point =>
      cases takes with
      | goto => exact ⟨0, Nat.le_refl 0, .goto⟩
  | failing => cases takes
  | work rest ih =>
      cases takes with
      | work takes =>
          obtain ⟨few, fewer, takes⟩ := ih takes
          exact ⟨few + 1, Nat.succ_le_succ fewer, .work takes⟩
  | choice point rest ih =>
      cases takes with
      | choice takes =>
          obtain ⟨few, fewer, takes⟩ := ih takes
          exact ⟨few, fewer, .choice takes⟩
  | moreWork rest ih =>
      cases takes with
      | work takes =>
          obtain ⟨few, fewer, takes⟩ := ih takes
          exact ⟨few, Nat.le_succ_of_le fewer, takes⟩
  | extra leadsNowhere => cases leadsNowhere

/-- A star that has room for its choices leaves them. -/
theorem play {setting : Setting} (permitted : ∀ call, setting.monitor.permits call = true)
    (takes : star.Takes cursor frames units moves) {search : Search}
    (room : setting.stackLimit.exceededBy (search.store.depth + frames.length) = false) :
    Move.play setting search moves = .ok
      { search with
        point := ⟨star.next, cursor⟩
        store := frames.foldl Store.push search.store
        steps := search.steps + units } := by
  induction takes generalizing search with
  | goto => rfl
  | @work frames units moves rest ih =>
      have worked : search.work setting = .ok { search with steps := search.steps + 1 } := by
        simp [Search.work, permitted]
      have played := @ih { search with steps := search.steps + 1 } room
      rw [Nat.add_assoc, Nat.add_comm 1 units] at played
      rw [Move.play_cons, Move.attempt, worked]
      exact played
  | @choice point frames units moves rest ih =>
      have enough : search.store.stack.hasRoom setting.stackLimit = true := by
        rw [Stack.hasRoom, Bool.not_eq_true']
        refine Limit.exceededBy_mono ?_ room
        rw [List.length_cons]
        exact Nat.add_le_add_left (Nat.le_add_left 1 _) _
      have notNote : ∀ event, Effect.push (.choice point) ≠ .note event := by
        rintro event ⟨⟩
      have performed := Search.perform_of_ne_note setting search notNote
      rw [enough, Bool.not_true, Bool.and_false, if_neg Bool.noConfusion] at performed
      rw [Move.play_cons, Move.attempt, performed]
      refine ih ?_
      rw [← room, List.length_cons, Effect.onStore, Store.depth_push, Nat.add_assoc,
        Nat.add_comm 1]

end Takes

end Star

namespace Search

variable {setting : Setting} {byte : UInt8} {search : Search}

/-- A star that takes line terminators and looks for a byte of ASCII leaves, in the same order, the
choices that it would leave character by character, and goes on at the same cursor, if no character
behind the cursor is broken off before the end of the span.  The span may cut a character.  There must
be room for the choices, and the hook must let the search go on. -/
theorem byte_search_takes_characters (permitted : ∀ call, setting.monitor.permits call = true)
    (plain : byte < 0x80) (within : search.point.cursor.position ≤ setting.range)
    (unbroken : setting.text.Unbroken search.point.cursor.position setting.range) :
    let star : Star := ⟨true, some byte, search.point.next⟩
    let frames := star.choices setting.text setting.range search.point.cursor
    setting.stackLimit.exceededBy (search.store.depth + frames.length) = false →
      ∃ last few many, few ≤ many ∧
        search.carryOut setting (.ofInstruction setting.toAttempt search.point search.store
            (.anyCharStar true (some byte))) =
          .ok { search with
            point := ⟨search.point.next, last⟩
            store := frames.foldl Store.push search.store
            steps := search.steps + few } ∧
        search.carryOut setting ⟨[], .sweep star⟩ =
          .ok { search with
            point := ⟨search.point.next, last⟩
            store := frames.foldl Store.push search.store
            steps := search.steps + many } := by
  intro star frames room
  have leaps : Plan.ofInstruction setting.toAttempt search.point search.store
      (.anyCharStar true (some byte)) = ⟨[], .leap star byte⟩ := if_pos plain
  obtain ⟨last, many, sweeps⟩ := @Star.exists_takes_sweepMoves star setting.text rfl setting.range
    search.point.cursor
  have pads : Move.Pads (fun _ => false) (setting.exitMoves search.point (.leap star byte))
      (setting.exitMoves search.point (.sweep star)) :=
    Star.leapMoves_pads plain unbroken search.point.cursor (Text.cursorBehind_self ..) (.refl ..)
      within
  obtain ⟨few, fewer, leaves⟩ := sweeps.of_pads pads
  refine ⟨last, few, many, fewer, ?_, ?_⟩
  · rw [leaps, ← leaves.play permitted room]
    exact (play_planMoves setting search search.point rfl ⟨[], .leap star byte⟩).symm
  · rw [← sweeps.play permitted room]
    exact (play_planMoves setting search search.point rfl ⟨[], .sweep star⟩).symm

/-- A byte that stands alone, and a character that the end of the span cuts and the text lacks bytes
of.  There is room for two choices. -/
theorem byte_search_takes_characters_of_stray_bytes :
    let program : Program :=
      { code := #[.anyCharStar true (some 98), .byte 98, .accept]
        templates := #[], classes := #[], repeatRanges := #[], groupCount := 0
        emptyCheckCount := 0, loggedStarts := .empty, loggedEnds := .empty, options := .none
        encoding := .utf8 }
    let input := (Input.whole ⟨#[0x80, 98, 0xe2, 0x82, 0xac, 98, 0xf0, 0x9f]⟩).span 0 7
    let setting : Setting :=
      { program, options := .none, input, stackLimit := .atMost 2, retryLimit := .unlimited
        timeLimit := none, monitor := .patient }
    let search := start setting (.blank 1 0)
    let store := (search.store.push (.choice ⟨1, 1, 0⟩)).push (.choice ⟨1, 5, 2⟩)
    setting.text.Unbroken 0 7 ∧ ∃ last few many, few ≤ many ∧
      search.carryOut setting (.ofInstruction setting.toAttempt search.point search.store
          (.anyCharStar true (some 98))) =
        .ok { search with point := ⟨1, last⟩, store, steps := few } ∧
      search.carryOut setting ⟨[], .sweep ⟨true, some 98, 1⟩⟩ =
        .ok { search with point := ⟨1, last⟩, store, steps := many } := by
  intro program input setting search store
  have unbroken : setting.text.Unbroken 0 7 := by
    have table : ∀ other < 7, ∀ head < other, other < head + setting.text.announcedAt head →
        setting.text.follows other = true := by decide +kernel
    exact fun head other _ after within inside => table other inside head after within
  have frames : (⟨true, some 98, 1⟩ : Star).choices setting.text setting.range search.point.cursor =
      [.choice ⟨1, 1, 0⟩, .choice ⟨1, 5, 2⟩] := by decide +kernel
  have room : setting.stackLimit.exceededBy (search.store.depth +
      ((⟨true, some 98, 1⟩ : Star).choices setting.text setting.range
        search.point.cursor).length) = false := by decide +kernel
  obtain ⟨last, few, many, fewer, leaps, sweeps⟩ :=
    @byte_search_takes_characters setting 98 search (fun _ => rfl) (by decide) (by decide) unbroken
      room
  have none_before : search.steps = 0 := rfl
  rw [show search.point.next = 1 from rfl, frames, none_before, Nat.zero_add] at leaps sweeps
  exact ⟨unbroken, last, few, many, fewer, leaps, sweeps⟩

/-- A first byte announces three bytes, but two characters of ASCII follow.  Character by character
they belong to it and there is no choice to leave.  The byte search leaves a choice before the first
of them, and takes the second one for the character behind which it goes on. -/
theorem byte_search_enters_broken_characters :
    let program : Program :=
      { code := #[.anyCharStar true (some 97), .byte 97, .accept]
        templates := #[], classes := #[], repeatRanges := #[], groupCount := 0
        emptyCheckCount := 0, loggedStarts := .empty, loggedEnds := .empty, options := .none
        encoding := .utf8 }
    let setting : Setting :=
      { program, options := .none, input := .whole ⟨#[0xe3, 97, 98]⟩, stackLimit := .unlimited
        retryLimit := .unlimited, timeLimit := none, monitor := .patient }
    let search := start setting (.blank 1 0)
    search.point.cursor.position ≤ setting.range ∧
      search.carryOut setting (.ofInstruction setting.toAttempt search.point search.store
          (.anyCharStar true (some 97))) =
        .ok { search with
          point := ⟨1, 3, 2⟩, store := search.store.push (.choice ⟨1, 1, 0⟩), steps := 1 } ∧
      search.carryOut setting ⟨[], .sweep ⟨true, some 97, 1⟩⟩ =
        .ok { search with point := ⟨1, 3, 0⟩, steps := 1 } := by
  decide +kernel

end Search

end PatternMachine
