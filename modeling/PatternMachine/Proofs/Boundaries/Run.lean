import PatternMachine.Proofs.Boundaries.Dispatch

/-!
# Runs know the previous character

On a well-formed text, every state that a run visits knows at all its cursors where the character before
them starts (`Search.previous_character_is_known`).  So what an assertion answers does not depend on the
way on which the search has come to where it stands, and a lookbehind steps over whole characters.
-/

namespace PatternMachine

/-- The states that a run visits: the one that it starts in, and those that its moves lead to. -/
inductive Search.Visited (setting : Setting) (store : Store) : Search → Prop
  | start : Visited setting store (.start setting store)
  | after {dispatches : Nat} {visit : Visit}
      (mem : visit ∈ trail setting dispatches (.start setting store)) :
      Visited setting store visit.after

/-- Whether all cursors of a search know where they are, and what groups have captured lies between
boundaries. -/
structure Search.Oriented (text : Text) (search : Search) : Prop where
  stands : search.Stands text.Knows
  records : search.store.Records text.IsBoundary

/-- Whether a move leads only to cursors that know where they are, and records only boundaries. -/
structure Move.Oriented (text : Text) (move : Move) : Prop where
  stands : move.Stands text.Knows
  records : move.Records text.IsBoundary

/-- All moves of a dispatch are oriented. -/
theorem Attempt.oriented_of_mem_moves {attempt : Attempt} {point : Point} {store : Store} {move : Move}
    (wellFormed : attempt.text.WellFormed) (takes : attempt.program.TakesWholeCharacters)
    (knows : attempt.text.Knows point.cursor) (stands : store.Stands attempt.text.Knows)
    (records : store.Records attempt.text.IsBoundary) (mem : move ∈ attempt.moves point store) :
    move.Oriented attempt.text := by
  rcases of_mem_moves mem with rfl | ⟨instruction, fetched, made⟩
  · exact ⟨trivial, trivial⟩
  rcases made with rfl | ⟨event, rfl⟩ | ⟨effect, effectMem, rfl⟩ | exitMem
  · exact ⟨trivial, trivial⟩
  · exact ⟨trivial, trivial⟩
  · have causes := causes_of_mem_effects effectMem
    exact ⟨causes.stands knows, causes.records records knows.isBoundary⟩
  · have goes := Plan.knows_ofInstruction wellFormed knows stands records
      (takes instruction (Array.mem_of_getElem? fetched))
    refine ⟨stands_of_mem_exitMoves (carriesStars_knows wellFormed knows) goes exitMem, ?_⟩
    cases move with
    | perform effect =>
        obtain ⟨point', rfl⟩ := choice_of_mem_exitMoves exitMem
        exact trivial
    | _ => exact trivial

namespace Search

variable {setting : Setting} {search next : Search} {store : Store}

/-- A move that is oriented keeps a search oriented. -/
theorem Oriented.of_attempt {text : Text} (oriented : search.Oriented text) {move : Move}
    (own : move.Oriented text) (attempted : move.attempt setting search = .ok next) :
    next.Oriented text where
  stands := oriented.stands.of_attempt own.stands attempted
  records := by
    rw [Move.store_of_attempt attempted]
    cases move with
    | perform effect => exact oriented.records.onStore own.records
    | backtrack => exact oriented.records.unwind _
    | _ => exact oriented.records

section

variable (wellFormed : setting.text.WellFormed)

include wellFormed

/-- A run that starts at a boundary is oriented at its start. -/
theorem oriented_start (boundary : setting.text.IsBoundary setting.input.start) (store : Store) :
    (start setting store).Oriented setting.text where
  stands := ⟨Text.knows_cursorAt wellFormed boundary, .empty⟩
  records := .reset store

/-- A run that starts at a boundary is oriented in all states that it visits. -/
theorem Visited.oriented (takes : setting.program.TakesWholeCharacters)
    (boundary : setting.text.IsBoundary setting.input.start)
    (visited : search.Visited setting store) : search.Oriented setting.text := by
  have first := oriented_start wellFormed boundary store
  cases visited with
  | start => exact first
  | @after dispatches visit mem =>
      refine (@trail_invariant setting dispatches _ (Oriented setting.text)
        (Move.Oriented setting.text) first ?_ ?_ visit mem).2.2
      · intro search own move mem
        exact Attempt.oriented_of_mem_moves wellFormed takes own.stands.cursor own.stands.store
          own.records mem
      · intro visit mem before own
        exact before.of_attempt own (attempt_of_mem_trail mem)

/-- What an assertion answers at a cursor that knows where it is depends only on its position, the text,
the end of the span and the options. -/
theorem Oriented.assert_eq (oriented : search.Oriented setting.text) {assertion : Assertion}
    (other : assertion ≠ .searchBegin) (searchStart : Nat) :
    Plan.ofInstruction setting.toAttempt search.point search.store (.assert assertion) =
      .check search.point.next search.point.cursor
        (assertion.holds setting.text setting.options setting.range searchStart
          (setting.text.cursorAt search.point.cursor.position)) := by
  rw [← oriented.stands.cursor.eq_cursorAt wellFormed]
  cases assertion with
  | searchBegin => exact absurd rfl other
  | _ => rfl

/-- A lookbehind goes to where as many characters less lead as it is long, or fails where there are
fewer. -/
theorem Oriented.lookBehind_eq (oriented : search.Oriented setting.text) :
    ∃ count, setting.text.stepForward 0 count = search.point.cursor.position ∧ ∀ length,
      Plan.ofInstruction setting.toAttempt search.point search.store (.lookBehind length) =
        if length ≤ count then
          .goto search.point.next
            (setting.text.cursorAt (setting.text.stepForward 0 (count - length)))
        else .fail := by
  obtain ⟨count, reached, back⟩ :=
    oriented.stands.cursor.isBoundary.exists_stepBack? wellFormed
  refine ⟨count, reached, fun length => ?_⟩
  by_cases enough : length ≤ count
  · simp only [Plan.ofInstruction, Plan.lookBehind, back, if_pos enough]
  · simp only [Plan.ofInstruction, Plan.lookBehind, back, if_neg enough]

end

/-- A run on the encoding of a string, or on any bytes of which each is a character, starts at a boundary,
and the literals of its program encode characters; the span may end anywhere.  Then in every state that
it visits, at the point and in every frame, the cursor stands at a boundary and remembers the start of the
character before it.  Assertions, but for the one about the start of the search, answer as they would at a
cursor that was made for the position.  A lookbehind goes back over as many whole characters as it is
long, and fails exactly where fewer precede. -/
theorem previous_character_is_known
    (encodes : setting.program.encoding.Encodes setting.input.bytes)
    (takes : setting.program.TakesWholeCharacters)
    (boundary : setting.text.IsBoundary setting.input.start)
    (visited : search.Visited setting store) :
    search.Stands setting.text.Knows ∧
      (∀ assertion ≠ .searchBegin, ∀ searchStart,
        Plan.ofInstruction setting.toAttempt search.point search.store (.assert assertion) =
          .check search.point.next search.point.cursor
            (assertion.holds setting.text setting.options setting.range searchStart
              (setting.text.cursorAt search.point.cursor.position))) ∧
      ∃ count, setting.text.stepForward 0 count = search.point.cursor.position ∧ ∀ length,
        Plan.ofInstruction setting.toAttempt search.point search.store (.lookBehind length) =
          if length ≤ count then
            .goto search.point.next
              (setting.text.cursorAt (setting.text.stepForward 0 (count - length)))
          else .fail := by
  have wellFormed : setting.text.WellFormed := encodes.wellFormed
  have oriented := visited.oriented wellFormed takes boundary
  exact ⟨oriented.stands, fun _ other => oriented.assert_eq wellFormed other,
    oriented.lookBehind_eq wellFormed⟩

/-- A capture is repeated, a lookbehind goes back over it, and a star goes on to the character that the
span cuts. -/
theorem previous_character_is_known_before_cut_character :
    let program : Program :=
      { code := #[.openGroup 1 true, .bytes "é".toUTF8, .closeGroup 1 true, .backReference .first,
          .lookBehind 1, .anyCharStar true (some 98), .accept]
        templates := #[], classes := #[], repeatRanges := #[], groupCount := 1
        emptyCheckCount := 0, loggedStarts := .empty, loggedEnds := .empty, options := .none
        encoding := .utf8 }
    let setting : Setting :=
      { program, options := .none, input := (Input.whole "ééé€b".toUTF8).span 0 8
        stackLimit := .unlimited, retryLimit := .unlimited, timeLimit := none, monitor := .patient }
    ∃ search, Visited setting (.blank 2 0) search ∧ search.point = ⟨6, ⟨6, 4⟩⟩ ∧
      search.Stands setting.text.Knows ∧
      Plan.ofInstruction setting.toAttempt search.point search.store (.lookBehind 3) =
        .goto 7 ⟨0, 0⟩ ∧
      Plan.ofInstruction setting.toAttempt search.point search.store (.lookBehind 4) = .fail := by
  intro program setting
  have takes : program.TakesWholeCharacters := by
    intro instruction mem
    simp only [program, List.mem_toArray, List.mem_cons, List.not_mem_nil, or_false] at mem
    rcases mem with rfl | rfl | rfl | rfl | rfl | rfl | rfl
    · exact trivial
    · exact ⟨"é", rfl⟩
    all_goals exact trivial
  have encodes : setting.program.encoding.Encodes setting.input.bytes := ⟨"ééé€b", rfl⟩
  have boundary : setting.text.IsBoundary setting.input.start := .zero _
  have reached : ∃ visit ∈ trail setting 6 (start setting (.blank 2 0)),
      visit.after.point = ⟨6, ⟨6, 4⟩⟩ := by decide +kernel
  obtain ⟨visit, mem, point⟩ := reached
  obtain ⟨stands, -, count, isCount, back⟩ :=
    previous_character_is_known encodes takes boundary (.after mem)
  have three : setting.text.stepForward 0 3 = 6 := by decide +kernel
  rw [point, ← three] at isCount
  obtain rfl := (setting.text.stepForward_strictMono 0).injective isCount
  refine ⟨visit.after, .after mem, point, stands, ?_, ?_⟩
  · rw [back, if_pos (by decide), point]
    rfl
  · rw [back, if_neg (by decide)]

end Search

end PatternMachine
