import PatternMachine.Proofs.Landing
import PatternMachine.Proofs.Longest

/-!
# Matches that are not to be empty

A run may be told to refuse candidates without characters.  It refuses those that end where it has
started, so no match ends there.  A candidate that ends before the start has no characters either, and
is taken: its length counts as 0.  Only a lookbehind can take the search that far
(`Search.stands_between_step`).
-/

namespace PatternMachine

/-! ### Which region a run reports -/

/-- Whether an outcome reports only regions of some kind. -/
def Outcome.ReportsOnly (Kind : Region → Prop) (outcome : Outcome) : Prop :=
  ∀ region, outcome = .matched region → Kind region

theorem Outcome.reportsOnly_of_settled {Kind : Region → Prop} {best : Option Candidate}
    {outcome : Outcome} (kind : ∀ candidate, best = some candidate → Kind candidate.region)
    (settled : (∃ failure, outcome = .stopped failure) ∨
      outcome = .ofOption (best.map Candidate.region)) : outcome.ReportsOnly Kind := by
  rintro region rfl
  rcases settled with ⟨failure, stopped⟩ | reports
  · cases stopped
  · cases best with
    | none => cases reports
    | some candidate =>
        cases reports
        exact kind candidate rfl

/-- Whether a best candidate is of some kind.  There is one only while the longest one is looked
for. -/
structure Setting.Keeps (setting : Setting) (Kind : Region → Prop) (best : Option Candidate) :
    Prop where
  kind : ∀ candidate, best = some candidate → Kind candidate.region
  sought : setting.options.findLongest = true ∨ best = none

namespace Search

variable {setting : Setting} {search next : Search} {Kind : Region → Prop}

/-- Whether a search keeps only a candidate of some kind, and a run that has ended reports only
that. -/
def Yields (setting : Setting) (Kind : Region → Prop) : Except Ending Search → Prop :=
  Results (fun search => setting.Keeps Kind search.best)
    (fun ending => ending.outcome.ReportsOnly Kind)

theorem Alongside.yields {best : Option Candidate} {free result : Except Ending Search}
    (along : Alongside best free result) (keeps : setting.Keeps Kind best) :
    Yields setting Kind result := by
  cases along with
  | goesOn _ kept =>
      rw [← kept] at keeps
      exact keeps
  | stopped fails => exact Outcome.reportsOnly_of_settled keeps.kind (.inl ⟨_, fails⟩)
  | ends reports => exact Outcome.reportsOnly_of_settled keeps.kind (.inr reports)

/-- The best candidate behind a dispatch is the one before it, or the one that was found there. -/
theorem kind_of_bestAfter (keeps : setting.Keeps Kind search.best)
    (finds : setting.isCandidate search = true → Kind (search.candidateRegion setting)) :
    ∀ candidate, search.bestAfter setting = some candidate → Kind candidate.region := by
  intro candidate isBest
  unfold Search.bestAfter consider at isBest
  dsimp only at isBest
  split at isBest
  · next accepted =>
      split at isBest
      · cases isBest
        exact finds accepted
      · exact keeps.kind candidate isBest
  · exact keeps.kind candidate isBest

/-- A dispatch yields what was kept before, or what is found there. -/
theorem yields_step (keeps : setting.Keeps Kind search.best)
    (finds : setting.isCandidate search = true → Kind (search.candidateRegion setting)) :
    Yields setting Kind (search.step setting) := by
  have meets : search.Meets search := ⟨rfl, rfl⟩
  have kind := kind_of_bestAfter keeps finds
  cases candidate : setting.isCandidate search with
  | false => exact (meets.step_of_not_candidate candidate).yields keeps
  | true =>
      by_cases goesOn : setting.options.findLongest = true ∧
          search.point.cursor.position < setting.range
      · obtain ⟨longest, ahead⟩ := goesOn
        exact (meets.step_of_candidate longest candidate ahead).yields ⟨kind, .inl longest⟩
      · have final : if setting.options.findLongest then
            setting.range ≤ search.point.cursor.position else search.best = none := by
          split
          · next longest => exact Nat.le_of_not_lt fun ahead => goesOn ⟨longest, ahead⟩
          · next notLongest => exact keeps.sought.resolve_left notLongest
        obtain ⟨ending, stepped, settled⟩ := step_of_final candidate final
        rw [stepped]
        exact Outcome.reportsOnly_of_settled kind settled

/-- A run reports only regions of candidates that it has come to. -/
theorem reportsOnly_of_run? {store : Store} {dispatches : Nat} {ending : Ending}
    (finds : ∀ state ∈ dispatched setting dispatches (start setting store),
      setting.isCandidate state = true → Kind (state.candidateRegion setting))
    (ended : run? setting dispatches (start setting store) = some ending) :
    ending.outcome.ReportsOnly Kind := by
  have nothing : setting.Keeps Kind (start setting store).best := ⟨nofun, .inr rfl⟩
  exact run?_of_dispatched nothing (fun state mem keeps => yields_step keeps (finds state mem)) ended

end Search

/-! ### Staying behind the start -/

namespace Attempt

variable {attempt : Attempt} {cursor : Cursor}

/-- Whether there is text a number of characters to the left, before the start. -/
def isBeforeStart (attempt : Attempt) (length position : Nat) : Bool :=
  (attempt.text.stepBack? 0 length position).any (· < attempt.input.start)

theorem between_stepBack {length position : Nat}
    (between : cursor.Between attempt.input.start attempt.range)
    (stays : attempt.isBeforeStart length cursor.position = false)
    (found : attempt.text.stepBack? 0 length cursor.position = some position) :
    (attempt.text.cursorAt position).Between attempt.input.start attempt.range := by
  rw [isBeforeStart, found] at stays
  exact ⟨Nat.le_of_not_lt (of_decide_eq_false stays),
    Nat.le_trans (Text.stepBack?_le found) between.2⟩

end Attempt

namespace Search

variable {setting : Setting} {search next : Search}

/-- Whether a search is about to go back before the start of its run. -/
def goesBeforeStart (setting : Setting) (search : Search) : Bool :=
  match setting.program.code[search.point.address]? with
  | some (.lookBehind length) | some (.lookBehindNotStart _ length) =>
      setting.isBeforeStart length search.point.cursor.position
  | _ => false

/-- An instruction goes on within the span, unless it looks at something before the start. -/
theorem goes_between (stands : search.Stands (Cursor.Between setting.input.start setting.range))
    (stays : search.goesBeforeStart setting = false) {instruction : Instruction}
    (fetched : setting.program.code[search.point.address]? = some instruction) :
    (Plan.ofInstruction setting.toAttempt search.point search.store instruction).exit.Goes
      (Cursor.Between setting.input.start setting.range) := by
  have onward : instruction.goesBack = false →
      (Plan.ofInstruction setting.toAttempt search.point search.store instruction).exit.Goes
        (Cursor.Between setting.input.start setting.range) := by
    intro forward
    exact (Plan.lands_ofInstruction stands.cursor.2 instruction).mono fun _ =>
      Attempt.Lands.good_onward (setting.carriesOnward_between _) stands.cursor forward
  rw [goesBeforeStart, fetched] at stays
  cases instruction with
  | lookEnd =>
      simp only [Plan.ofInstruction, Plan.lookEnd]
      split
      · next cursor found =>
          obtain ⟨index, read⟩ := Stack.exists_of_lookCursor? found
          exact stands.store index _ read
      · exact trivial
  | lookBehind length =>
      simp only [Plan.ofInstruction, Plan.lookBehind]
      split
      · next position found => exact Attempt.between_stepBack stands.cursor stays found
      · exact trivial
  | lookBehindNotStart offset length =>
      apply Plan.goes_branch
      intro target
      split
      · next position found => exact Attempt.between_stepBack stands.cursor stays found
      · exact stands.cursor
  | _ => exact onward rfl

/-- A search that is in the span stays there as long as it does not look at what is before the
start. -/
theorem stands_between_step
    (stands : search.Stands (Cursor.Between setting.input.start setting.range))
    (stays : search.goesBeforeStart setting = false) (stepped : search.step setting = .ok next) :
    next.Stands (Cursor.Between setting.input.start setting.range) :=
  stands.step_of_moves
    (fun _ => Attempt.stands_of_mem_moves_of_goes
      ((setting.carriesOnward_between _).stars stands.cursor.2 stands.cursor)
      fun _ => goes_between stands stays) stepped

/-- A run is in the span whenever it dispatches, if it never looks at what is before the start. -/
theorem stands_between {store : Store} {dispatches : Nat}
    (stays : ∀ state ∈ dispatched setting dispatches (start setting store),
      state.goesBeforeStart setting = false) :
    ∀ state ∈ dispatched setting dispatches (start setting store),
      state.Stands (Cursor.Between setting.input.start setting.range) := by
  have first : (start setting store).Stands (Cursor.Between setting.input.start setting.range) :=
    ⟨⟨Nat.le_refl _, setting.input.start_le_range⟩, .empty⟩
  exact dispatched_invariant_of_mem first fun state mem _ stands =>
    stands_between_step stands (stays state mem)

end Search

/-! ### The law of matches that are not to be empty -/

/-- No candidate ends at the start if it is not to be empty. -/
theorem Search.position_ne_start {setting : Setting} {search : Search}
    (notEmpty : setting.options.findNotEmpty = true)
    (candidate : setting.isCandidate search = true) :
    search.point.cursor.position ≠ setting.input.start := by
  intro same
  obtain ⟨_, accepted⟩ := isCandidate_iff.1 candidate
  rw [notEmpty, beq_iff_eq.2 same] at accepted
  cases accepted

/-- Where no match ends at the start, the length that is reported is 0 if and only if the match ends
before it. -/
theorem Outcome.matchLength?_eq_zero_iff {outcome : Outcome} {start : Nat}
    (reports : outcome.ReportsOnly fun region =>
      ∃ stop, region.span? 0 = some (start, stop) ∧ stop ≠ start) :
    outcome.matchLength? = .ok (some 0) ↔
      ∃ region stop, outcome = .matched region ∧ region.span? 0 = some (start, stop) ∧
        stop < start := by
  constructor
  · intro zero
    cases outcome with
    | matched region =>
        obtain ⟨stop, span, elsewhere⟩ := reports region rfl
        rw [matchLength?, Region.matchLength?_of_span? span] at zero
        have short : stop - start = 0 := Option.some.inj (Except.ok.inj zero)
        exact ⟨region, stop, rfl, span, by omega⟩
    | unmatched | stopped failure => cases zero
  · rintro ⟨region, stop, rfl, span, short⟩
    rw [matchLength?, Region.matchLength?_of_span? span,
      Nat.sub_eq_zero_of_le (Nat.le_of_lt short)]

namespace Engine

variable {engine after : Engine} {dispatches : Nat} {input : Input} {monitor : Monitor}
  {report : Report}

/-- A run that is to refuse empty candidates reports no match that ends where it has started.  What
it reports is a candidate that it has come to, so if it has not gone back before the start, the match
ends behind the start and is longer than nothing.  The length is reported as 0 if and only if the
match ends before it starts. -/
theorem refused_empty_matches_end_elsewhere (notEmpty : engine.options.findNotEmpty = true)
    (ran : engine.exec? dispatches input monitor = some (report, after)) :
    let setting := engine.setting input monitor
    let states := Search.dispatched setting dispatches (.start setting engine.store)
    (∀ region, report.outcome = .matched region →
      ∃ stop, region.span? 0 = some (input.start, stop) ∧ stop ≠ input.start ∧
        (∃ state ∈ states, setting.program.code[state.point.address]? = some .accept ∧
          state.point.cursor.position = stop) ∧
        ((∀ state ∈ states, state.goesBeforeStart setting = false) → input.start < stop)) ∧
    ∀ before, ∃ filled,
      engine.runWithMonitor? dispatches input before monitor = some (filled, after) ∧
        filled.toReport = report ∧
        (filled.outcome.matchLength? = .ok (some 0) ↔
          ∃ region stop, report.outcome = .matched region ∧
            region.span? 0 = some (input.start, stop) ∧ stop < input.start) := by
  intro setting states
  obtain ⟨ending, ended, rfl, _⟩ := exec?_eq_some_iff.1 ran
  have reports : ending.outcome.ReportsOnly fun region =>
      ∃ stop, region.span? 0 = some (input.start, stop) ∧ stop ≠ input.start ∧
        (∃ state ∈ states, setting.program.code[state.point.address]? = some .accept ∧
          state.point.cursor.position = stop) ∧
        ((∀ state ∈ states, state.goesBeforeStart setting = false) → input.start < stop) := by
    refine Search.reportsOnly_of_run? (fun state mem candidate => ?_) ended
    have accepts := (Search.isCandidate_iff.1 candidate).1
    have elsewhere : state.point.cursor.position ≠ input.start :=
      Search.position_ne_start notEmpty candidate
    refine ⟨state.point.cursor.position, state.store.span?_region (Nat.succ_pos _) _ _, elsewhere,
      ⟨state, mem, accepts, rfl⟩, fun stays => ?_⟩
    exact Nat.lt_of_le_of_ne (Search.stands_between stays state mem).cursor.1 elsewhere.symm
  refine ⟨reports, fun before => ⟨_, runWithMonitor?_of_exec? before ran, rfl, ?_⟩⟩
  apply Outcome.matchLength?_eq_zero_iff
  intro region matched
  obtain ⟨stop, span, elsewhere, _⟩ := reports region matched
  exact ⟨stop, span, elsewhere⟩

/-- The run looks behind itself at what it has consumed, but not at what lies before its start.  It
refuses the first candidate, and the match goes on to the end of the text. -/
theorem refused_empty_matches_end_elsewhere_behind_start :
    let program : Program :=
      { code := #[.push 2, .accept, .byte 97, .lookBehind 1, .bytes ⟨#[97, 98]⟩, .accept]
        templates := #[], classes := #[], repeatRanges := #[], groupCount := 0
        emptyCheckCount := 0, loggedStarts := .empty, loggedEnds := .empty
        options := { findNotEmpty := true }, encoding := .utf8 }
    let engine := withConfig program ⟨.unlimited, { findLongest := true }⟩
    let input := (Input.whole ⟨#[120, 97, 98]⟩).span 1 3
    ∃ report after stop, engine.exec? 9 input .patient = some (report, after) ∧
      report.outcome = .matched ⟨#[some 1], #[some stop]⟩ ∧ 1 < stop ∧
        report.outcome.matchLength? ≠ .ok (some 0) := by
  intro program engine input
  let region : Region := ⟨#[some 1], #[some 3]⟩
  have ended : (engine.exec? 9 input .patient).map (fun answer => answer.1.outcome) =
      some (.matched region) := by decide +kernel
  have stays : ∀ state ∈ Search.dispatched (engine.setting input .patient) 9
      (.start (engine.setting input .patient) engine.store),
        state.goesBeforeStart (engine.setting input .patient) = false := by decide +kernel
  obtain ⟨⟨report, after⟩, ran, outcome⟩ := Option.map_eq_some_iff.1 ended
  obtain ⟨reports, fills⟩ := refused_empty_matches_end_elsewhere rfl ran
  obtain ⟨stop, span, _, _, behind⟩ := reports region outcome
  obtain rfl : 3 = stop := (Prod.mk.inj (Option.some.inj span)).2
  obtain ⟨filled, _, same, zero⟩ := fills .empty
  refine ⟨report, after, 3, ran, outcome, behind stays, ?_⟩
  rw [← same]
  intro isZero
  obtain ⟨region', stop, matched, span', short⟩ := zero.1 isZero
  rw [outcome] at matched
  cases matched
  rw [span] at span'
  cases span'
  exact Nat.not_lt.2 (by decide) short

/-- A candidate behind which the search has looked back ends before it starts.  It is not refused,
and its length is 0. -/
theorem lookbehind_yields_empty_match :
    let program : Program :=
      { code := #[.lookBehind 1, .accept], templates := #[], classes := #[], repeatRanges := #[]
        groupCount := 0, emptyCheckCount := 0, loggedStarts := .empty, loggedEnds := .empty
        options := { findNotEmpty := true }, encoding := .utf8 }
    let input := (Input.whole ⟨#[97]⟩).span 1 1
    ∃ filled after, (new program).runInRegion? 2 input .empty = some (filled, after) ∧
      filled.outcome = .matched ⟨#[some 1], #[some 0]⟩ ∧
        filled.outcome.matchLength? = .ok (some 0) := by
  intro program input
  have answered : ((new program).runInRegion? 2 input .empty).map
      (fun answer => answer.1.outcome) = some (.matched ⟨#[some 1], #[some 0]⟩) := by
    decide +kernel
  obtain ⟨⟨filled, after⟩, ran, outcome⟩ := Option.map_eq_some_iff.1 answered
  refine ⟨filled, after, ran, outcome, ?_⟩
  rw [show filled.outcome = .matched ⟨#[some 1], #[some 0]⟩ from outcome]
  rfl

end Engine

end PatternMachine
