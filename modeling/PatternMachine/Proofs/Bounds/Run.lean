import PatternMachine.Engine
import PatternMachine.Proofs.Bounds.Dispatch
import PatternMachine.Proofs.Trail

/-!
# Runs stay within the span

Every state that a run visits fits, and so does what it reports at its end.
-/

namespace PatternMachine

/-- Whether a run that ends with a match reports a region that fits. -/
def Outcome.Fits (attempt : Attempt) (outcome : Outcome) : Prop :=
  ∀ region, outcome = .matched region → region.Fits attempt

/-- Whether an ending reports only what fits, and leaves a store that fits. -/
structure Ending.Fits (attempt : Attempt) (ending : Ending) : Prop where
  outcome : ending.outcome.Fits attempt
  store : ending.last.store.Fits attempt

/-- A search goes back to a point that fits. -/
theorem Store.Fits.backtrack {attempt : Attempt} {store : Store} (fits : store.Fits attempt)
    {point : Point} (resumed : store.backtrack.1 = some point) :
    point.cursor.Fits attempt.range :=
  (Attempt.stands_of_fits fits).backtrack resumed

namespace Search

variable {setting : Setting} {search next : Search} {move : Move} {ending : Ending}

theorem Fits.candidateRegion (fits : search.Fits setting.toAttempt) :
    (search.candidateRegion setting).Fits setting.toAttempt :=
  fits.store.region setting.input.start_le_range fits.cursor.position

theorem Fits.consider (fits : search.Fits setting.toAttempt) :
    (search.consider setting).Fits setting.toAttempt := by
  unfold Search.consider
  dsimp only
  split
  · refine ⟨fits.cursor, fits.store, ?_⟩
    intro candidate same
    cases same
    exact fits.candidateRegion
  · exact fits

/-- The run ends with the best candidate, which fits. -/
theorem Fits.conclude (fits : search.Fits setting.toAttempt)
    (ended : search.conclude = .error ending) : ending.Fits setting.toAttempt := by
  cases ended
  refine ⟨?_, fits.store⟩
  intro region matched
  cases best : search.best with
  | none =>
      rw [best] at matched
      cases matched
  | some candidate =>
      rw [best] at matched
      cases matched
      exact fits.best candidate best

/-- A move that fits keeps the search within its span. -/
theorem Fits.of_attempt (fits : search.Fits setting.toAttempt) (own : move.Fits setting.toAttempt)
    (attempted : move.attempt setting search = .ok next) : next.Fits setting.toAttempt := by
  have store : next.store.Fits setting.toAttempt := by
    rw [Move.store_of_attempt attempted]
    cases move with
    | perform effect => exact fits.store.onStore own
    | backtrack => exact fits.store.unwind _
    | _ => exact fits.store
  obtain rfl := Move.eq_onSearch attempted
  cases move with
  | perform effect =>
      cases effect with
      | note event =>
          rw [Move.onSearch, note_eq]
          exact ⟨fits.cursor, fits.store, fits.best⟩
      | _ => exact ⟨fits.cursor, store, fits.best⟩
  | backtrack =>
      refine ⟨?_, store, fits.best⟩
      rw [Move.onSearch]
      cases resumed : search.store.backtrack.1 with
      | none => exact fits.cursor
      | some point => exact fits.store.backtrack resumed
  | goto point => exact ⟨own, store, fits.best⟩
  | consider => exact fits.consider
  | work | fail | matched | conclude | reject reason => exact ⟨fits.cursor, store, fits.best⟩

/-- A run that a move ends within the span reports only what fits. -/
theorem Fits.ending_of_attempt (fits : search.Fits setting.toAttempt)
    (ended : move.attempt setting search = .error ending) : ending.Fits setting.toAttempt := by
  cases Move.stops_of_attempt ended with
  | denied _ kept =>
      refine ⟨?_, ?_⟩
      · intro region matched
        cases matched
      · rw [kept]
        exact fits.store
  | @tried store none_left =>
      have rested : store.Fits setting.toAttempt := by
        have same : search.store.backtrack.2 = store := by rw [none_left]
        rw [← same]
        exact fits.store.unwind _
      have own : { search with store : Search }.Fits setting.toAttempt :=
        ⟨fits.cursor, rested, fits.best⟩
      exact own.conclude rfl
  | concluded => exact fits.conclude rfl
  | matched =>
      refine ⟨?_, fits.store⟩
      intro region matched
      cases matched
      exact fits.candidateRegion
  | rejected =>
      refine ⟨?_, fits.store⟩
      intro region matched
      cases matched

/-- A dispatch keeps a search within its span, or ends the run with what fits. -/
theorem Fits.step_results (fits : search.Fits setting.toAttempt) :
    Results (Search.Fits setting.toAttempt) (Ending.Fits setting.toAttempt)
      (search.step setting) := by
  rw [step_eq_play]
  apply Move.play_results _ fits fun move => Attempt.fits_of_mem_moves fits.store fits.cursor
  intro search move own legal
  cases attempted : move.attempt setting search with
  | ok next => exact own.of_attempt legal attempted
  | error ending => exact own.ending_of_attempt attempted

theorem Fits.step (fits : search.Fits setting.toAttempt)
    (stepped : search.step setting = .ok next) : next.Fits setting.toAttempt := by
  have results := fits.step_results
  rw [stepped] at results
  exact results

/-- A run that starts within its span ends with a report that fits. -/
theorem Fits.run? {dispatches : Nat} (fits : search.Fits setting.toAttempt)
    (ended : run? setting dispatches search = some ending) : ending.Fits setting.toAttempt :=
  run?_of_steps (fun own => own.step_results) fits ended

/-- All states that a run visits lie within its span. -/
theorem Fits.trail {dispatches : Nat} (fits : search.Fits setting.toAttempt) :
    ∀ visit ∈ trail setting dispatches search, visit.before.Fits setting.toAttempt ∧
      visit.move.Fits setting.toAttempt ∧ visit.after.Fits setting.toAttempt := by
  refine @trail_invariant setting dispatches _ (Search.Fits setting.toAttempt)
    (Move.Fits setting.toAttempt) fits ?_ ?_
  · intro search own move mem
    exact Attempt.fits_of_mem_moves own.store own.cursor mem
  · intro visit mem before own
    exact before.of_attempt own (attempt_of_mem_trail mem)

/-- A run starts within its span, on a store with the registers of its program. -/
theorem fits_start {store : Store}
    (groupSlots : store.registers.groups.size = setting.program.regionSize)
    (repeatSlots : store.registers.repeats.size = setting.program.repeatRanges.size) :
    (start setting store).Fits setting.toAttempt where
  cursor := Text.fits_cursorAt setting.input.start_le_range
  store := .reset groupSlots repeatSlots
  best := by
    intro candidate none
    cases none

end Search

end PatternMachine
