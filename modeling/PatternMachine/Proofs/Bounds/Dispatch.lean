import PatternMachine.Proofs.Bounds.Store
import PatternMachine.Proofs.Landing

/-!
# Dispatches stay within the span

What an instruction consumes lies before the end of the span, what a lookahead goes back to stands
in a frame, and a lookbehind goes to the left.  So every move of a dispatch fits, whatever the
program.
-/

namespace PatternMachine

namespace Text

variable {text : Text} {range position stop : Nat}

theorem fits_cursorAt (inside : position ≤ range) : (text.cursorAt position).Fits range := by
  refine ⟨inside, ?_⟩
  simp only [cursorAt]
  cases before : text.prevHead? 0 position with
  | none => exact inside
  | some head => exact Nat.le_trans (Nat.le_of_lt (prevHead?_lt before)) inside

theorem fits_cursorBehind {cursor : Cursor} (fits : cursor.Fits range) (inside : stop ≤ range) :
    (text.cursorBehind cursor stop).Fits range := by
  refine ⟨inside, ?_⟩
  simp only [cursorBehind, lastHead]
  split
  · have := text.headAt_le cursor.position (stop - 1)
    omega
  · exact fits.previous

end Text

namespace Attempt

variable {attempt : Attempt} {point : Point} {store : Store} {move : Move}

theorem range_le_size (attempt : Attempt) : attempt.range ≤ attempt.text.size :=
  attempt.input.range_le_size

theorem carries_fits (attempt : Attempt) : attempt.Carries (Cursor.Fits attempt.range) where
  char := fun _ _ fits _ _ inside => ⟨inside, fits.position⟩
  behind := fun _ _ fits _ inside => Text.fits_cursorBehind fits inside
  back := fun _ inside => Text.fits_cursorAt inside

/-- The cursors in a store that fits do so. -/
theorem stands_of_fits (fits : store.Fits attempt) : store.Stands (Cursor.Fits attempt.range) := by
  intro index frame read
  have own := fits.frames index frame read
  cases frame <;> first | exact own | exact trivial

/-- What an instruction records fits. -/
theorem Causes.fits (fits : store.Fits attempt) (within : point.cursor.Fits attempt.range)
    {instruction : Instruction} {effect : Effect}
    (causes : attempt.Causes point store instruction effect) : effect.Fits attempt := by
  cases causes with
  | choice | look | lookNot | behindNot => exact within
  | openGroup known | closeGroup known => exact ⟨known, within.position⟩
  | startGroup known =>
      refine ⟨known, ?_, (fits.bounds _).stop⟩
      intro position isDirect
      cases isDirect
      exact within.position
  | stopGroup known =>
      refine ⟨known, (fits.bounds _).start, ?_⟩
      intro position isDirect
      cases isDirect
      exact within.position
  | clearGroup known => exact known
  | unsetGroup known => exact ⟨known, .unset⟩
  | emptyCheck => exact within.position
  | enterRepeat known | countInRegister known => exact known
  | report | countInEntry | atomic | call | returned | discard | lookEnd | atomicEnd | lookNotFail
  | behindNotFail => exact trivial

/-- All moves of a dispatch fit. -/
theorem fits_of_mem_moves (fits : store.Fits attempt) (within : point.cursor.Fits attempt.range)
    (mem : move ∈ attempt.moves point store) : move.Fits attempt := by
  have stands := stands_of_mem_moves attempt.carries_fits (stands_of_fits fits) within.position
    within mem
  rcases of_mem_moves mem with rfl | ⟨instruction, _, made⟩
  · trivial
  rcases made with rfl | ⟨event, rfl⟩ | ⟨effect, effectMem, rfl⟩ | exitMem
  · trivial
  · trivial
  · exact (causes_of_mem_effects effectMem).fits fits within
  · cases move with
    | perform effect =>
        obtain ⟨point', rfl⟩ := choice_of_mem_exitMoves exitMem
        exact stands
    | goto point => exact stands
    | _ => exact trivial

end Attempt

end PatternMachine
