import PatternMachine.Proofs.Nesting.Listing

/-!
# Checked programs are sound

Whenever a run of a checked program dispatches an instruction, the brackets of the listing are open,
so the instruction finds what it needs; and going back to a choice opens them again.
`Listing.Sound` is that invariant.  It is kept by safe moves, a dispatch consists of such moves, and
none of them ends a run because of a malformed instruction.
-/

namespace PatternMachine

namespace Listing

/-- Whether a store has the brackets of a context open, and all its choices resume where theirs may
be open. -/
structure Holds (program : Program) (listing : Listing) (context : List Bracket) (store : Store) :
    Prop where
  nests : store.Nests context
  resumes : store.Resumes listing.Admits
  enters : store.Enters program

/-- Whether a search stands where its open brackets allow it to stand. -/
def Sound (program : Program) (listing : Listing) (search : Search) : Prop :=
  ∃ context, listing.Admits search.point.address context ∧
    listing.Holds program context search.store

variable {program : Program} {listing : Listing} {context after : List Bracket} {store : Store}

/-- Effects leave a frame that undoes them, have nothing to undo or end a bracket. -/
theorem Turns.isUndone {effect : Effect} (turns : listing.Turns program context effect after) :
    effect.IsUndone ∨ ∃ mark, effect = .commit mark := by
  cases turns with
  | push nothing | opens nothing => exact .inl nothing
  | commit => exact .inr ⟨_, rfl⟩
  | _ => exact .inl trivial

/-- What an effect turns a context into is open behind it. -/
theorem Turns.nests {effect : Effect} (turns : listing.Turns program context effect after)
    (nests : store.Nests context) (enters : store.Enters program) :
    (effect.onStore store).Nests after := by
  cases turns with
  | note => exact nests
  | push => exact nests.push _
  | opens nothing _ opens => exact nests.push_bracket nothing opens
  | openGroup | closeGroup => exact nests.of_stack_eq_push rfl rfl
  | enterRepeat known _ fresh =>
      rw [← enters.slots] at known
      exact nests.enterRepeat _ known fresh
  | countInEntry => exact nests.countInEntry _
  | countInRegister => exact nests.countInRegister _
  | commit => exact nests.commit
  | unwindTo => exact .nil

/-- An effect that is safe in a context keeps the invariant. -/
theorem Holds.onStore {effect : Effect} (holds : listing.Holds program context store)
    (turns : listing.Turns program context effect after) :
    listing.Holds program after (effect.onStore store) where
  nests := turns.nests holds.nests holds.enters
  resumes := by
    apply holds.resumes.onStore turns.isUndone
    intro frame point pushed resumesAt
    cases turns with
    | push _ resumes | opens _ resumes =>
        cases pushed
        exact ⟨context, resumes point resumesAt, holds.nests⟩
    | _ => cases pushed
  enters := by
    apply holds.enters.onStore turns.isUndone
    intro id body entered
    cases turns with
    | enterRepeat known hasBody =>
        cases entered
        exact ⟨known, hasBody⟩
    | _ => cases entered

/-- Going back to a choice leads to where it was left, in the context of that time. -/
theorem Holds.backtrack (holds : listing.Holds program context store) {point : Point}
    (resumed : store.backtrack.1 = some point) :
    ∃ context, listing.Admits point.address context ∧
      listing.Holds program context store.backtrack.2 := by
  obtain ⟨context, admits, nests⟩ := holds.resumes.backtrack resumed
  exact ⟨context, admits, nests, holds.resumes.unwind fun _ => .of_isResumable,
    holds.enters.unwind _⟩

end Listing

/-! ### Runs -/

/-- Whether a run has ended for another reason than a malformed instruction. -/
def Ending.IsSound (ending : Ending) : Prop :=
  ∀ address reason, ending.outcome ≠ .stopped (.corrupt address reason)

/-- A move that rejects no instruction ends no run because of one. -/
theorem Move.isSound_of_attempt {setting : Setting} {search : Search} {move : Move}
    {ending : Ending} (ended : move.attempt setting search = .error ending)
    (accepts : ∀ reason, move ≠ .reject reason) : ending.IsSound :=
  fun _ reason corrupt => accepts reason (eq_reject_of_attempt ended corrupt)

namespace Listing

variable {setting : Setting} {listing : Listing} {context : List Bracket} {search : Search}

/-- A run that goes on after a move does so on the store that the move has made. -/
theorem results_attempt {move : Move} {Inv : Search → Prop}
    (accepts : ∀ reason, move ≠ .reject reason)
    (goes_on : ∀ next, move.attempt setting search = .ok next →
      next.store = move.onStore search.store → Inv next) :
    Search.Results Inv Ending.IsSound (move.attempt setting search) := by
  cases attempted : move.attempt setting search with
  | ok next => exact goes_on next attempted (Move.store_of_attempt attempted)
  | error ending => exact Move.isSound_of_attempt attempted accepts

/-- Safe moves keep a search sound, and none of them finds the program malformed. -/
theorem Safe.play {moves : List Move} (safe : listing.Safe setting.program context moves)
    (holds : listing.Holds setting.program context search.store) :
    Search.Results (listing.Sound setting.program) Ending.IsSound
      (Move.play setting search moves) := by
  induction safe generalizing search with
  | @quiet move moves context isQuiet rest ih =>
      rw [Move.play_cons]
      have quiet : Search.Results (fun next => listing.Holds setting.program context next.store)
          Ending.IsSound (move.attempt setting search) := by
        apply results_attempt
        · rintro reason rfl
          cases isQuiet
        · intro next _ stored
          rw [stored]
          cases move <;> first | exact holds | cases isQuiet
      exact quiet.bind ih
  | @perform effect moves context after turns rest ih =>
      rw [Move.play_cons]
      have performed : Search.Results (fun next => listing.Holds setting.program after next.store)
          Ending.IsSound (Move.attempt setting search (.perform effect)) := by
        apply results_attempt fun _ => Move.noConfusion
        intro next _ stored
        rw [stored]
        exact holds.onStore turns
      exact performed.bind ih
  | @goto point context admits => exact ⟨context, admits, holds⟩
  | backtrack =>
      rw [Move.play_cons]
      have resumed : Search.Results (listing.Sound setting.program) Ending.IsSound
          (Move.attempt setting search .backtrack) := by
        apply results_attempt fun _ => Move.noConfusion
        intro next attempted _
        simp only [Move.attempt] at attempted
        split at attempted
        · next point store back =>
            cases attempted
            have found : search.store.backtrack.1 = some point := by rw [back]
            have sound := holds.backtrack found
            rw [back] at sound
            exact sound
        · cases attempted
      exact resumed.bind fun sound => sound
  | @answer move context answers =>
      rw [Move.play_cons]
      have answered : Search.Results (listing.Sound setting.program) Ending.IsSound
          (move.attempt setting search) := by
        apply results_attempt
        · rintro reason rfl
          cases answers
        · intro next attempted _
          cases move with
          | matched | conclude => cases attempted
          | _ => cases answers
      exact answered.bind fun sound => sound

namespace Checks

/-- A dispatch of a checked program keeps a search sound. -/
theorem step_results (checks : listing.Checks setting.program)
    (sound : listing.Sound setting.program search) :
    Search.Results (listing.Sound setting.program) Ending.IsSound (search.step setting) := by
  obtain ⟨context, admits, holds⟩ := sound
  obtain ⟨instruction, inner, fetched, suffix, permits⟩ := checks.fetch admits
  have nests := holds.nests.suffix suffix
  have safe := permits.safe fetched nests holds.enters
  rw [Search.step_eq_play, Attempt.moves, fetched]
  exact Safe.play (.quiet rfl (.perform .note safe)) ⟨nests, holds.resumes, holds.enters⟩

/-- A run of a checked program starts sound, on a store with the registers of the program. -/
theorem sound_start (checks : listing.Checks setting.program) {store : Store}
    (slots : store.registers.repeats.size = setting.program.repeatRanges.size) :
    listing.Sound setting.program (.start setting store) := by
  refine ⟨[], checks.start, .nil, ?_, .reset slots⟩
  intro index frame point offers
  cases offers.1

end Checks

end Listing

/-! ### What instructions find -/

/-- Whether a store has the frame that an instruction looks for: an iteration that has started, the
entry in which a repeat is active, or the mark of a lookaround or an atomic group. -/
def Instruction.Finds (store : Store) : Instruction → Prop
  | .emptyCheckEnd id _ => ∃ index position, store.stack.emptyCheck? id = some index ∧
      store.stack.get? index = some (.emptyCheck id position)
  | .repeatNext id .. => ∃ index count body outer savedCount,
      (store.registers.repeatOf id).entry = some index ∧
        store.stack.get? index = some (.repeatEntry id count body outer savedCount)
  | .lookEnd => store.stack.hasMark .look = true
  | .lookNotFail => store.stack.hasMark .lookNot = true
  | .atomicEnd => store.stack.hasMark .atomic = true
  | .lookBehindNotFail => store.stack.hasMark .behindNot = true
  | _ => True

/-- Whether a search stands at an instruction that finds what it looks for. -/
def Search.IsReady (program : Program) (search : Search) : Prop :=
  ∃ instruction, program.code[search.point.address]? = some instruction ∧
    instruction.Finds search.store

namespace Listing

variable {program : Program} {listing : Listing} {context : List Bracket} {search : Search}

/-- Where the brackets of its context are open, an instruction that is permitted finds what it looks
for. -/
theorem Permits.finds {address : Nat} {instruction : Instruction}
    (permits : listing.Permits program address instruction context) {store : Store}
    (nests : store.Nests context) : instruction.Finds store := by
  cases permits with
  | leaf isLeaf => cases instruction <;> trivial
  | emptyCheckEnd =>
      obtain ⟨index, found⟩ := nests.emptyCheck?
      obtain ⟨frame, read, passes⟩ := Stack.get?_of_lastIndex? found
      cases frame with
      | emptyCheck started position =>
          obtain rfl := eq_of_beq passes
          exact ⟨index, position, found, read⟩
      | _ => cases passes
  | repeatNext => exact nests.entry
  | lookEnd | lookNotFail | atomicEnd | behindNotFail => exact nests.hasMark
  | _ => exact trivial

theorem Sound.isReady (sound : listing.Sound program search) (checks : listing.Checks program) :
    search.IsReady program := by
  obtain ⟨context, admits, holds⟩ := sound
  obtain ⟨instruction, inner, fetched, suffix, permits⟩ := checks.fetch admits
  exact ⟨instruction, fetched, permits.finds (holds.nests.suffix suffix)⟩

end Listing

end PatternMachine
