import PatternMachine.Proofs.Bounds.Run
import PatternMachine.Proofs.Guarded.Dispatch

/-!
# Runs under guard

A run is made here of guarded moves: those of a guarded dispatch, each made on the store by a
guarded effect.  As long as the stack stays small enough for call levels to be counted, a run that
starts within its span never comes to a reading that has no result.
-/

namespace PatternMachine

namespace Guarded

/-! ### The moves of a dispatch -/

/-- Whether a star leaves a choice before the character at a position. -/
def leavesChoice (star : Star) (text : Text) (position : Nat) : Option Bool :=
  match star.peeked with
  | some wanted => do
      let here ← byte text position
      some (here == wanted)
  | none => some true

/-- Whether a star fails because of a line terminator at a position. -/
def failsAt (star : Star) (text : Text) (position : Nat) : Option Bool :=
  if star.acrossLines then some false else newlineAt text position

/-- The moves of a star that takes one character after the other. -/
def sweepMoves (star : Star) (text : Text) (range : Nat) (cursor : Cursor) : Option (List Move) :=
  match _here : charAt text cursor.position range with
  | none => none
  | some none => some [.goto ⟨star.next, cursor⟩]
  | some (some character) => do
      let chosen ← leavesChoice star text cursor.position
      let choices : List Move := if chosen then [.perform (.push (star.choice cursor))] else []
      let failed ← failsAt star text cursor.position
      let rest ← if failed then some Move.failing
        else sweepMoves star text range (cursor.step character.length)
      some (.work :: (choices ++ rest))
termination_by range - cursor.position
decreasing_by
  have := lt_of_charAt _here
  have := charAt_length_pos _here
  simp only [Cursor.step]
  omega

/-- The moves of a star that goes from one occurrence of a byte to the next. -/
def leapMoves (star : Star) (text : Text) (wanted : UInt8) (origin : Cursor) (stop position : Nat) :
    Option (List Move) :=
  match _found : findByte text wanted position stop with
  | none => none
  | some none => do
      let cursor ← cursorBehind text origin stop
      some [.goto ⟨star.next, cursor⟩]
  | some (some hit) => do
      let cursor ← cursorBehind text origin hit
      let rest ← leapMoves star text wanted origin stop (hit + 1)
      some (.work :: .perform (.push (star.choice cursor)) :: rest)
termination_by stop - position
decreasing_by
  have := findByte_bounds _found
  omega

/-- The moves with which an instruction is left at a point. -/
def exitMoves (attempt : Attempt) (point : Point) : Exit → Option (List Move)
  | .sweep star => sweepMoves star attempt.text attempt.range point.cursor
  | .leap star wanted => do
      let stop ← fittingEnd attempt.text point.cursor.position attempt.range
      leapMoves star attempt.text wanted point.cursor stop point.cursor.position
  | other => some (attempt.exitMoves point other)

/-- The moves of a dispatch at a point with a store. -/
def moves (attempt : Attempt) (point : Point) (store : Store) : Option (List Move) :=
  match attempt.program.code[point.address]? with
  | none => some [.reject .addressOutOfRange]
  | some instruction => do
      let plan ← ofInstruction attempt point store instruction
      let last ← exitMoves attempt point plan.exit
      some (.work :: .perform (.note (.dispatched point store.depth)) ::
        (plan.effects.map .perform ++ last))

theorem leavesChoice_eq (star : Star) {text : Text} {position : Nat}
    (inside : position < text.size) :
    leavesChoice star text position = some (star.leavesChoice text position) := by
  unfold leavesChoice Star.leavesChoice
  cases star.peeked with
  | none => rfl
  | some wanted =>
      dsimp only
      rw [byte_eq inside]
      rfl

theorem failsAt_eq (star : Star) (text : Text) (position : Nat) :
    failsAt star text position = some (star.failsAt text position) := by
  unfold failsAt Star.failsAt
  rw [newlineAt_eq]
  cases star.acrossLines <;> rfl

theorem sweepMoves_eq (star : Star) {text : Text} {range : Nat} (within : range ≤ text.size)
    (cursor : Cursor) :
    sweepMoves star text range cursor = some (star.sweepMoves text range cursor) := by
  have here := charAt_eq text cursor.position within
  fun_induction Star.sweepMoves star text range cursor with
  | case1 cursor whole choices ih =>
      have bounds := Text.hasChar_iff.1 whole
      rw [Text.charAt?_eq_some_iff.2 ⟨bounds, rfl⟩] at here
      rw [sweepMoves]
      split
      · next none_left => cases here.symm.trans none_left
      · next nothing => cases here.symm.trans nothing
      · next character found =>
          cases here.symm.trans found
          rw [leavesChoice_eq star (Nat.lt_of_lt_of_le bounds.1 within), failsAt_eq]
          simp only [Option.bind_eq_bind, Option.bind_some]
          cases star.failsAt text cursor.position with
          | true => rfl
          | false =>
              rw [if_neg Bool.false_ne_true, if_neg Bool.false_ne_true,
                ih (charAt_eq text _ within)]
              rfl
  | case2 cursor cut =>
      have nothing : text.charAt? cursor.position range = none := by
        cases found : text.charAt? cursor.position range with
        | none => rfl
        | some character =>
            exact absurd (Text.hasChar_iff.2 (Text.charAt?_eq_some_iff.1 found).1) cut
      rw [nothing] at here
      rw [sweepMoves]
      split
      · next none_left => cases here.symm.trans none_left
      · rfl
      · next character found => cases here.symm.trans found

theorem leapMoves_eq (star : Star) {text : Text} (wanted : UInt8) (origin : Cursor) {stop : Nat}
    (within : stop ≤ text.size) (position : Nat) :
    leapMoves star text wanted origin stop position =
      some (star.leapMoves text wanted origin stop position) := by
  have here := findByte_eq wanted position within
  fun_induction Star.leapMoves star text wanted origin stop position with
  | case1 position hit found ih =>
      have before := (Text.findByte?_bounds found).2
      rw [found] at here
      rw [leapMoves]
      split
      · next none_left => cases here.symm.trans none_left
      · next nothing => cases here.symm.trans nothing
      · next other same =>
          cases here.symm.trans same
          rw [cursorBehind_eq origin (Nat.le_trans (Nat.le_of_lt before) within),
            ih (findByte_eq wanted _ within)]
          rfl
  | case2 position nothing =>
      rw [nothing] at here
      rw [leapMoves]
      split
      · next none_left => cases here.symm.trans none_left
      · rw [cursorBehind_eq origin within]
        rfl
      · next hit found => cases here.symm.trans found

section

variable {attempt : Attempt} {point : Point} {store : Store}

theorem exitMoves_eq (within : point.cursor.Fits attempt.range) (exit : Exit) :
    exitMoves attempt point exit = some (attempt.exitMoves point exit) := by
  cases exit with
  | sweep star => exact sweepMoves_eq star attempt.range_le_size point.cursor
  | leap star wanted =>
      have stops : attempt.text.fittingEnd point.cursor.position attempt.range ≤ attempt.range :=
        Text.fittingEnd_le within.position
      rw [exitMoves, fittingEnd_eq _ attempt.range_le_size, Option.bind_eq_bind, Option.bind_some]
      exact leapMoves_eq star wanted point.cursor (Nat.le_trans stops attempt.range_le_size) _
  | _ => rfl

/-- A dispatch within the span reads nothing outside. -/
theorem moves_eq (fits : store.Fits attempt) (within : point.cursor.Fits attempt.range)
    (shallow : store.depth < 2 ^ 31) (addressable : Addressable attempt.program) :
    moves attempt point store = some (attempt.moves point store) := by
  unfold moves Attempt.moves
  cases found : attempt.program.code[point.address]? with
  | none => rfl
  | some instruction =>
      dsimp only
      rw [ofInstruction_eq fits within shallow addressable (Array.mem_of_getElem? found), Option.bind_eq_bind, Option.bind_some,
        exitMoves_eq within]
      rfl

end

/-! ### Making moves -/

/-- Carries out an effect, if the stack has room for it. -/
def perform (setting : Setting) (search : Search) (effect : Effect) :
    Option (Except Ending Search) :=
  match effect with
  | .note event => some (.ok (search.note setting event))
  | _ =>
      if effect.needsRoom && !search.store.stack.hasRoom setting.stackLimit then
        some (search.abort (.stackLimit setting.stackLimit.toNat))
      else do
        let store ← onStore search.store effect
        some (.ok { search with store })

/-- Goes back to the latest choice. -/
def backtrack (store : Store) : Option (Option Point × Store) := do
  let (frame, rest) ← unwind Frame.isResumable store
  some (frame.bind Frame.resume?, rest)

/-- The region of a candidate that ends here. -/
def candidateRegion (setting : Setting) (search : Search) : Option Region := do
  let slots ← regionSize setting.program
  region search.store slots setting.input.start search.point.cursor.position

/-- Takes a candidate that ends here for the best one, if it is longer than that. -/
def consider (setting : Setting) (search : Search) : Option Search :=
  let length := search.point.cursor.position - setting.input.start
  if search.improvedBy length then do
    let region ← candidateRegion setting search
    some { search with best := some ⟨length, region⟩ }
  else
    some search

/-- Makes a move, unless the run has to end with it. -/
def make (setting : Setting) (search : Search) : Move → Option (Except Ending Search)
  | .perform effect => perform setting search effect
  | .backtrack => do
      match ← backtrack search.store with
      | (some point, store) => some (.ok { search with point, store })
      | (none, store) => some { search with store }.conclude
  | .consider => do
      let search ← consider setting search
      some (.ok search)
  | .matched => do
      let region ← candidateRegion setting search
      some (search.halt (.matched region))
  | other => some (other.attempt setting search)

/-- Makes moves one after the other, until the run ends. -/
def play (setting : Setting) (search : Search) : List Move → Option (Except Ending Search)
  | [] => some (.ok search)
  | move :: moves => do
      match ← make setting search move with
      | .ok next => play setting next moves
      | .error ending => some (.error ending)

/-- Dispatches the instruction that the search has come to. -/
def step (setting : Setting) (search : Search) : Option (Except Ending Search) := do
  let moves ← moves setting.toAttempt search.point search.store
  play setting search moves

/-- Dispatches at most a number of instructions, until the run ends. -/
def run (setting : Setting) : (dispatches : Nat) → Search → Option (Option Ending)
  | 0, _ => some none
  | dispatches + 1, search => do
      match ← step setting search with
      | .ok next => run setting dispatches next
      | .error ending => some (some ending)

variable {setting : Setting} {search : Search}

theorem perform_eq (fits : search.Fits setting.toAttempt) {effect : Effect}
    (own : effect.Fits setting.toAttempt) :
    perform setting search effect = some (search.perform setting effect) := by
  have stored := onStore_eq fits.store own
  cases effect with
  | note event => rfl
  | _ =>
      simp only [perform, Search.perform]
      split
      · rfl
      · rw [stored]
        rfl

theorem candidateRegion_eq (fits : search.Fits setting.toAttempt)
    (addressable : Addressable setting.program) :
    candidateRegion setting search = some (search.candidateRegion setting) := by
  rw [candidateRegion, regionSize_eq addressable.slots, Option.bind_eq_bind, Option.bind_some]
  exact region_eq fits.store _ _

theorem consider_eq (fits : search.Fits setting.toAttempt)
    (addressable : Addressable setting.program) :
    consider setting search = some (search.consider setting) := by
  unfold consider Search.consider
  dsimp only
  split
  · rw [candidateRegion_eq fits addressable]
    rfl
  · rfl

theorem make_eq (fits : search.Fits setting.toAttempt)
    (addressable : Addressable setting.program) {move : Move}
    (own : move.Fits setting.toAttempt) :
    make setting search move = some (move.attempt setting search) := by
  cases move with
  | perform effect => exact perform_eq fits own
  | backtrack =>
      have back : backtrack search.store = some search.store.backtrack := by
        rw [backtrack, unwind_eq fits.store]
        rfl
      rw [make, back, Option.bind_eq_bind, Option.bind_some, Move.attempt]
      rcases search.store.backtrack with ⟨found, rest⟩
      cases found <;> rfl
  | consider =>
      rw [make, consider_eq fits addressable]
      rfl
  | matched =>
      rw [make, candidateRegion_eq fits addressable]
      rfl
  | _ => rfl

theorem play_eq (fits : search.Fits setting.toAttempt)
    (addressable : Addressable setting.program) {moves : List Move}
    (own : ∀ move ∈ moves, move.Fits setting.toAttempt) :
    play setting search moves = some (Move.play setting search moves) := by
  induction moves generalizing search with
  | nil => rfl
  | cons move moves ih =>
      have first := own move List.mem_cons_self
      rw [play, make_eq fits addressable first, Option.bind_eq_bind, Option.bind_some, Move.play_cons]
      cases made : move.attempt setting search with
      | error ending => rfl
      | ok next =>
          refine ih (fits.of_attempt first made) ?_
          exact fun other mem => own other (List.mem_cons_of_mem _ mem)

/-- A dispatch from within the span reads nothing outside, and neither do its effects. -/
theorem step_eq (fits : search.Fits setting.toAttempt) (shallow : search.store.depth < 2 ^ 31)
    (addressable : Addressable setting.program) :
    step setting search = some (search.step setting) := by
  rw [step, moves_eq fits.store fits.cursor shallow addressable, Option.bind_eq_bind,
    Option.bind_some, Search.step_eq_play]
  exact play_eq fits addressable fun move mem => Attempt.fits_of_mem_moves fits.store fits.cursor mem

/-- A run from within the span reads nothing outside, as long as it keeps the stack small. -/
theorem run_eq (addressable : Addressable setting.program)
    {dispatches : Nat} (fits : search.Fits setting.toAttempt)
    (shallow : search.store.depth < 2 ^ 31)
    (stays : ∀ visit ∈ Search.trail setting dispatches search, visit.after.store.depth < 2 ^ 31) :
    run setting dispatches search = some (Search.run? setting dispatches search) := by
  induction dispatches generalizing search with
  | zero => rfl
  | succ dispatches ih =>
      rw [run, step_eq fits shallow addressable, Option.bind_eq_bind, Option.bind_some, Search.run?]
      rw [Search.trail] at stays
      cases stepped : search.step setting with
      | error ending => rfl
      | ok next =>
          rw [stepped] at stays
          obtain ⟨last, leads, ends⟩ :=
            Move.leads_trail setting search (setting.moves search.point search.store)
          rw [← Search.step_eq_play] at ends
          obtain rfl := ends next stepped
          have low : next.store.depth < 2 ^ 31 :=
            (@Visit.Leads.invariant (fun search => search.store.depth < 2 ^ 31) _ _ _ leads shallow
              fun visit mem _ => stays visit (List.mem_append_left _ mem)).2
          exact ih (fits.step stepped) low fun visit mem =>
            stays visit (List.mem_append_right _ mem)

end Guarded

end PatternMachine
