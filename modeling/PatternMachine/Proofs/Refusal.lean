import PatternMachine.Proofs.Answers

/-!
# A hook that refuses ends the run

A run may loop for ever without ever failing or filling its stack, and a star may take any number of
characters in one dispatch.  What every run does all the time is work.  The hook is called after
every `checkInterval` units of it, wherever they were done, so a run that goes on comes to every
call; and it goes no further than the one that is refused.
-/

namespace PatternMachine

/-! ### Units of work -/

/-- A unit of work of a dispatch. -/
inductive WorkUnit where
  /-- The instruction at an address is dispatched. -/
  | dispatch (address : Nat)
  /-- A star comes to the character at a position. -/
  | character (position : Nat)
  /-- A star that looks for a byte finds it at a position. -/
  | hit (position : Nat)
  deriving DecidableEq, Repr

/-- Where the characters start that lie wholly before `range`, from a position on. -/
def Text.headsFrom (text : Text) (range position : Nat) : List Nat :=
  if _whole : text.hasChar position range then
    position :: text.headsFrom range (position + text.charLength position)
  else
    []
termination_by range - position
decreasing_by
  have := (Text.hasChar_iff.1 _whole).1
  have := text.charLength_pos position
  omega

/-- The positions of a list up to, and with, the first one at which a star fails. -/
def Star.upToFailure (star : Star) (text : Text) (positions : List Nat) : List Nat :=
  positions.takeWhile (fun position => !star.failsAt text position) ++
    (positions.dropWhile fun position => !star.failsAt text position).take 1

/-- Where a byte stands, from a position on and before `stop`. -/
def Text.hits (text : Text) (byte : UInt8) (position stop : Nat) : List Nat :=
  (List.range' position (stop - position)).filter fun index => text.byte index == byte

namespace Attempt

variable (attempt : Attempt)

/-- The units of work in leaving an instruction. -/
def exitUnits (cursor : Cursor) : Exit → List WorkUnit
  | .sweep star =>
      (star.upToFailure attempt.text
        (attempt.text.headsFrom attempt.range cursor.position)).map .character
  | .leap _ byte =>
      (attempt.text.hits byte cursor.position
        (attempt.text.fittingEnd cursor.position attempt.range)).map .hit
  | _ => []

/-- The units of work in a dispatch. -/
def units (point : Point) (store : Store) : List WorkUnit :=
  match attempt.program.code[point.address]? with
  | none => []
  | some instruction =>
      .dispatch point.address ::
        attempt.exitUnits point.cursor (Plan.ofInstruction attempt point store instruction).exit

end Attempt

namespace Star

variable {star : Star} {text : Text}

theorem upToFailure_cons (position : Nat) (positions : List Nat) :
    star.upToFailure text (position :: positions) =
      position :: if star.failsAt text position then [] else star.upToFailure text positions := by
  unfold upToFailure
  cases fails : star.failsAt text position <;> simp [fails]

theorem count_work_sweepMoves (range : Nat) (cursor : Cursor) :
    (star.sweepMoves text range cursor).count .work =
      (star.upToFailure text (text.headsFrom range cursor.position)).length := by
  fun_induction Star.sweepMoves star text range cursor with
  | case1 cursor whole choices ih =>
      have choicesFree : choices.count .work = 0 := by
        simp only [choices]
        split <;> rfl
      have character : text.hasChar cursor.position range = true := whole
      rw [Text.headsFrom, dif_pos character, upToFailure_cons, List.count_cons_self,
        List.count_append, choicesFree, Nat.zero_add, List.length_cons]
      split
      · rfl
      · rw [ih]
        rfl
  | case2 cursor cut =>
      have nothing : ¬ text.hasChar cursor.position range = true := cut
      rw [Text.headsFrom, dif_neg nothing]
      rfl

end Star

namespace Text

variable {text : Text} {byte : UInt8} {position stop : Nat}

theorem hits_of_lt (inside : position < stop) :
    text.hits byte position stop =
      if text.byte position == byte then position :: text.hits byte (position + 1) stop
      else text.hits byte (position + 1) stop := by
  rw [hits, show stop - position = stop - (position + 1) + 1 by omega, List.range'_succ,
    List.filter_cons]
  rfl

theorem hits_of_findByte? {hit : Nat} (found : text.findByte? byte position stop = some hit) :
    text.hits byte position stop = hit :: text.hits byte (hit + 1) stop := by
  fun_induction text.findByte? byte position stop with
  | case1 position inside here =>
      cases found
      rw [hits_of_lt inside, if_pos here]
  | case2 position inside elsewhere ih =>
      rw [hits_of_lt inside, if_neg elsewhere]
      exact ih found
  | case3 => cases found

theorem hits_eq_nil (none_found : text.findByte? byte position stop = none) :
    text.hits byte position stop = [] := by
  fun_induction text.findByte? byte position stop with
  | case1 => cases none_found
  | case2 position inside elsewhere ih =>
      rw [hits_of_lt inside, if_neg elsewhere]
      exact ih none_found
  | case3 position outside =>
      rw [hits, Nat.sub_eq_zero_of_le (Nat.le_of_not_lt outside)]
      rfl

theorem count_work_leapMoves (star : Star) (origin : Cursor) :
    (star.leapMoves text byte origin stop position).count .work =
      (text.hits byte position stop).length := by
  fun_induction Star.leapMoves star text byte origin stop position with
  | case1 position hit found ih =>
      rw [hits_of_findByte? found, List.count_cons_self, List.length_cons, ← ih]
      rfl
  | case2 position none_found =>
      rw [hits_eq_nil none_found]
      rfl

end Text

namespace Attempt

variable (attempt : Attempt)

theorem count_work_exitMoves (point : Point) (exit : Exit) :
    (attempt.exitMoves point exit).count .work = (attempt.exitUnits point.cursor exit).length := by
  cases exit with
  | sweep star =>
      rw [exitMoves, exitUnits, List.length_map]
      exact Star.count_work_sweepMoves _ _
  | leap star byte =>
      rw [exitMoves, exitUnits, List.length_map]
      exact Text.count_work_leapMoves _ _
  | accept =>
      rw [exitMoves, acceptMoves]
      repeat' split
      all_goals rfl
  | goto | fail | finish | corrupt => rfl

/-- What counts as work among the moves of a dispatch are its units. -/
theorem count_work_moves (point : Point) (store : Store) :
    (attempt.moves point store).count .work = (attempt.units point store).length := by
  unfold moves units
  cases attempt.program.code[point.address]? with
  | none => rfl
  | some instruction =>
      have effectsFree : ∀ effects : List Effect, (effects.map Move.perform).count .work = 0 := by
        intro effects
        rw [List.count_eq_zero]
        intro mem
        obtain ⟨effect, _, same⟩ := List.mem_map.1 mem
        cases same
      simp only [planMoves, List.count_cons_self, List.length_cons]
      rw [List.count_cons_of_ne Move.noConfusion, List.count_append, effectsFree, Nat.zero_add,
        count_work_exitMoves]

end Attempt

namespace Move

variable {setting : Setting} {search next : Search} {move : Move} {moves : List Move}

theorem steps_of_attempt (attempted : move.attempt setting search = .ok next) :
    next.steps = search.steps + [move].count .work := by
  by_cases isWork : move = .work
  · subst isWork
    rw [eq_onSearch attempted]
    rfl
  · have kept := steps_reached setting search isWork
    rw [attempted] at kept
    rw [List.count_singleton, if_neg (by simpa using isWork)]
    exact kept

theorem steps_le_of_attempt {ending : Ending}
    (ended : move.attempt setting search = .error ending) :
    ending.last.steps ≤ search.steps + [move].count .work := by
  by_cases isWork : move = .work
  · subst isWork
    simp only [attempt, Search.work] at ended
    split at ended
    · cases ended
      exact Nat.le_refl _
    · cases ended
  · have kept := steps_reached setting search isWork
    rw [ended] at kept
    exact Nat.le_trans (Nat.le_of_eq kept) (Nat.le_add_right _ _)

theorem steps_of_play (played : play setting search moves = .ok next) :
    next.steps = search.steps + moves.count .work :=
  count_of_play steps_of_attempt played

theorem steps_le_of_play {ending : Ending} (ended : play setting search moves = .error ending) :
    ending.last.steps ≤ search.steps + moves.count .work := by
  induction moves generalizing search with
  | nil => cases ended
  | cons move moves ih =>
      have split : (move :: moves).count .work = [move].count .work + moves.count .work :=
        @List.count_append _ _ .work [move] moves
      rw [play_cons] at ended
      cases attempted : move.attempt setting search with
      | error ending' =>
          rw [attempted] at ended
          cases ended
          have one := steps_le_of_attempt attempted
          omega
      | ok middle =>
          rw [attempted] at ended
          have rest := ih ended
          have one := steps_of_attempt attempted
          omega

end Move

/-- A dispatch that goes on has done its units of work. -/
theorem Search.steps_of_step {setting : Setting} {search next : Search}
    (stepped : search.step setting = .ok next) :
    next.steps = search.steps + (setting.units search.point search.store).length := by
  rw [step_eq_play] at stepped
  rw [Move.steps_of_play stepped, Attempt.count_work_moves]

/-- A dispatch that ends the run has done some of its units of work. -/
theorem Search.steps_le_of_step {setting : Setting} {search : Search} {ending : Ending}
    (ended : search.step setting = .error ending) :
    ending.last.steps ≤ search.steps + (setting.units search.point search.store).length := by
  rw [step_eq_play] at ended
  rw [← Attempt.count_work_moves]
  exact Move.steps_le_of_play ended

/-- Every dispatch that goes on has done work. -/
theorem Search.steps_lt_of_step {setting : Setting} {search next : Search}
    (stepped : search.step setting = .ok next) : search.steps < next.steps := by
  rw [steps_of_step stepped, Attempt.units]
  cases fetched : setting.program.code[search.point.address]? with
  | none =>
      rw [step, fetched] at stepped
      cases stepped
  | some instruction =>
      dsimp only
      rw [List.length_cons]
      omega

/-! ### Calls of the hook -/

/-- The call of the hook that belongs to a move: one after every `checkInterval` units of work. -/
def Move.call? (search : Search) : Move → Option Nat
  | .work =>
      if (search.steps + 1) % checkInterval = 0 then some ((search.steps + 1) / checkInterval)
      else none
  | _ => none

/-- Work goes on if the call that belongs to it, if there is one, is permitted. -/
theorem Move.attempt_work (setting : Setting) (search : Search) :
    Move.work.attempt setting search =
      if (Move.work.call? search).all setting.monitor.permits then .ok search.worked
      else search.worked.abort .aborted := by
  have counted : Move.work.attempt setting search =
      if (search.steps + 1) % checkInterval = 0 &&
          !setting.monitor.permits ((search.steps + 1) / checkInterval) then
        search.worked.abort .aborted
      else
        .ok search.worked := rfl
  rw [counted, call?]
  by_cases due : (search.steps + 1) % checkInterval = 0
  · cases allows : setting.monitor.permits ((search.steps + 1) / checkInterval) <;>
      simp [due, allows]
  · simp [due]

/-- The calls of the hook in a list of moves that are made one after the other. -/
def Move.calls (setting : Setting) (search : Search) : List Move → List Nat
  | [] => []
  | move :: moves =>
      (move.call? search).toList ++
        match move.attempt setting search with
        | .ok next => calls setting next moves
        | .error _ => []

/-- The calls of the hook in at most a number of dispatches. -/
def Search.calls (setting : Setting) : (dispatches : Nat) → Search → List Nat
  | 0, _ => []
  | dispatches + 1, search =>
      Move.calls setting search (setting.moves search.point search.store) ++
        match search.step setting with
        | .ok next => calls setting dispatches next
        | .error _ => []

/-- The calls by which one count of calls is raised to another. -/
def callsBetween (before after : Nat) : List Nat :=
  List.range' (before + 1) (after - before)

@[simp] theorem callsBetween_self (count : Nat) : callsBetween count count = [] := by
  rw [callsBetween, Nat.sub_self]
  rfl

theorem callsBetween_append {first middle last : Nat} (earlier : first ≤ middle)
    (later : middle ≤ last) :
    callsBetween first middle ++ callsBetween middle last = callsBetween first last := by
  unfold callsBetween
  rw [show middle + 1 = first + 1 + (middle - first) by omega, List.range'_append_1]
  congr 1
  omega

theorem mem_callsBetween {before after call : Nat} :
    call ∈ callsBetween before after ↔ before < call ∧ call ≤ after := by
  rw [callsBetween, List.mem_range'_1]
  omega

namespace Move

variable {setting : Setting} {search : Search} {move : Move}

theorem hookCalls_le_of_steps_le {earlier later : Search} (fewer : earlier.steps ≤ later.steps) :
    earlier.hookCalls ≤ later.hookCalls :=
  Nat.div_le_div_right fewer

/-- The call that belongs to a move is the one by which it raises their number. -/
theorem call?_eq (setting : Setting) (search : Search) (move : Move) :
    (move.call? search).toList =
      callsBetween search.hookCalls (Search.reached (move.attempt setting search)).hookCalls := by
  by_cases isWork : move = .work
  · subst isWork
    have reached : (Search.reached (Move.work.attempt setting search)).hookCalls =
        search.worked.hookCalls := by
      simp only [attempt, Search.work]
      split <;> rfl
    rw [reached, Search.hookCalls_worked, call?]
    split
    · next due =>
        have number := search.hookCalls_worked
        rw [if_pos due] at number
        rw [callsBetween, Nat.add_sub_cancel_left, ← number]
        rfl
    · rw [callsBetween_self]
      rfl
  · have same : (Search.reached (move.attempt setting search)).hookCalls = search.hookCalls :=
      congrArg (· / checkInterval) (steps_reached setting search isWork)
    rw [same, callsBetween_self]
    cases move with
    | work => exact absurd rfl isWork
    | _ => rfl

theorem calls_eq (setting : Setting) (search : Search) (moves : List Move) :
    calls setting search moves =
      callsBetween search.hookCalls (Search.reached (play setting search moves)).hookCalls := by
  induction moves generalizing search with
  | nil => exact (callsBetween_self _).symm
  | cons move moves ih =>
      have first := steps_le_reached setting search move
      rw [calls, call?_eq setting, play_cons]
      cases attempted : move.attempt setting search with
      | error ending => exact List.append_nil _
      | ok next =>
          rw [attempted] at first
          dsimp only [Search.reached, Except.bind]
          rw [ih next]
          exact callsBetween_append (hookCalls_le_of_steps_le first)
            (hookCalls_le_of_steps_le (steps_le_play setting next moves))

end Move

/-- The hook is called once for every `checkInterval` units of work, and the calls come in order. -/
theorem Search.calls_eq (setting : Setting) (dispatches : Nat) (search : Search) :
    calls setting dispatches search =
      callsBetween search.hookCalls (reached (search.advance setting dispatches)).hookCalls := by
  induction dispatches generalizing search with
  | zero => exact (callsBetween_self _).symm
  | succ dispatches ih =>
      have first := Move.steps_le_play setting search (setting.moves search.point search.store)
      rw [calls, Move.calls_eq, advance, ← step_eq_play]
      rw [← step_eq_play] at first
      cases stepped : search.step setting with
      | error ending => exact List.append_nil _
      | ok next =>
          rw [stepped] at first
          dsimp only [reached, Except.bind]
          rw [ih next]
          exact callsBetween_append (Move.hookCalls_le_of_steps_le first)
            (Move.hookCalls_le_of_steps_le (steps_le_advance setting dispatches next))

/-! ### What the hook decides -/

/-- The same setting under another hook. -/
def Setting.withHook (setting : Setting) (permits : Nat → Bool) : Setting :=
  { setting with monitor := { setting.monitor with permits } }

section Hook

variable {setting : Setting} {search : Search} {permits : Nat → Bool}

theorem Move.attempt_withHook {move : Move}
    (agree : ∀ call ∈ (move.call? search).toList, permits call = setting.monitor.permits call) :
    move.attempt (setting.withHook permits) search = move.attempt setting search := by
  cases move with
  | work =>
      have same : (Move.work.call? search).all permits =
          (Move.work.call? search).all setting.monitor.permits := by
        cases called : Move.work.call? search with
        | none => rfl
        | some call => exact agree call (by rw [called]; exact List.mem_singleton_self call)
      rw [attempt_work, attempt_work, show (setting.withHook permits).monitor.permits = permits from
        rfl, same]
  | _ => rfl

theorem Move.play_withHook {moves : List Move}
    (agree : ∀ call ∈ calls setting search moves, permits call = setting.monitor.permits call) :
    play (setting.withHook permits) search moves = play setting search moves := by
  induction moves generalizing search with
  | nil => rfl
  | cons move moves ih =>
      simp only [calls, List.forall_mem_append] at agree
      rw [play_cons, play_cons, attempt_withHook agree.1]
      cases attempted : move.attempt setting search with
      | error ending => rfl
      | ok next =>
          rw [attempted] at agree
          exact ih agree.2

/-- A run depends on its hook by what that answers to the calls made, and by nothing else. -/
theorem Search.run?_withHook {dispatches : Nat}
    (agree : ∀ call ∈ calls setting dispatches search,
      permits call = setting.monitor.permits call) :
    run? (setting.withHook permits) dispatches search = run? setting dispatches search := by
  induction dispatches generalizing search with
  | zero => rfl
  | succ dispatches ih =>
      simp only [calls, List.forall_mem_append] at agree
      have same : search.step (setting.withHook permits) = search.step setting := by
        rw [step_eq_play, step_eq_play]
        exact Move.play_withHook agree.1
      rw [run?, run?, same]
      cases stepped : search.step setting with
      | error ending => rfl
      | ok next =>
          rw [stepped] at agree
          exact ih agree.2

end Hook

/-! ### The first refusal -/

/-- Whether an ending comes no later than the `n`-th call of the hook, and with that call if the
hook is what has ended the run. -/
structure Ending.ByCall (n : Nat) (ending : Ending) : Prop where
  within : ending.last.steps ≤ checkInterval * n
  aborted : ending.outcome = .stopped .aborted ↔ ending.last.steps = checkInterval * n

/-- Only a unit of work may be refused by the hook. -/
theorem Move.not_aborted {setting : Setting} {search : Search} {move : Move} {ending : Ending}
    (other : move ≠ .work) (ended : move.attempt setting search = .error ending) :
    ending.outcome ≠ .stopped .aborted := by
  have concluded : ∀ best : Option Region, Outcome.ofOption best ≠ .stopped .aborted := by
    intro best
    cases best <;> exact Outcome.noConfusion
  cases move with
  | work => exact absurd rfl other
  | perform effect =>
      simp only [attempt, Search.perform] at ended
      split at ended
      · cases ended
      split at ended
      · cases ended
        simp
      · cases ended
  | fail =>
      simp only [attempt] at ended
      split at ended
      · cases ended
        simp
      split at ended
      · cases ended
        simp
      · cases ended
  | backtrack =>
      simp only [attempt] at ended
      split at ended
      · cases ended
      · cases ended
        exact concluded _
  | goto point | consider => cases ended
  | matched =>
      cases ended
      simp
  | conclude =>
      cases ended
      exact concluded _
  | reject reason =>
      cases ended
      simp

section Refusal

variable {setting : Setting} {search : Search} {n : Nat}
  (permitted : ∀ call, 0 < call → call < n → setting.monitor.permits call = true)
  (refused : setting.monitor.permits n = false)

include permitted refused

/-- No move leads beyond the first refusal, and none but the work that comes to it ends the run for
the hook's sake. -/
theorem Move.results_of_refusal (before : search.steps < checkInterval * n) (move : Move) :
    Search.Results (fun next => next.steps < checkInterval * n) (Ending.ByCall n)
      (move.attempt setting search) := by
  have interval : checkInterval = 512 := rfl
  by_cases isWork : move = .work
  · subst isWork
    rw [attempt_work, call?]
    by_cases last : search.steps + 1 = checkInterval * n
    · rw [last, Nat.mul_mod_right, Nat.mul_div_cancel_left n (by decide), if_pos rfl,
        Option.all_some, refused]
      exact ⟨Nat.le_of_eq last, iff_of_true rfl last⟩
    · have allowed : (if (search.steps + 1) % checkInterval = 0 then
          some ((search.steps + 1) / checkInterval) else none).all setting.monitor.permits =
            true := by
        split
        · next due =>
            rw [interval] at before last due ⊢
            exact permitted _ (by omega) (by omega)
        · rfl
      rw [if_pos allowed]
      exact Nat.lt_of_le_of_ne before last
  · have kept := steps_reached setting search isWork
    cases attempted : move.attempt setting search with
    | ok next =>
        rw [attempted] at kept
        exact Nat.lt_of_le_of_lt (Nat.le_of_eq kept) before
    | error ending =>
        rw [attempted] at kept
        have earlier : ending.last.steps < checkInterval * n :=
          Nat.lt_of_le_of_lt (Nat.le_of_eq kept) before
        exact ⟨Nat.le_of_lt earlier,
          iff_of_false (not_aborted isWork attempted) (Nat.ne_of_lt earlier)⟩

/-- A run comes to an end before it has done more work than leads to the first refusal. -/
theorem Search.run?_of_refusal {dispatches : Nat} (before : search.steps < checkInterval * n)
    (enough : checkInterval * n ≤ search.steps + dispatches) :
    ∃ ending, run? setting dispatches search = some ending ∧ ending.ByCall n := by
  induction dispatches generalizing search with
  | zero => exact absurd enough (Nat.not_le.2 before)
  | succ dispatches ih =>
      have results : Results (fun next => next.steps < checkInterval * n) (Ending.ByCall n)
          (search.step setting) := by
        have legal : ∀ move ∈ setting.moves search.point search.store, True := fun _ _ => trivial
        rw [step_eq_play]
        exact Move.play_results
          (fun before _ => Move.results_of_refusal permitted refused before _) before legal
      rw [run?]
      cases stepped : search.step setting with
      | error ending =>
          rw [stepped] at results
          exact ⟨ending, rfl, results⟩
      | ok next =>
          rw [stepped] at results
          have progress := steps_lt_of_step stepped
          exact ih results (by omega)

end Refusal

/-! ### Runs of an engine -/

theorem Search.calls_start (setting : Setting) (store : Store) (dispatches : Nat) :
    calls setting dispatches (start setting store) =
      callsBetween 0 (reached ((start setting store).advance setting dispatches)).hookCalls := by
  have fresh : (start setting store).hookCalls = 0 := Nat.zero_div checkInterval
  rw [calls_eq, fresh]

namespace Engine

variable {engine : Engine} {dispatches : Nat} {input : Input} {monitor : Monitor}

/-- A run of an engine depends on its hook by what that answers to the calls made. -/
theorem exec?_withHook {permits : Nat → Bool}
    (agree : ∀ call ∈ Search.calls (engine.setting input monitor) dispatches
        (.start (engine.setting input monitor) engine.store),
      permits call = monitor.permits call) :
    engine.exec? dispatches input ⟨permits, monitor.elapsed⟩ =
      engine.exec? dispatches input monitor := by
  have same := Search.run?_withHook agree
  unfold exec?
  dsimp only
  rw [← same]
  rfl

/-- Under a hook that refuses its `n`-th call, every run comes to an end within `checkInterval * n`
units of work, and the hook is what ends it if and only if that call is made. -/
theorem exec?_of_refusal {n : Nat} (positive : 0 < n)
    (permitted : ∀ call, 0 < call → call < n → monitor.permits call = true)
    (refused : monitor.permits n = false) :
    let setting := engine.setting input monitor
    let first := Search.start setting engine.store
    ∃ ending, first.advance setting (checkInterval * n) = .error ending ∧
      engine.exec? (checkInterval * n) input monitor =
        some (engine.reportOf input ending, { engine with store := ending.last.store }) ∧
      ending.last.steps ≤ checkInterval * n ∧
      (ending.outcome = .stopped .aborted ↔
        n ∈ Search.calls setting (checkInterval * n) first) := by
  intro setting first
  have before : first.steps < checkInterval * n := Nat.mul_pos (by decide) positive
  obtain ⟨ending, ended, inTime⟩ :=
    @Search.run?_of_refusal setting first n permitted refused _ before
      (Nat.le_add_left _ first.steps)
  have advanced := Search.run?_eq_some_iff.1 ended
  refine ⟨ending, advanced, exec?_eq_some_iff.2 ⟨ending, ended, rfl, rfl⟩, inTime.within, ?_⟩
  have hookCalls : ending.last.hookCalls = ending.last.steps / checkInterval := rfl
  rw [inTime.aborted, Search.calls_start, mem_callsBetween, advanced, Search.reached, hookCalls,
    Nat.le_div_iff_mul_le (by decide), Nat.mul_comm n]
  exact ⟨fun last => ⟨positive, Nat.le_of_eq last.symm⟩,
    fun called => Nat.le_antisymm inTime.within called.2⟩

/-- Every dispatch does its units of work, the hook is called once for every 512 of them, in their
order, and what a run does depends on the answers to those calls alone.  So a hook that first
refuses its `n`-th call ends every run within `512 * n` units of work, and it is what ends it if and
only if that call is made, which then is the last one. -/
theorem refusing_hook_ends_runs (engine : Engine) (input : Input) (monitor : Monitor) :
    let setting := engine.setting input monitor
    let first := Search.start setting engine.store
    (∀ search : Search, match search.step setting with
      | .ok next =>
          next.steps = search.steps + (setting.units search.point search.store).length
      | .error ending =>
          ending.last.steps ≤ search.steps + (setting.units search.point search.store).length) ∧
    (∀ dispatches, Search.calls setting dispatches first =
      List.range' 1 ((Search.reached (first.advance setting dispatches)).steps / 512)) ∧
    (∀ dispatches permits,
      (∀ call ∈ Search.calls setting dispatches first, permits call = monitor.permits call) →
        engine.exec? dispatches input ⟨permits, monitor.elapsed⟩ =
          engine.exec? dispatches input monitor) ∧
    ∀ n, 0 < n → (∀ call, 0 < call → call < n → monitor.permits call = true) →
      monitor.permits n = false →
      ∃ ending, first.advance setting (512 * n) = .error ending ∧
        engine.exec? (512 * n) input monitor =
          some (engine.reportOf input ending, { engine with store := ending.last.store }) ∧
        ending.last.steps ≤ 512 * n ∧
        (ending.outcome = .stopped .aborted ↔ n ∈ Search.calls setting (512 * n) first) ∧
        (n ∈ Search.calls setting (512 * n) first →
          Search.calls setting (512 * n) first = List.range' 1 n ∧
            ending.last.steps = 512 * n) := by
  intro setting first
  have calls : ∀ dispatches, Search.calls setting dispatches first =
      List.range' 1 ((Search.reached (first.advance setting dispatches)).steps / 512) :=
    Search.calls_start setting engine.store
  refine ⟨fun search => ?_, calls, fun dispatches permits => exec?_withHook, ?_⟩
  · cases stepped : search.step setting with
    | ok next => exact Search.steps_of_step stepped
    | error ending => exact Search.steps_le_of_step stepped
  · intro n positive permitted refused
    obtain ⟨ending, advanced, ran, within, aborted⟩ :=
      @exec?_of_refusal engine input monitor n positive permitted refused
    refine ⟨ending, advanced, ran, within, aborted, fun called => ?_⟩
    have reached := calls (512 * n)
    rw [show first.advance setting (512 * n) = .error ending from advanced,
      Search.reached] at reached
    rw [reached, List.mem_range'_1] at called
    have exact_steps : ending.last.steps = 512 * n := by
      have interval : ending.last.steps ≤ 512 * n := within
      omega
    rw [reached, exact_steps, Nat.mul_div_cancel_left n (by decide)]
    exact ⟨rfl, rfl⟩

/-- A jump to itself neither fails nor needs the stack.  It is stopped by the second call, after
1024 dispatches. -/
theorem refusing_hook_ends_runs_of_idle_jump :
    let program : Program :=
      { code := #[.jump 0], templates := #[], classes := #[], repeatRanges := #[],
        groupCount := 0, emptyCheckCount := 0, loggedStarts := .empty, loggedEnds := .empty,
        options := .none, encoding := .utf8 }
    let engine := withConfig program ⟨.unlimited, .none⟩
    let input := Input.whole ⟨#[]⟩
    let monitor : Monitor := ⟨(· < 2), fun _ => 0⟩
    let setting := engine.setting input monitor
    ∃ report after, engine.exec? 1024 input monitor = some (report, after) ∧
      report.outcome = .stopped .aborted ∧
      Search.calls setting 1024 (.start setting engine.store) = [1, 2] := by
  intro program engine input monitor setting
  have permitted : ∀ call, 0 < call → call < 2 → monitor.permits call = true := by
    intro call _ below
    exact decide_eq_true below
  obtain ⟨ending, advanced, ran, _, aborted, last⟩ :=
    (refusing_hook_ends_runs engine input monitor).2.2.2 2 (by decide) permitted rfl
  have idle : ∀ {search : Search}, search.point.address = 0 →
      Search.Results (fun next => next.point.address = 0)
        (fun ending => ending.outcome = .stopped .aborted) (search.step setting) := by
    intro search here
    have fetched : setting.program.code[search.point.address]? = some (.jump 0) := by
      rw [here]
      rfl
    have moves : setting.moves search.point search.store =
        [.work, .perform (.note (.dispatched search.point search.store.depth)),
          .goto ⟨0, search.point.cursor⟩] := by
      rw [Attempt.moves, fetched]
      dsimp only
      rw [Plan.ofInstruction, Plan.branch, here]
      rfl
    rw [Search.step_eq_play, moves, Move.play_cons, Move.attempt_work]
    split
    · rfl
    · rfl
  have stopped : ending.outcome = .stopped .aborted :=
    Search.run?_of_steps idle (by rfl) (Search.run?_eq_some_iff.2 advanced)
  exact ⟨_, _, ran, stopped, (last (aborted.1 stopped)).1⟩

end Engine

end PatternMachine
