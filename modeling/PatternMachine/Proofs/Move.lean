import PatternMachine.Search.Run

/-!
# Runs as moves

A dispatch may have many effects, and a star makes a dispatch of any length.  What a limit, a hook
or an invariant sees lies in between, so this module takes a dispatch apart.  A move is the least
that happens in a run: one unit of work, one effect on the store, one failure, one return to a
choice.  Which moves a dispatch consists of is decided by the attempt and by where the search
stands (`Search.moves`); whether the run may make them is decided one by one (`Move.attempt`).
`Search.step_eq_play` says that both together are the dispatch.
-/

namespace PatternMachine

/-- The least that happens in a run. -/
inductive Move where
  /-- A unit of work is done. -/
  | work
  /-- The store changes, or something is reported. -/
  | perform (effect : Effect)
  /-- A failure is counted. -/
  | fail
  /-- The search goes back to the latest choice, or ends for want of one. -/
  | backtrack
  /-- The search goes on at a point. -/
  | goto (point : Point)
  /-- The position is taken for the end of a candidate. -/
  | consider
  /-- The run ends with a match at the position. -/
  | matched
  /-- The run ends with the best candidate. -/
  | conclude
  /-- The run ends because of a malformed instruction. -/
  | reject (reason : Corruption)
  deriving DecidableEq, Repr

namespace Move

/-- Makes a move, unless the run has to end with it. -/
def attempt (setting : Setting) (search : Search) : Move → Except Ending Search
  | .work => search.work setting
  | .perform effect => search.perform setting effect
  | .fail =>
      let search := { search with failures := search.failures + 1 }
      if setting.retryLimit.exceededBy search.failures then
        search.abort .retryLimit
      else if Search.outOfTime setting search.failures then
        search.abort .timeLimit
      else
        .ok search
  | .backtrack =>
      match search.store.backtrack with
      | (some point, store) => .ok { search with point, store }
      | (none, store) => { search with store }.conclude
  | .goto point => .ok { search with point }
  | .consider => .ok (search.consider setting)
  | .matched => search.halt (.matched (search.candidateRegion setting))
  | .conclude => search.conclude
  | .reject reason => search.reject reason

/-- Makes moves one after the other, until the run ends. -/
def play (setting : Setting) (search : Search) (moves : List Move) : Except Ending Search :=
  moves.foldlM (attempt setting) search

@[simp] theorem play_nil (setting : Setting) (search : Search) :
    play setting search [] = .ok search := rfl

@[simp] theorem play_cons (setting : Setting) (search : Search) (move : Move)
    (moves : List Move) :
    play setting search (move :: moves) =
      (attempt setting search move).bind fun next => play setting next moves := by
  rw [play, List.foldlM_cons]
  rfl

/-- A failure, and what the search does about it. -/
def failing : List Move :=
  [.fail, .backtrack]

theorem play_failing (setting : Setting) (search : Search) :
    play setting search failing = search.fail setting := by
  simp only [failing, play_cons, play_nil, attempt, Search.fail]
  split
  · rfl
  split
  · rfl
  · simp only [Except.bind]
    cases search.store.backtrack with
    | mk found store => cases found <;> rfl

end Move

namespace Star

variable (star : Star) (text : Text)

/-- The moves of a star that takes one character after the other. -/
def sweepMoves (range : Nat) (cursor : Cursor) : List Move :=
  if _whole : text.hasChar cursor.position range then
    let choices : List Move :=
      if star.leavesChoice text cursor.position then [.perform (.push (star.choice cursor))]
      else []
    .work :: (choices ++
      if star.failsAt text cursor.position then Move.failing
      else sweepMoves range (cursor.step (text.charLength cursor.position)))
  else
    [.goto ⟨star.next, cursor⟩]
termination_by range - cursor.position
decreasing_by
  have := (Text.hasChar_iff.1 _whole).1
  have := text.charLength_pos cursor.position
  simp only [Cursor.step]
  omega

variable {star text} {range : Nat} {cursor : Cursor}

theorem sweepMoves_of_leavesChoice (whole : text.hasChar cursor.position range = true)
    (leaves : star.leavesChoice text cursor.position = true) :
    star.sweepMoves text range cursor = .work :: .perform (.push (star.choice cursor)) ::
      if star.failsAt text cursor.position then Move.failing
      else star.sweepMoves text range (cursor.step (text.charLength cursor.position)) := by
  rw [sweepMoves, dif_pos whole, if_pos leaves]
  rfl

theorem sweepMoves_of_not_leavesChoice (whole : text.hasChar cursor.position range = true)
    (leaves : star.leavesChoice text cursor.position = false) :
    star.sweepMoves text range cursor = .work ::
      if star.failsAt text cursor.position then Move.failing
      else star.sweepMoves text range (cursor.step (text.charLength cursor.position)) := by
  rw [sweepMoves, dif_pos whole, if_neg (ne_true_of_eq_false leaves)]
  rfl

theorem sweepMoves_of_done (done : text.hasChar cursor.position range = false) :
    star.sweepMoves text range cursor = [.goto ⟨star.next, cursor⟩] := by
  rw [sweepMoves, dif_neg (ne_true_of_eq_false done)]

variable (star text)

/-- The moves of a star that goes from one occurrence of a byte to the next. -/
def leapMoves (byte : UInt8) (origin : Cursor) (stop position : Nat) : List Move :=
  match _found : text.findByte? byte position stop with
  | some hit =>
      .work :: .perform (.push (star.choice (text.cursorBehind origin hit))) ::
        leapMoves byte origin stop (hit + 1)
  | none => [.goto ⟨star.next, text.cursorBehind origin stop⟩]
termination_by stop - position
decreasing_by
  have := Text.findByte?_bounds _found
  omega

end Star

namespace Attempt

variable (attempt : Attempt)

/-- The moves at the end of a candidate. -/
def acceptMoves (position : Nat) : List Move :=
  if !attempt.options.isFindCondition then
    [.matched]
  else if attempt.options.findNotEmpty && position == attempt.input.start then
    Move.failing
  else if attempt.options.findLongest && position < attempt.range then
    .consider :: Move.failing
  else
    [.consider, .conclude]

/-- The moves with which an instruction is left at a point. -/
def exitMoves (point : Point) : Exit → List Move
  | .goto next => [.goto next]
  | .fail => Move.failing
  | .sweep star => star.sweepMoves attempt.text attempt.range point.cursor
  | .leap star byte =>
      star.leapMoves attempt.text byte point.cursor
        (attempt.text.fittingEnd point.cursor.position attempt.range) point.cursor.position
  | .accept => attempt.acceptMoves point.cursor.position
  | .finish => [.conclude]
  | .corrupt reason => [.reject reason]

/-- The moves that carry out a plan at a point. -/
def planMoves (point : Point) (plan : Plan) : List Move :=
  plan.effects.map .perform ++ attempt.exitMoves point plan.exit

/-- The moves of a dispatch at a point with a store. -/
def moves (point : Point) (store : Store) : List Move :=
  match attempt.program.code[point.address]? with
  | none => [.reject .addressOutOfRange]
  | some instruction =>
      .work :: .perform (.note (.dispatched point store.depth)) ::
        attempt.planMoves point (.ofInstruction attempt point store instruction)

end Attempt

namespace Search

open Move

theorem play_acceptMoves (setting : Setting) (search : Search) :
    play setting search (setting.acceptMoves search.point.cursor.position) =
      search.accept setting := by
  unfold Attempt.acceptMoves accept
  split
  · rfl
  dsimp only
  split
  · exact play_failing setting search
  split
  · rw [play_cons]
    exact play_failing setting (search.consider setting)
  · rfl

theorem play_sweepMoves (setting : Setting) (star : Star) (cursor : Cursor) (search : Search) :
    play setting search (star.sweepMoves setting.text setting.range cursor) =
      sweep setting star cursor search := by
  fun_induction Star.sweepMoves star setting.text setting.range cursor generalizing search with
  | case1 cursor whole choices ih =>
      have character : setting.text.hasChar cursor.position setting.range = true := whole
      -- What follows the choice is the same whether a choice is left or not.
      have rest : ∀ left : Search,
          play setting left
              (if star.failsAt setting.text cursor.position then failing
                else star.sweepMoves setting.text setting.range
                  (cursor.step (setting.text.charLength cursor.position))) =
            if star.failsAt setting.text cursor.position then left.fail setting
            else sweep setting star (cursor.step (setting.text.charLength cursor.position))
              left := by
        intro left
        split
        · exact play_failing setting left
        · exact ih left
      rw [sweep, dif_pos character, play_cons]
      simp only [attempt]
      cases search.work setting with
      | error ending => rfl
      | ok worked =>
          simp only [Except.bind, bind, choices]
          split
          · rw [List.singleton_append, play_cons]
            simp only [attempt]
            cases worked.perform setting (.push (star.choice cursor)) with
            | error ending => rfl
            | ok left => exact rest left
          · exact rest worked
  | case2 cursor cut =>
      have nothing : ¬ setting.text.hasChar cursor.position setting.range = true := cut
      rw [sweep, dif_neg nothing]
      rfl

theorem play_leapMoves (setting : Setting) (star : Star) (byte : UInt8) (origin : Cursor)
    (stop position : Nat) (search : Search) :
    play setting search (star.leapMoves setting.text byte origin stop position) =
      leap setting star byte origin stop position search := by
  fun_induction Star.leapMoves star setting.text byte origin stop position
    generalizing search with
  | case1 position hit found ih =>
      rw [leap]
      split
      · next other same =>
          obtain rfl : other = hit := by
            rw [found] at same
            exact (Option.some.inj same).symm
          simp only [play_cons, attempt, bind]
          congr 1
          funext worked
          congr 1
          funext left
          exact ih left
      · next none_found => rw [found] at none_found; cases none_found
  | case2 position none_found =>
      rw [leap]
      split
      · next other same => rw [none_found] at same; cases same
      · rfl

theorem play_exitMoves (setting : Setting) (search : Search) (point : Point)
    (stands : search.point = point) (exit : Exit) :
    play setting search (setting.exitMoves point exit) = search.leave setting exit := by
  subst stands
  cases exit with
  | goto next => rfl
  | fail => exact play_failing setting search
  | sweep star => exact play_sweepMoves setting star search.point.cursor search
  | leap star byte => exact play_leapMoves setting star byte search.point.cursor _ _ search
  | accept => exact play_acceptMoves setting search
  | finish =>
      simp only [Attempt.exitMoves, play_cons, attempt, leave]
      rfl
  | corrupt reason => rfl

/-- An effect on the store is carried out if there is room for it. -/
theorem perform_of_ne_note (setting : Setting) (search : Search) {effect : Effect}
    (silent : ∀ event, effect ≠ .note event) :
    search.perform setting effect =
      if effect.needsRoom && !search.store.stack.hasRoom setting.stackLimit then
        search.abort (.stackLimit setting.stackLimit.toNat)
      else
        .ok { search with store := effect.onStore search.store } := by
  cases effect with
  | note event => exact absurd rfl (silent event)
  | _ => rfl

/-- An effect changes the store, and at most what was reported beside it. -/
theorem eq_of_perform {setting : Setting} {search next : Search} {effect : Effect}
    (performed : search.perform setting effect = .ok next) :
    next = { search with store := effect.onStore search.store, events := next.events } := by
  unfold perform at performed
  split at performed
  · cases performed
    unfold note
    split <;> rfl
  · split at performed
    · cases performed
    · cases performed
      rfl

/-- An effect leaves the search where it stands. -/
theorem point_of_perform {setting : Setting} {search next : Search} {effect : Effect}
    (performed : search.perform setting effect = .ok next) : next.point = search.point := by
  rw [eq_of_perform performed]

theorem play_planMoves (setting : Setting) (search : Search) (point : Point)
    (stands : search.point = point) (plan : Plan) :
    play setting search (setting.planMoves point plan) = search.carryOut setting plan := by
  obtain ⟨effects, exit⟩ := plan
  have carriedOut : search.carryOut setting ⟨effects, exit⟩ =
      (effects.foldlM (perform setting) search).bind fun next => next.leave setting exit := by
    cases effects with
    | nil => rfl
    | cons effect effects =>
        simp only [carryOut, List.foldlM_cons]
        cases search.perform setting effect <;> rfl
  rw [carriedOut, Attempt.planMoves]
  clear carriedOut
  dsimp only
  induction effects generalizing search with
  | nil => exact play_exitMoves setting search point stands exit
  | cons effect effects ih =>
      simp only [List.map_cons, List.cons_append, play_cons, attempt, List.foldlM_cons]
      cases performed : search.perform setting effect with
      | error ending => rfl
      | ok next => exact ih next ((point_of_perform performed).trans stands)

/-- A dispatch is its moves, each made if the run may make it. -/
theorem step_eq_play (setting : Setting) (search : Search) :
    search.step setting =
      play setting search (setting.moves search.point search.store) := by
  unfold step Attempt.moves
  cases setting.program.code[search.point.address]? with
  | none => rfl
  | some instruction =>
      simp only [play_cons, attempt, bind]
      cases worked : search.work setting with
      | error ending => rfl
      | ok next =>
          have same : next.point = search.point ∧ next.store = search.store := by
            unfold work at worked
            dsimp only at worked
            split at worked
            · cases worked
            · cases worked
              exact ⟨rfl, rfl⟩
          simp only [Except.bind]
          rw [show next.perform setting (.note (.dispatched search.point search.store.depth)) =
            .ok (next.note setting (.dispatched next.point next.store.depth)) by
              simp only [perform, same]]
          dsimp only
          have unmoved : (next.note setting (.dispatched next.point next.store.depth)).point =
              next.point ∧
              (next.note setting (.dispatched next.point next.store.depth)).store =
                next.store := by
            unfold note
            split <;> exact ⟨rfl, rfl⟩
          rw [play_planMoves _ _ _ (unmoved.1.trans same.1), unmoved.1, unmoved.2, same.1, same.2]

end Search

/-! ### What moves make of searches -/

namespace Search

variable (setting : Setting) (search : Search)

/-- A report changes nothing but what was reported. -/
theorem note_eq (event : Event) :
    search.note setting event = { search with events := (search.note setting event).events } := by
  unfold note
  split <;> rfl

/-- A candidate changes nothing but the best one. -/
theorem consider_eq :
    search.consider setting = { search with best := (search.consider setting).best } := by
  unfold consider
  dsimp only
  split <;> rfl

/-- Two searches that find the same candidate, and have found the same before, go on with the same. -/
theorem best_consider_congr {setting setting' : Setting} {left right : Search}
    (region : right.candidateRegion setting' = left.candidateRegion setting)
    (position : right.point.cursor.position = left.point.cursor.position)
    (start : setting'.input.start = setting.input.start) (best : right.best = left.best) :
    (right.consider setting').best = (left.consider setting).best := by
  have improved : ∀ length, right.improvedBy length = left.improvedBy length := by
    intro length
    rw [improvedBy, improvedBy, best]
  simp only [consider, region, position, start, improved]
  split
  · rfl
  · exact best

end Search

namespace Move

/-- What a move makes of a store. -/
def onStore (store : Store) : Move → Store
  | .perform effect => effect.onStore store
  | .backtrack => store.backtrack.2
  | _ => store

/-- What a move makes of a search that goes on behind it. -/
def onSearch (setting : Setting) (search : Search) : Move → Search
  | .work => { search with steps := search.steps + 1 }
  | .perform (.note event) => search.note setting event
  | .perform effect => { search with store := effect.onStore search.store }
  | .fail => { search with failures := search.failures + 1 }
  | .backtrack =>
      { search with
        point := search.store.backtrack.1.getD search.point
        store := search.store.backtrack.2 }
  | .goto point => { search with point }
  | .consider => search.consider setting
  | .matched | .conclude | .reject _ => search

variable {setting : Setting} {search next : Search} {move : Move}

/-- A move that does not end the run makes one thing of a search. -/
theorem eq_onSearch (attempted : move.attempt setting search = .ok next) :
    next = move.onSearch setting search := by
  cases move with
  | work =>
      simp only [attempt, Search.work] at attempted
      split at attempted
      · cases attempted
      · cases attempted
        rfl
  | perform effect =>
      cases effect with
      | note event =>
          cases attempted
          rfl
      | _ =>
          simp only [attempt, Search.perform] at attempted
          split at attempted
          · cases attempted
          · cases attempted
            rfl
  | fail =>
      simp only [attempt] at attempted
      split at attempted
      · cases attempted
      split at attempted
      · cases attempted
      · cases attempted
        rfl
  | backtrack =>
      simp only [attempt] at attempted
      split at attempted
      · next point store resumed =>
          cases attempted
          rw [onSearch, resumed]
          rfl
      · cases attempted
  | goto point | consider =>
      cases attempted
      rfl
  | matched | conclude | reject reason => cases attempted

theorem store_onSearch (setting : Setting) (search : Search) (move : Move) :
    (move.onSearch setting search).store = move.onStore search.store := by
  cases move with
  | perform effect =>
      cases effect with
      | note event =>
          rw [onSearch, Search.note_eq]
          rfl
      | _ => rfl
  | consider =>
      rw [onSearch, Search.consider_eq]
      rfl
  | _ => rfl

theorem store_of_attempt (attempted : move.attempt setting search = .ok next) :
    next.store = move.onStore search.store := by
  rw [eq_onSearch attempted]
  exact store_onSearch setting search move

/-- How a run may end with a move. -/
inductive Stops (setting : Setting) (search : Search) : Move → Ending → Prop
  /-- The run may not go on, which is nothing that the program has to answer for. -/
  | denied {move : Move} {failure : MatchError} {last : Search}
      (sound : ∀ address reason, failure ≠ .corrupt address reason)
      (kept : last.store = search.store) : Stops setting search move ⟨.stopped failure, last⟩
  /-- No choice is left. -/
  | tried {store : Store} (none_left : search.store.backtrack = (none, store)) :
      Stops setting search .backtrack
        ⟨.ofOption (search.best.map Candidate.region), { search with store }⟩
  | concluded :
      Stops setting search .conclude ⟨.ofOption (search.best.map Candidate.region), search⟩
  | matched : Stops setting search .matched ⟨.matched (search.candidateRegion setting), search⟩
  | rejected {reason : Corruption} :
      Stops setting search (.reject reason)
        ⟨.stopped (.corrupt search.point.address reason), search⟩

/-- A move that ends the run ends it in one of these ways. -/
theorem stops_of_attempt {ending : Ending} (ended : move.attempt setting search = .error ending) :
    move.Stops setting search ending := by
  cases move with
  | work =>
      simp only [attempt, Search.work] at ended
      split at ended
      · cases ended
        exact .denied (fun _ _ => MatchError.noConfusion) rfl
      · cases ended
  | perform effect =>
      simp only [attempt, Search.perform] at ended
      split at ended
      · cases ended
      split at ended
      · cases ended
        exact .denied (fun _ _ => MatchError.noConfusion) rfl
      · cases ended
  | fail =>
      simp only [attempt] at ended
      split at ended
      · cases ended
        exact .denied (fun _ _ => MatchError.noConfusion) rfl
      split at ended
      · cases ended
        exact .denied (fun _ _ => MatchError.noConfusion) rfl
      · cases ended
  | backtrack =>
      simp only [attempt] at ended
      split at ended
      · cases ended
      · next none_left =>
          cases ended
          exact .tried none_left
  | goto point | consider => cases ended
  | matched =>
      cases ended
      exact .matched
  | conclude =>
      cases ended
      exact .concluded
  | reject reason =>
      cases ended
      exact .rejected

/-- Only a move that rejects an instruction ends a run because of it. -/
theorem eq_reject_of_attempt {ending : Ending}
    (ended : move.attempt setting search = .error ending) {address : Nat} {reason : Corruption}
    (corrupt : ending.outcome = .stopped (.corrupt address reason)) : move = .reject reason := by
  cases stops_of_attempt ended with
  | denied sound => exact absurd (Outcome.stopped.inj corrupt) (sound address reason)
  | tried | concluded =>
      cases best : search.best <;> rw [best] at corrupt <;> cases corrupt
  | matched => cases corrupt
  | rejected =>
      cases corrupt
      rfl

/-- A run that goes on behind some moves has made the first of them. -/
theorem exists_of_play_cons {last : Search} {moves : List Move}
    (played : play setting search (move :: moves) = .ok last) :
    ∃ next, move.attempt setting search = .ok next ∧ play setting next moves = .ok last := by
  rw [play_cons] at played
  cases attempted : move.attempt setting search with
  | error ending =>
      rw [attempted] at played
      cases played
  | ok next =>
      rw [attempted] at played
      exact ⟨next, rfl, played⟩

/-- Moves that have all been made are argued about from the last one back: what holds of no moves
where they have led, and in front of each of them once it holds behind it, holds of them all. -/
theorem play_invariant {Inv : Search → List Move → Prop} {last : Search} {moves : List Move}
    (atEnd : Inv last [])
    (before : ∀ {search next : Search} {move : Move} {moves : List Move},
      move.attempt setting search = .ok next → Inv next moves → Inv search (move :: moves))
    (played : play setting search moves = .ok last) : Inv search moves := by
  induction moves generalizing search with
  | nil =>
      cases played
      exact atEnd
  | cons move moves ih =>
      obtain ⟨next, attempted, rest⟩ := exists_of_play_cons played
      exact before attempted (ih rest)

/-- A number that one kind of move counts up, and no other move changes, counts those moves. -/
theorem count_of_play {counter : Search → Nat} {counted : Move}
    (counts : ∀ {search next : Search} {move : Move}, move.attempt setting search = .ok next →
      counter next = counter search + [move].count counted)
    {last : Search} {moves : List Move} (played : play setting search moves = .ok last) :
    counter last = counter search + moves.count counted := by
  refine @play_invariant setting search
    (fun state moves => counter last = counter state + moves.count counted) last moves rfl ?_ played
  intro state next move moves attempted behind
  have split : (move :: moves).count counted = [move].count counted + moves.count counted :=
    @List.count_append _ _ counted [move] moves
  rw [behind, counts attempted, split, Nat.add_assoc]

/-- Moves after which a run goes on reject nothing and change the store one after the other. -/
theorem of_play {last : Search} {moves : List Move}
    (played : play setting search moves = .ok last) :
    last.store = moves.foldl onStore search.store ∧ ∀ reason, .reject reason ∉ moves := by
  refine @play_invariant setting search
    (fun state moves => last.store = moves.foldl onStore state.store ∧
      ∀ reason, .reject reason ∉ moves)
    last moves ⟨rfl, fun _ => List.not_mem_nil⟩ ?_ played
  rintro state next move moves attempted ⟨stored, sound⟩
  constructor
  · rw [stored, List.foldl_cons, ← store_of_attempt attempted]
  · intro reason mem
    rcases List.mem_cons.1 mem with rfl | mem
    · cases attempted
    · exact sound reason mem

/-- Moves are made up to a place before those behind it. -/
theorem play_append (setting : Setting) (search : Search) (moves more : List Move) :
    play setting search (moves ++ more) =
      (play setting search moves).bind fun middle => play setting middle more := by
  rw [play, List.foldlM_append]
  rfl

theorem point_of_play_goto {last : Search} {moves : List Move} {point : Point}
    (played : play setting search (moves ++ [.goto point]) = .ok last) : last.point = point := by
  rw [play_append] at played
  cases before : play setting search moves with
  | error ending =>
      rw [before] at played
      cases played
  | ok middle =>
      rw [before] at played
      cases played
      rfl

end Move

/-! ### What a dispatch comes to -/

namespace Search

/-- A dispatch does one unit of work and then carries out the plan of its instruction. -/
theorem step_of_fetched {setting : Setting} {search : Search} {instruction : Instruction}
    (fetched : setting.program.code[search.point.address]? = some instruction) :
    search.step setting = (search.work setting).bind fun worked =>
      (worked.note setting (.dispatched search.point search.store.depth)).carryOut setting
        (.ofInstruction setting.toAttempt search.point search.store instruction) := by
  rw [step_eq_play, Attempt.moves, fetched]
  dsimp only
  rw [Move.play_cons]
  cases worked : search.work setting with
  | error ending =>
      rw [Move.attempt, worked]
      rfl
  | ok next =>
      have attempted : Move.work.attempt setting search = .ok next := worked
      have same : next.point = search.point := by
        rw [Move.eq_onSearch attempted]
        rfl
      rw [Move.attempt, worked]
      dsimp only [Except.bind]
      rw [Move.play_cons]
      have noted : (next.note setting (.dispatched search.point search.store.depth)).point =
          search.point := by
        rw [note_eq]
        exact same
      exact play_planMoves setting _ _ noted _

/-- A dispatch that goes on has the effects of its plan and goes where that says. -/
theorem of_step_goto {setting : Setting} {search next : Search} {instruction : Instruction}
    (fetched : setting.program.code[search.point.address]? = some instruction) {address : Nat}
    {cursor : Cursor} {effects : List Effect}
    (plan : Plan.ofInstruction setting.toAttempt search.point search.store instruction =
      .goto address cursor effects) (stepped : search.step setting = .ok next) :
    next.point = ⟨address, cursor⟩ ∧
      next.store = effects.foldl (fun store effect => effect.onStore store) search.store := by
  rw [step_eq_play, Attempt.moves, fetched] at stepped
  dsimp only at stepped
  rw [plan, Attempt.planMoves, ← List.cons_append, ← List.cons_append] at stepped
  constructor
  · exact Move.point_of_play_goto stepped
  · rw [(Move.of_play stepped).1]
    simp only [List.foldl_append, List.foldl_cons, List.foldl_map]
    rfl

/-- A dispatch that goes on does not report its instruction. -/
theorem ne_corrupt_of_step {setting : Setting} {search next : Search} {instruction : Instruction}
    (fetched : setting.program.code[search.point.address]? = some instruction)
    (stepped : search.step setting = .ok next) (reason : Corruption) :
    (Plan.ofInstruction setting.toAttempt search.point search.store instruction).exit ≠
      .corrupt reason := by
  intro exit
  rw [step_eq_play, Attempt.moves, fetched] at stepped
  refine (Move.of_play stepped).2 reason ?_
  dsimp only
  rw [Attempt.planMoves, exit]
  exact .tail _ (.tail _ (List.mem_append_right _ (.head _)))

end Search

end PatternMachine
