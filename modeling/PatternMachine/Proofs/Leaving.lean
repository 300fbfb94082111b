import PatternMachine.Proofs.Route

/-!
# What a dispatch leaves

On a route a dispatch is followed by what it goes on to, or by a choice that it has left.  What the
store was like there is read off the plan of the instruction (`Search.Leaves.of_goto`), or it is
what all moves keep that take no frame off but a choice (`Search.Leaves.invariant`).
-/

namespace PatternMachine

/-! ### Dispatches that go on -/

namespace Move

/-- No choice is left by the moves that close a dispatch. -/
theorem Closes.noPush {moves : List Move} (closes : Closes moves) (frame : Frame) :
    .perform (.push frame) ∉ moves := by
  cases closes <;> simp [failing]

variable {setting : Setting} {search : Search}

/-- An effect among others is performed on what the effects before it have made of the store. -/
theorem of_mem_trail_effects {effects : List Effect} {more : List Move} {effect : Effect}
    (apart : .perform effect ∉ more) {visit : Visit}
    (mem : visit ∈ trail setting search (effects.map .perform ++ more))
    (performs : visit.move = .perform effect) :
    ∃ before after, effects = before ++ effect :: after ∧
      visit.before.store =
        before.foldl (fun store effect => effect.onStore store) search.store := by
  induction effects generalizing search with
  | nil =>
      have made := (of_mem_trail mem).1
      rw [performs] at made
      exact absurd made apart
  | cons first effects ih =>
      rw [List.map_cons, List.cons_append, trail] at mem
      cases attempted : (Move.perform first).attempt setting search with
      | error ending =>
          rw [attempted] at mem
          cases mem
      | ok next =>
          rw [attempted] at mem
          rcases List.mem_cons.1 mem with rfl | mem
          · cases performs
            exact ⟨[], effects, rfl, rfl⟩
          · obtain ⟨before, after, rfl, stored⟩ := ih mem
            refine ⟨first :: before, after, rfl, ?_⟩
            rw [stored, store_of_attempt attempted]
            rfl

end Move

namespace Search

variable {setting : Setting} {search next : Search} {point : Point} {left : Store}
  {instruction : Instruction}

/-- An effect of an instruction is performed on what the effects before it have made of the store,
unless it is a report or the way out of the instruction. -/
theorem of_mem_trail_moves
    (fetched : setting.program.code[search.point.address]? = some instruction) {visit : Visit}
    (mem : visit ∈ Move.trail setting search (setting.moves search.point search.store))
    {effect : Effect} (performs : visit.move = .perform effect)
    (silent : ∀ event, effect ≠ .note event)
    (apart : .perform effect ∉ setting.exitMoves search.point
      (Plan.ofInstruction setting.toAttempt search.point search.store instruction).exit) :
    ∃ before after,
      (Plan.ofInstruction setting.toAttempt search.point search.store instruction).effects =
          before ++ effect :: after ∧
        visit.before.store =
          before.foldl (fun store effect => effect.onStore store) search.store := by
  rw [Attempt.moves, fetched] at mem
  dsimp only at mem
  rw [Move.trail] at mem
  cases worked : Move.work.attempt setting search with
  | error ending =>
      rw [worked] at mem
      cases mem
  | ok middle =>
      rw [worked] at mem
      rcases List.mem_cons.1 mem with rfl | mem
      · cases performs
      · have stored := Move.store_of_attempt worked
        obtain ⟨before, after, split, leads⟩ := @Move.of_mem_trail_effects setting middle
          (.note (.dispatched search.point search.store.depth) :: _) _ effect apart visit mem
          performs
        rw [stored] at leads
        cases before with
        | nil => exact absurd (List.cons.inj split).1.symm (silent _)
        | cons noted before =>
            obtain ⟨rfl, rest⟩ := List.cons.inj split
            exact ⟨before, after, rest, leads⟩

/-- An instruction that goes on lets the search go on where it goes, or at a choice among its
effects. -/
theorem Leaves.of_goto (leaves : search.Leaves setting point left)
    (fetched : setting.program.code[search.point.address]? = some instruction) {address : Nat}
    {cursor : Cursor} {effects : List Effect}
    (plan : Plan.ofInstruction setting.toAttempt search.point search.store instruction =
      .goto address cursor effects) :
    point = ⟨address, cursor⟩ ∧
        left = effects.foldl (fun store effect => effect.onStore store) search.store ∨
      ∃ before frame after, effects = before ++ .push frame :: after ∧
        frame.resume? = some point ∧
          left = before.foldl (fun store effect => effect.onStore store) search.store := by
  cases leaves with
  | atOnce stepped => exact .inl (of_step_goto fetched plan stepped)
  | @later visit frame _ mem pushes resumes =>
      right
      have apart : .perform (.push frame) ∉ setting.exitMoves search.point
          (Plan.ofInstruction setting.toAttempt search.point search.store instruction).exit := by
        rw [plan]
        simp [Plan.goto, Attempt.exitMoves]
      obtain ⟨before, after, split, leads⟩ :=
        of_mem_trail_moves fetched mem pushes (fun _ => Effect.noConfusion) apart
      rw [plan] at split
      exact ⟨before, frame, after, split, resumes, leads⟩

/-- An instruction with one effect lets the search go on where it goes, or at its choice. -/
theorem Leaves.of_goto_one (leaves : search.Leaves setting point left)
    (fetched : setting.program.code[search.point.address]? = some instruction) {address : Nat}
    {cursor : Cursor} {effect : Effect}
    (plan : Plan.ofInstruction setting.toAttempt search.point search.store instruction =
      .goto address cursor [effect]) :
    point = ⟨address, cursor⟩ ∧ left = effect.onStore search.store ∨
      ∃ frame, effect = .push frame ∧ frame.resume? = some point := by
  refine (leaves.of_goto fetched plan).imp id ?_
  rintro ⟨before, frame, after, split, resumes, _⟩
  cases before with
  | nil => exact ⟨frame, (List.cons.inj split).1, resumes⟩
  | cons _ before => simp at split

/-- An instruction with two effects lets the search go on where it goes, or at a choice. -/
theorem Leaves.of_goto_two (leaves : search.Leaves setting point left)
    (fetched : setting.program.code[search.point.address]? = some instruction) {address : Nat}
    {cursor : Cursor} {first second : Effect}
    (plan : Plan.ofInstruction setting.toAttempt search.point search.store instruction =
      .goto address cursor [first, second]) :
    point = ⟨address, cursor⟩ ∧ left = second.onStore (first.onStore search.store) ∨
      (∃ frame, first = .push frame ∧ frame.resume? = some point) ∨
        ∃ frame, second = .push frame ∧ frame.resume? = some point ∧
          left = first.onStore search.store := by
  refine (leaves.of_goto fetched plan).imp id ?_
  rintro ⟨before, frame, after, split, resumes, rfl⟩
  rcases before with _ | ⟨entered, _ | ⟨_, before⟩⟩
  · exact .inl ⟨frame, (List.cons.inj split).1, resumes⟩
  · obtain ⟨rfl, same⟩ := List.cons.inj split
    exact .inr ⟨frame, (List.cons.inj same).1, resumes, rfl⟩
  · simp at split

/-- An instruction that is reported lets the search go on nowhere. -/
theorem Leaves.not_corrupt (leaves : search.Leaves setting point left)
    (fetched : setting.program.code[search.point.address]? = some instruction)
    (reason : Corruption) :
    Plan.ofInstruction setting.toAttempt search.point search.store instruction ≠
      .corrupt reason := by
  intro plan
  cases leaves with
  | atOnce stepped =>
      refine ne_corrupt_of_step fetched stepped reason ?_
      rw [plan]
      rfl
  | later mem pushes =>
      have made := (Move.of_mem_trail mem).1
      rw [pushes, Attempt.moves, fetched] at made
      dsimp only at made
      rw [plan] at made
      simp [Attempt.planMoves, Plan.corrupt, Attempt.exitMoves] at made

/-- An instruction that goes on with one effect, if it is not reported, leaves what the effect makes
of the store, unless the effect is a choice. -/
theorem Leaves.store_eq (leaves : search.Leaves setting point left)
    (fetched : setting.program.code[search.point.address]? = some instruction) (effect : Effect)
    (plan : (∃ reason, Plan.ofInstruction setting.toAttempt search.point search.store instruction =
        .corrupt reason) ∨
      ∃ address cursor, Plan.ofInstruction setting.toAttempt search.point search.store instruction =
        .goto address cursor [effect])
    (noChoice : ∀ frame, effect = .push frame → frame.isResumable = false) :
    left = effect.onStore search.store := by
  rcases plan with ⟨reason, corrupt⟩ | ⟨address, cursor, goes⟩
  · exact absurd corrupt (leaves.not_corrupt fetched reason)
  · rcases leaves.of_goto_one fetched goes with ⟨_, same⟩ | ⟨frame, isPush, resumes⟩
    · exact same
    · have unresumable := noChoice frame isPush
      rw [Frame.isResumable, resumes] at unresumable
      cases unresumable

/-! ### What all dispatches keep -/

/-- A dispatch that goes on and has not failed was not to fail. -/
theorem fail_not_mem_moves (stepped : search.step setting = .ok next)
    (goesOn : next.failures = search.failures) :
    .fail ∉ setting.moves search.point search.store := by
  rw [step_eq_play] at stepped
  have counted := Move.failures_eq_of_play stepped
  rw [goesOn] at counted
  exact List.count_eq_zero.1 (Nat.add_eq_left.1 counted.symm)

/-- What a dispatch leaves is what some of its moves have made of the store that take no frame off,
but for a choice that may have been thrown away at last. -/
theorem Leaves.exists_climb (leaves : search.Leaves setting point left)
    (discards : ∀ visit ∈ Move.trail setting search (setting.moves search.point search.store),
      visit.DiscardsChoice) :
    ∃ moves last, (∀ move ∈ moves, move ∈ setting.moves search.point search.store ∧ move.Climbs) ∧
      Move.play setting search moves = .ok last ∧
        (left = last.store ∨ last.store.topIsChoice = true ∧ left = last.store.discard.2) := by
  obtain ⟨climbing, closing, split, climbs, closes⟩ :=
    setting.ordered_moves search.point search.store
  have made : ∀ move ∈ climbing, move ∈ setting.moves search.point search.store ∧ move.Climbs := by
    intro move mem
    refine ⟨?_, climbs move mem⟩
    rw [split]
    exact List.mem_append_left _ mem
  cases leaves with
  | @atOnce next stepped goesOn =>
      have noFailure := fail_not_mem_moves stepped goesOn
      rw [split] at noFailure
      rw [step_eq_play, split, Move.play_append] at stepped
      cases climbed : Move.play setting search climbing with
      | error ending =>
          rw [climbed] at stepped
          cases stepped
      | ok middle =>
          rw [climbed] at stepped
          replace stepped : Move.play setting middle closing = .ok next := stepped
          cases closes with
          | onward =>
              cases stepped
              exact ⟨climbing, _, made, climbed, .inl rfl⟩
          | fail | exclude => simp [Move.failing] at noFailure
          | discard =>
              rw [split] at discards
              have onTop := Move.topIsChoice_of_trail climbed discards
              exact ⟨climbing, middle, made, climbed, .inr ⟨onTop, (Move.of_play stepped).1⟩⟩
  | @later visit frame _ mem pushes resumes =>
      obtain ⟨before, after, split', played⟩ := Move.split_of_mem_trail mem
      rw [split, pushes] at split'
      rcases List.append_eq_append_iff.1 split' with ⟨rest, _, rfl⟩ | ⟨rest, rfl, _⟩
      · exact absurd (List.mem_append_right _ List.mem_cons_self) (closes.noPush frame)
      · exact ⟨before, _, fun move mem => made move (List.mem_append_left _ mem), played, .inl rfl⟩

/-- What every move keeps that takes no frame off, and what does not rely on the choice on top of a
store, holds of what a dispatch leaves if it held before. -/
theorem Leaves.invariant {Inv : Store → Prop} (leaves : search.Leaves setting point left)
    (discards : ∀ visit ∈ Move.trail setting search (setting.moves search.point search.store),
      visit.DiscardsChoice) (start : Inv search.store)
    (climb : ∀ move ∈ setting.moves search.point search.store, move.Climbs →
      ∀ store, Inv store → Inv (move.onStore store))
    (lower : ∀ store point, Inv (store.push (.choice point)) → Inv store) : Inv left := by
  obtain ⟨moves, last, made, played, last_is⟩ := leaves.exists_climb discards
  obtain ⟨_, leads, ends⟩ := Move.leads_trail setting search moves
  obtain rfl := ends last played
  have kept : Inv last.store := by
    refine (@Visit.Leads.invariant (fun state => Inv state.store) search last _ leads start ?_).2
    intro visit mem before
    obtain ⟨moveMem, attempted⟩ := Move.of_mem_trail mem
    rw [Move.store_of_attempt attempted]
    exact climb _ (made _ moveMem).1 (made _ moveMem).2 _ before
  rcases last_is with rfl | ⟨onTop, rfl⟩
  · exact kept
  · obtain ⟨lowered, point, split⟩ := Store.exists_push_of_topIsChoice onTop
    rw [split] at kept ⊢
    rw [Store.discard_push]
    exact lower lowered point kept

/-- What holds of the stack of a dispatch holds of the stack that it leaves, if the frames that it
pushes and the brackets that it ends keep that, as counting in an entry does, and if it does not
rely on a choice on top. -/
theorem Leaves.stack_invariant {Inv : Stack → Prop} (leaves : search.Leaves setting point left)
    (discards : ∀ visit ∈ Move.trail setting search (setting.moves search.point search.store),
      visit.DiscardsChoice) (start : Inv search.store.stack)
    (counted : ∀ stack index count, Inv stack → Inv (stack.setEntryCount index count))
    (push : ∀ effect, .perform effect ∈ setting.moves search.point search.store →
      ∀ store frame, effect.frame? store = some frame →
        ∀ stack, Inv stack → Inv (stack.push frame))
    (commit : ∀ mark, .perform (.commit mark) ∈ setting.moves search.point search.store →
      ∀ stack, Inv stack → Inv (stack.commit mark).2)
    (lower : ∀ stack point, Inv (stack.push (.choice point)) → Inv stack) : Inv left.stack := by
  refine @Leaves.invariant setting search point left (fun store => Inv store.stack) leaves discards
    start ?_ fun store => lower store.stack
  intro move mem climbs store before
  cases move with
  | perform effect =>
      cases effect with
      | note event | setGroup group bounds => exact before
      | push frame | openGroup group position | closeGroup group position | clearGroup group
      | enterRepeat id body | countInRegister id =>
          exact push _ mem store _ rfl store.stack before
      | countInEntry index =>
          refine push _ mem store (.entryCount index _) ?_ _ (counted _ _ _ before)
          rw [Effect.frame?]
          cases store.stack.entry? index <;> rfl
      | discard => exact absurd rfl climbs.ne_discard
      | commit mark => exact commit mark mem store.stack before
      | unwindTo mark => exact absurd rfl (climbs.ne_unwindTo mark)
  | backtrack => exact absurd rfl climbs.ne_backtrack
  | _ => exact before

end Search

end PatternMachine
