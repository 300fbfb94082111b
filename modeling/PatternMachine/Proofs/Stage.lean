import PatternMachine.Proofs.Bracket
import PatternMachine.Proofs.Move
import Mathlib.Logic.Relation

/-!
# Stages of a run without limits

Without limits and with a patient caller, nothing but the program, the point and the store decides
how a run goes on.  A stage is what is left of a run then: the search is about to dispatch, or about
to go back to its latest choice.  Counters, events and clocks are gone, so `Stage.Next` is a machine
that can be reasoned about by itself; `Stage.EndsWith.of_reaches` carries what it does over to runs.
-/

namespace PatternMachine

/-- Nothing stops a run but the program itself. -/
structure Setting.Free (setting : Setting) : Prop where
  unlimited : setting.toLimits = .unlimited
  permitted : ∀ call, setting.monitor.permits call = true

/-- Where a run stands. -/
inductive Stage where
  /-- The search is about to dispatch the instruction at a point. -/
  | dispatching (point : Point) (store : Store)
  /-- The search is about to go back to the latest choice. -/
  | failing (store : Store)

/-- What a list of effects makes of a store. -/
def Effect.onStoreAll (store : Store) (effects : List Effect) : Store :=
  effects.foldl Effect.onStore store

theorem Setting.Free.stackLimit {setting : Setting} (free : setting.Free) :
    setting.stackLimit = .unlimited :=
  congrArg Limits.stackLimit free.unlimited

namespace Move

variable {setting : Setting}

section Unlimited

variable (unlimited : setting.stackLimit = .unlimited)

include unlimited

/-- Nothing but the store, the events and the counters changes while effects are carried out. -/
theorem perform_of_unlimited (search : Search) (effect : Effect) :
    ∃ next, search.perform setting effect = .ok next ∧ next.point = search.point ∧
      next.store = effect.onStore search.store ∧ next.best = search.best := by
  by_cases isNote : ∃ event, effect = .note event
  · obtain ⟨event, rfl⟩ := isNote
    refine ⟨_, rfl, ?_⟩
    unfold Search.note
    split <;> exact ⟨rfl, rfl, rfl⟩
  · have room : search.store.stack.hasRoom setting.stackLimit = true := by
      rw [unlimited]
      rfl
    refine ⟨{ search with store := effect.onStore search.store }, ?_, rfl, rfl, rfl⟩
    rw [Search.perform_of_ne_note setting search fun event same => isNote ⟨event, same⟩, room,
      Bool.not_true, Bool.and_false]
    rfl

theorem play_perform_of_unlimited (search : Search) (effects : List Effect) (moves : List Move) :
    ∃ next, play setting search (effects.map .perform ++ moves) = play setting next moves ∧
      next.point = search.point ∧ next.store = Effect.onStoreAll search.store effects ∧
      next.best = search.best := by
  induction effects generalizing search with
  | nil => exact ⟨search, rfl, rfl, rfl, rfl⟩
  | cons effect effects ih =>
      obtain ⟨middle, performed, point, store, best⟩ :=
        perform_of_unlimited unlimited search effect
      obtain ⟨next, played, point', store', best'⟩ := ih middle
      refine ⟨next, ?_, point'.trans point, ?_, best'.trans best⟩
      · simp only [List.map_cons, List.cons_append, play_cons, attempt, performed]
        exact played
      · rw [store', store]
        rfl

/-- A dispatch that the hook permits carries out the plan of its instruction, if the stack is not
limited. -/
theorem step_of_unlimited {search worked : Search} (permitted : search.work setting = .ok worked)
    {instruction : Instruction}
    (fetched : setting.program.code[search.point.address]? = some instruction) :
    ∃ next, search.step setting =
        play setting next
          (setting.exitMoves search.point
            (Plan.ofInstruction setting.toAttempt search.point search.store instruction).exit) ∧
      next.point = search.point ∧
      next.store = Effect.onStoreAll search.store
        (Plan.ofInstruction setting.toAttempt search.point search.store instruction).effects ∧
      next.best = search.best := by
  have begun : worked = { search with steps := search.steps + 1 } :=
    @eq_onSearch setting search worked .work permitted
  rw [Search.step_eq_play, Attempt.moves, fetched]
  dsimp only
  rw [play_cons]
  simp only [attempt]
  rw [permitted, begun]
  simp only [Except.bind]
  obtain ⟨noted, performed, point, store, best⟩ :=
    perform_of_unlimited unlimited { search with steps := search.steps + 1 }
      (.note (.dispatched search.point search.store.depth))
  rw [play_cons]
  simp only [attempt]
  rw [performed]
  simp only [Except.bind]
  obtain ⟨next, played, point', store', best'⟩ :=
    play_perform_of_unlimited unlimited noted
      (Plan.ofInstruction setting.toAttempt search.point search.store instruction).effects
      (setting.exitMoves search.point
        (Plan.ofInstruction setting.toAttempt search.point search.store instruction).exit)
  refine ⟨next, played, point'.trans point, ?_, best'.trans best⟩
  rw [store', store]
  rfl

end Unlimited

section Free

variable (free : setting.Free)

include free

theorem work_of_free (search : Search) :
    search.work setting = .ok { search with steps := search.steps + 1 } := by
  simp [Search.work, free.permitted]

theorem attempt_push_of_free (search : Search) (frame : Frame) :
    Move.attempt setting search (.perform (.push frame)) =
      .ok { search with store := search.store.push frame } := by
  have room : search.store.stack.hasRoom setting.stackLimit = true := by
    rw [free.stackLimit]
    rfl
  have performed := Search.perform_of_ne_note setting search
    (show ∀ event, Effect.push frame ≠ .note event from nofun)
  rwa [room, Bool.not_true, Bool.and_false, if_neg Bool.noConfusion] at performed

/-- A star that comes to a character leaves a choice before it. -/
theorem play_choice_of_free (search : Search) (frame : Frame) (moves : List Move) :
    play setting search (.work :: .perform (.push frame) :: moves) =
      play setting { search with steps := search.steps + 1, store := search.store.push frame }
        moves := by
  rw [play_cons, attempt, work_of_free free]
  exact (play_cons ..).trans (congrArg (Except.bind · _) (attempt_push_of_free free _ frame))

/-- A failure is followed by the return to the latest choice. -/
theorem play_failing_of_free (search : Search) :
    play setting search failing =
      match search.store.backtrack with
      | (some point, store) =>
          .ok { search with point, store, failures := search.failures + 1 }
      | (none, store) =>
          { search with store, failures := search.failures + 1 }.conclude := by
  rw [play_failing, Search.fail]
  have retries : setting.retryLimit.exceededBy (search.failures + 1) = false := by
    rw [show setting.retryLimit = .unlimited from congrArg Limits.retryLimit free.unlimited]
    rfl
  have inTime : Search.outOfTime setting (search.failures + 1) = false := by
    rw [Search.outOfTime,
      show setting.timeLimit = none from congrArg Limits.timeLimit free.unlimited]
  cases search.store.backtrack with
  | mk found store =>
      cases found <;> simp only [retries, inTime, Bool.false_eq_true, if_false]

/-- A dispatch without limits carries out the plan of its instruction. -/
theorem step_of_free (search : Search) {instruction : Instruction}
    (fetched : setting.program.code[search.point.address]? = some instruction) :
    ∃ next, search.step setting =
        play setting next
          (setting.exitMoves search.point
            (Plan.ofInstruction setting.toAttempt search.point search.store instruction).exit) ∧
      next.point = search.point ∧
      next.store = Effect.onStoreAll search.store
        (Plan.ofInstruction setting.toAttempt search.point search.store instruction).effects ∧
      next.best = search.best :=
  step_of_unlimited free.stackLimit (work_of_free free search) fetched

end Free

end Move

/-- A dispatch without limits goes where its plan says. -/
theorem Search.exists_step_goto {setting : Setting} (free : setting.Free) {search : Search}
    {instruction : Instruction}
    (fetched : setting.program.code[search.point.address]? = some instruction) {address : Nat}
    {cursor : Cursor} {effects : List Effect}
    (plan : Plan.ofInstruction setting.toAttempt search.point search.store instruction =
      .goto address cursor effects) :
    ∃ next, search.step setting = .ok next ∧ next.point = ⟨address, cursor⟩ ∧
      next.store = Effect.onStoreAll search.store effects ∧ next.best = search.best := by
  obtain ⟨next, stepped, _, store, best⟩ := Move.step_of_free free search fetched
  rw [plan] at stepped store
  exact ⟨_, stepped, rfl, store, best⟩

/-- A dispatch without limits that fails goes back to the choice on top. -/
theorem Search.exists_step_fail {setting : Setting} (free : setting.Free) {search : Search}
    {instruction : Instruction}
    (fetched : setting.program.code[search.point.address]? = some instruction)
    (plan : Plan.ofInstruction setting.toAttempt search.point search.store instruction = .fail)
    {store : Store} {frame : Frame} {point : Point} (top : search.store = store.push frame)
    (resumes : frame.resume? = some point) :
    ∃ next, search.step setting = .ok next ∧ next.point = point ∧ next.store = store ∧
      next.best = search.best := by
  obtain ⟨middle, stepped, _, same, best⟩ := Move.step_of_free free search fetched
  rw [plan] at stepped same
  have failed := Move.play_failing_of_free free middle
  rw [show middle.store = store.push frame from same.trans top,
    Store.backtrack_choice store resumes] at failed
  exact ⟨_, stepped.trans failed, rfl, rfl, best⟩

namespace Stage

/-- One stage leads to the next. -/
inductive Next (attempt : Attempt) : Stage → Stage → Prop
  /-- An instruction goes on somewhere. -/
  | goto {point next : Point} {store : Store} {instruction : Instruction} {effects : List Effect}
      (fetched : attempt.program.code[point.address]? = some instruction)
      (planned : Plan.ofInstruction attempt point store instruction = ⟨effects, .goto next⟩) :
      Next attempt (.dispatching point store) (.dispatching next (Effect.onStoreAll store effects))
  /-- An instruction fails. -/
  | fail {point : Point} {store : Store} {instruction : Instruction} {effects : List Effect}
      (fetched : attempt.program.code[point.address]? = some instruction)
      (planned : Plan.ofInstruction attempt point store instruction = ⟨effects, .fail⟩) :
      Next attempt (.dispatching point store) (.failing (Effect.onStoreAll store effects))
  /-- The search goes back to a choice. -/
  | resume {store below : Store} {point : Point} (found : store.backtrack = (some point, below)) :
      Next attempt (.failing store) (.dispatching point below)

/-- One stage leads to another one, in any number of steps. -/
def Reaches (attempt : Attempt) : Stage → Stage → Prop :=
  Relation.ReflTransGen (Next attempt)

/-- Every run from a stage on ends, and with a given outcome, if it has not found a candidate
before. -/
def EndsWith (setting : Setting) (outcome : Outcome) : Stage → Prop
  | .dispatching point store =>
      ∀ search : Search, search.point = point → search.store = store → search.best = none →
        ∃ dispatches ending, Search.run? setting dispatches search = some ending ∧
          ending.outcome = outcome
  | .failing store =>
      match store.backtrack with
      | (some point, below) =>
          ∀ search : Search, search.point = point → search.store = below → search.best = none →
            ∃ dispatches ending, Search.run? setting dispatches search = some ending ∧
              ending.outcome = outcome
      | (none, _) => outcome = .unmatched

/-- With nothing to go back to, there is no match. -/
theorem endsWith_unmatched {setting : Setting} {store : Store}
    (nothing : store.backtrack.1 = none) : (failing store).EndsWith setting .unmatched := by
  rw [EndsWith]
  cases found : store.backtrack with
  | mk resumed below =>
      rw [found] at nothing
      cases nothing
      rfl

section

variable {setting : Setting} (free : setting.Free) {outcome : Outcome} {stage stage' : Stage}

include free

theorem EndsWith.of_next (next : Next setting.toAttempt stage stage')
    (ends : stage'.EndsWith setting outcome) : stage.EndsWith setting outcome := by
  cases next with
  | @goto point next store instruction effects fetched planned =>
      intro search atPoint withStore noBest
      subst atPoint withStore
      obtain ⟨middle, stepped, _, store', best⟩ := Move.step_of_free free search fetched
      rw [planned] at stepped store'
      obtain ⟨dispatches, ending, ran, same⟩ :=
        ends { middle with point := next } rfl store' (best.trans noBest)
      refine ⟨dispatches + 1, ending, ?_, same⟩
      rw [Search.run?, stepped]
      exact ran
  | @fail point store instruction effects fetched planned =>
      intro search atPoint withStore noBest
      subst atPoint withStore
      obtain ⟨middle, stepped, _, store', best⟩ := Move.step_of_free free search fetched
      rw [planned] at stepped store'
      have failed := Move.play_failing_of_free free middle
      rw [store'] at failed
      have backed : search.step setting = _ := stepped.trans failed
      rw [EndsWith] at ends
      cases found : (Effect.onStoreAll search.store effects).backtrack with
      | mk resumed below =>
          rw [found] at backed ends
          cases resumed with
          | some point =>
              obtain ⟨dispatches, ending, ran, same⟩ :=
                ends { middle with point, store := below, failures := middle.failures + 1 }
                  rfl rfl (best.trans noBest)
              refine ⟨dispatches + 1, ending, ?_, same⟩
              rw [Search.run?, backed]
              exact ran
          | none =>
              refine ⟨1, _, by rw [Search.run?, backed]; rfl, ?_⟩
              dsimp only at ends ⊢
              rw [ends, best, noBest]
              rfl
  | @resume store below point found =>
      rw [EndsWith, found]
      exact ends

/-- What a run ends with is decided as soon as it has come to a stage that decides it. -/
theorem EndsWith.of_reaches (reaches : Reaches setting.toAttempt stage stage')
    (ends : stage'.EndsWith setting outcome) : stage.EndsWith setting outcome := by
  induction reaches using Relation.ReflTransGen.head_induction_on with
  | refl => exact ends
  | head next _ ih => exact ih.of_next free next

/-- Where no condition is put on candidates, the first one is the match. -/
theorem endsWith_matched (plain : setting.options.isFindCondition = false) {point : Point}
    {store : Store} (fetched : setting.program.code[point.address]? = some .accept) :
    (dispatching point store).EndsWith setting
      (.matched (store.region setting.program.regionSize setting.input.start
        point.cursor.position)) := by
  intro search atPoint withStore noBest
  subst atPoint withStore
  obtain ⟨middle, stepped, point', store', _⟩ := Move.step_of_free free search fetched
  have played : search.step setting =
      middle.halt (.matched (middle.candidateRegion setting)) := by
    rw [stepped]
    simp only [Plan.ofInstruction, Attempt.exitMoves, Attempt.acceptMoves, plain, Bool.not_false,
      if_true, Move.play_cons, Move.attempt]
    rfl
  refine ⟨1, _, by rw [Search.run?, played]; rfl, ?_⟩
  dsimp only
  rw [Search.candidateRegion, store', point']
  rfl

end

end Stage

end PatternMachine
