import PatternMachine.Proofs.Padding.Plans
import PatternMachine.Proofs.Paired
import PatternMachine.Proofs.Recoding

/-!
# Runs on padded stores

Two runs go on alike while the store of the second one pads that of the first one
(`Search.Pads.step`).  What the second one has besides are choices that lead nowhere.  It goes back
to them, fails there and goes back once more, until it has come to the choice that the first run has
gone back to at once (`Search.rejoins_backtrack`).
-/

namespace PatternMachine

variable {barren : Point → Bool}

/-- Whether a store is padded by another one, and refers to nothing but its own frames. -/
structure Store.PaddedBy (program : Program) (barren : Point → Bool) (left right : Store) :
    Prop where
  rooted : left.Rooted
  anchored : left.Anchored program
  pads : ∃ place, left.Pads barren place right

/-- Whether two searches have come to the same point, the second one with idle frames besides. -/
structure Search.Pads (program : Program) (barren : Point → Bool) (left right : Search) :
    Prop where
  point : right.point = left.point
  best : right.best = left.best
  store : left.store.PaddedBy program barren right.store

/-- Whether a search fails at a point, whatever its store is. -/
def Setting.FailsAt (setting : Setting) (point : Point) : Prop :=
  ∃ instruction, setting.program.code[point.address]? = some instruction ∧
    ∀ store, Plan.ofInstruction setting.toAttempt point store instruction = .fail

/-! ### Effects of plans -/

/-- Whether an effect leaves frames at their places and writes no references to them for good. -/
def Effect.Steady : Effect → Prop
  | .discard | .unwindTo _ => False
  | .setGroup _ bounds => bounds = .unset
  | _ => True

namespace Store

variable {program : Program} {place : Nat → Nat} {left right : Store}

section

variable (rooted : left.Rooted) (anchored : left.Anchored program)
  (pads : left.Pads barren place right)

include rooted anchored pads

theorem Pads.onStore_paddedBy {effect : Effect} (regular : effect.Regular program)
    (written : ∀ group bounds, effect = .setGroup group bounds →
      bounds.RootedIn left.stack group left.depth)
    (stays : effect ≠ .discard) :
    (effect.onStore left).PaddedBy program barren ((effect.renumber place).onStore right) where
  rooted := by
    have regular : (Move.perform effect).Regular program := regular
    refine rooted.onStore regular ?_ ?_
    · rintro group bounds ⟨⟩
      exact written group bounds rfl
    · rintro ⟨⟩
      exact absurd rfl stays
  anchored := by
    have regular : (Move.perform effect).Regular program := regular
    refine anchored.onStore regular ?_
    rintro ⟨⟩
    exact absurd rfl stays
  pads := by
    cases effect with
    | unwindTo mark =>
        obtain ⟨place', unwound, _⟩ := Pads.unwind (fun _ idle => idle.isMark_eq_false mark)
          (fun _ frame => frame.isMark_renumber mark) pads rooted anchored
        exact ⟨place', unwound⟩
    | push frame => exact ⟨place, pads.onStore (fun _ => by rintro ⟨⟩; exact regular) stays nofun⟩
    | _ => exact ⟨place, pads.onStore nofun stays nofun⟩

/-- Steady effects are carried out on both stores, one after the other. -/
theorem Pads.onStoreAll_paddedBy {effects : List Effect}
    (regular : ∀ effect ∈ effects, effect.Regular program)
    (steady : ∀ effect ∈ effects, effect.Steady) :
    (Effect.onStoreAll left effects).PaddedBy program barren
      (Effect.onStoreAll right (effects.map (Effect.renumber place))) := by
  induction effects generalizing left right with
  | nil => exact ⟨rooted, anchored, place, pads⟩
  | cons effect effects ih =>
      rw [List.forall_mem_cons] at regular steady
      have written : ∀ group bounds, effect = .setGroup group bounds →
          bounds.RootedIn left.stack group left.depth := by
        rintro group bounds rfl
        rw [show bounds = .unset from steady.1]
        exact .unset ..
      have stays : effect ≠ .discard := by
        rintro rfl
        exact steady.1
      have first := pads.onStore_paddedBy rooted anchored regular.1 written stays
      refine ih first.rooted first.anchored (pads.onStore ?_ stays ?_) regular.2 steady.2
      · rintro frame rfl
        exact regular.1
      · rintro mark rfl
        exact steady.1

end

end Store

namespace Plan

variable {attempt : Attempt} {point : Point} {store : Store} {instruction : Instruction}

/-- The effects of a plan are steady, or there is only one. -/
theorem steady_or_single (noPop : instruction ≠ .pop) :
    (∀ effect ∈ (ofInstruction attempt point store instruction).effects, effect.Steady) ∨
      ∃ effect, (ofInstruction attempt point store instruction).effects = [effect] := by
  have steady_or : ∀ {condition : Prop} [Decidable condition] {effect : Effect} {exit : Exit}
      {reason : Corruption},
      (∀ other ∈ (if condition then ⟨[effect], exit⟩ else corrupt reason : Plan).effects,
        other.Steady) ∨
      ∃ other, (if condition then ⟨[effect], exit⟩ else corrupt reason : Plan).effects =
        [other] := by
    intro condition _ effect exit reason
    split
    · exact .inr ⟨effect, rfl⟩
    · exact .inl nofun
  cases instruction with
  | openGroup group logged | closeGroup group logged => exact steady_or
  | lookNotFail | lookBehindNotFail => exact steady_or
  | pop => exact absurd rfl noPop
  | _ =>
      refine .inl fun effect mem => ?_
      cases Attempt.causes_of_mem_effects mem <;> trivial

variable {barren : Point → Bool} {place : Nat → Nat} {left right : Store}

/-- A plan does to a padded store what it does to the store. -/
theorem onStoreAll_paddedBy (noPop : instruction ≠ .pop) (rooted : left.Rooted)
    (anchored : left.Anchored attempt.program) (pads : left.Pads barren place right) :
    (Effect.onStoreAll left (ofInstruction attempt point left instruction).effects).PaddedBy
      attempt.program barren
      (Effect.onStoreAll right
        ((ofInstruction attempt point left instruction).renumber place).effects) := by
  have causes : ∀ effect ∈ (ofInstruction attempt point left instruction).effects,
      attempt.Causes point left instruction effect :=
    fun effect mem => Attempt.causes_of_mem_effects mem
  rcases @steady_or_single attempt point left instruction noPop with steady | ⟨effect, single⟩
  · exact pads.onStoreAll_paddedBy rooted anchored (fun effect mem => (causes effect mem).regular)
      steady
  · rw [renumber, single]
    rw [single, List.forall_mem_singleton] at causes
    refine pads.onStore_paddedBy rooted anchored causes.regular ?_ ?_
    · rintro group bounds rfl
      cases causes with
      | startGroup => exact ⟨fun _ same => Bound.noConfusion same, (rooted.groups group).stop⟩
      | stopGroup => exact ⟨(rooted.groups group).start, fun _ same => Bound.noConfusion same⟩
      | unsetGroup => exact .unset ..
    · rintro rfl
      cases causes
      exact noPop rfl

end Plan

/-! ### Going back -/

namespace Search

variable {setting : Setting} {code : Array Instruction} {left right : Search}

theorem attempt_backtrack_congr {search : Search} {store : Store}
    (same : search.store.backtrack = store.backtrack) :
    Move.backtrack.attempt setting search =
      Move.backtrack.attempt setting { search with store } := by
  simp only [Move.attempt, same]

/-- A frame that is no choice is failed over. -/
theorem attempt_backtrack_push {search : Search} {lower : Store} {frame : Frame}
    (top : search.store = lower.push frame) (silent : frame.isResumable = false) :
    Move.backtrack.attempt setting search =
      Move.backtrack.attempt setting { search with store := lower.restore frame } := by
  refine attempt_backtrack_congr ?_
  rw [top, Store.backtrack, Store.unwind_push, silent, if_neg Bool.noConfusion]
  rfl

/-- A choice is gone back to. -/
theorem attempt_backtrack_choice {search : Search} {lower : Store} {frame : Frame} {point : Point}
    (top : search.store = lower.push frame) (resumed : frame.resume? = some point) :
    Move.backtrack.attempt setting search = .ok { search with point, store := lower } := by
  simp only [Move.attempt, top, Store.backtrack_choice lower resumed]

theorem attempt_backtrack_empty {search : Search} (nothing : search.store.stack = .empty) :
    Move.backtrack.attempt setting search = search.conclude := by
  obtain ⟨point, ⟨stack, registers⟩, best, steps, failures, events⟩ := search
  obtain rfl : stack = .empty := nothing
  simp only [Move.attempt, Store.backtrack, Store.unwind_blank]
  rfl

/-- A failure without limits is counted and leads to the latest choice. -/
theorem play_failing_eq (free : setting.Free) (search : Search) :
    Move.play setting search Move.failing =
      Move.backtrack.attempt setting { search with failures := search.failures + 1 } :=
  (Move.play_failing_of_free free search).trans rfl

section

variable (free : setting.Free)
  (fails : ∀ point, barren point = true → (setting.withCode code).FailsAt point)

include free fails

/-- A search that comes to where it cannot but fail goes back to the next choice. -/
theorem exists_step_barren {search : Search} (leadsNowhere : barren search.point = true) :
    ∃ next, next.store = search.store ∧ next.best = search.best ∧
      search.step (setting.withCode code) =
        Move.backtrack.attempt (setting.withCode code) next := by
  obtain ⟨instruction, fetched, plan⟩ := fails search.point leadsNowhere
  obtain ⟨middle, stepped, _, store, best⟩ :=
    Move.step_of_free (free.withCode code) search fetched
  rw [plan] at stepped store
  exact ⟨{ middle with failures := middle.failures + 1 }, store, best,
    stepped.trans (play_failing_eq (free.withCode code) middle)⟩

/-- Two runs come to the same choice, and the second one fails at those that lead nowhere before. -/
theorem rejoins_backtrack (store : left.store.PaddedBy setting.program barren right.store)
    (best : right.best = left.best) :
    Rejoins setting (setting.withCode code) (Pads setting.program barren)
      (Move.backtrack.attempt setting left)
      (Move.backtrack.attempt (setting.withCode code) right) := by
  induction depth : right.store.depth using Nat.strongRecOn generalizing left right with
  | ind depth' ih =>
      obtain ⟨rooted, anchored, place, pads⟩ := store
      rcases pads.top_cases rooted anchored with
        ⟨empty, empty'⟩ | ⟨place', below, frame, top, idle, lowered⟩ |
          ⟨lower, below, frame, top, top', lowered⟩
      · rw [attempt_backtrack_empty empty, attempt_backtrack_empty empty']
        exact .of_paired (.ends (by rw [best]))
      · rw [top, Store.depth_push] at depth
        have shallower : below.depth < depth' := Nat.lt_of_succ_le (Nat.le_of_eq depth)
        have padded : left.store.PaddedBy setting.program barren below :=
          ⟨rooted, anchored, place', lowered⟩
        cases idle with
        | void =>
            rw [attempt_backtrack_push top rfl]
            exact ih _ shallower padded best rfl
        | @choice point leadsNowhere =>
            rw [attempt_backtrack_choice top rfl]
            obtain ⟨next, store, best', stepped⟩ := @exists_step_barren _ _ _ free fails
              { right with point, store := below } leadsNowhere
            refine .of_step ?_
            rw [stepped]
            refine ih _ shallower ?_ (best'.trans best) ?_
            · rwa [store]
            · rw [store]
      · rw [top', Store.depth_push] at depth
        have shallower : below.depth < depth' := Nat.lt_of_succ_le (Nat.le_of_eq depth)
        rw [top] at rooted anchored
        cases resumed : frame.resume? with
        | some point =>
            have resumed' : (frame.renumber place).resume? = some point := by
              rw [Frame.resume?_renumber, resumed]
            rw [attempt_backtrack_choice top resumed, attempt_backtrack_choice top' resumed']
            have plain : frame.group? = none ∧ frame.isEntry = false := by
              cases frame <;> first | exact ⟨rfl, rfl⟩ | cases resumed
            exact .of_paired (.goesOn ⟨rfl, best, rooted.lower plain.1, anchored.lower plain.2,
              place, lowered⟩)
        | none =>
            have silent : frame.isResumable = false := by rw [Frame.isResumable, resumed]; rfl
            have silent' : (frame.renumber place).isResumable = false := by
              rw [Frame.isResumable, Frame.resume?_renumber, resumed]
              rfl
            rw [attempt_backtrack_push top silent, attempt_backtrack_push top' silent']
            exact ih _ shallower ⟨.restore lower frame rooted, .restore lower frame anchored, place,
              lowered.restore frame⟩ best (Store.depth_restore ..)

end

end Search

/-! ### Moves -/

/-- Whether moves are others with work besides, and choices that lead nowhere. -/
inductive Move.Pads (barren : Point → Bool) : List Move → List Move → Prop
  | goto (point : Point) : Pads barren [.goto point] [.goto point]
  | failing : Pads barren failing failing
  | work {moves moves' : List Move} (rest : Pads barren moves moves') :
      Pads barren (.work :: moves) (.work :: moves')
  | choice (point : Point) {moves moves' : List Move} (rest : Pads barren moves moves') :
      Pads barren (.perform (.push (.choice point)) :: moves)
        (.perform (.push (.choice point)) :: moves')
  | moreWork {moves moves' : List Move} (rest : Pads barren moves moves') :
      Pads barren moves (.work :: moves')
  | extra {point : Point} (leadsNowhere : barren point = true) {moves moves' : List Move}
      (rest : Pads barren moves moves') :
      Pads barren moves (.perform (.push (.choice point)) :: moves')

theorem Move.Pads.trans {few some many : List Move} (pads : Move.Pads barren few some)
    (pads' : Move.Pads barren some many) : Move.Pads barren few many := by
  induction pads' generalizing few with
  | goto | failing => exact pads
  | work rest ih =>
      cases pads with
      | work rest' => exact .work (ih rest')
      | moreWork rest' => exact .moreWork (ih rest')
  | choice point rest ih =>
      cases pads with
      | choice _ rest' => exact .choice point (ih rest')
      | extra leadsNowhere rest' => exact .extra leadsNowhere (ih rest')
  | moreWork rest ih => exact .moreWork (ih pads)
  | extra leadsNowhere rest ih => exact .extra leadsNowhere (ih pads)

theorem Star.Sweeps.pads {star : Star} {moves : List Move} (sweeps : star.Sweeps moves) :
    Move.Pads barren moves moves := by
  induction sweeps with
  | goto => exact .goto _
  | failing => exact .failing
  | work rest ih => exact .work ih
  | choice rest ih => exact .choice _ ih

namespace Store.PaddedBy

variable {program : Program} {left right : Store} (padded : left.PaddedBy program barren right)

include padded

theorem choice (point : Point) :
    (left.push (.choice point)).PaddedBy program barren (right.push (.choice point)) where
  rooted := padded.rooted.push_of_no_group rfl
  anchored := padded.anchored.push rfl
  pads := by
    obtain ⟨place, pads⟩ := padded.pads
    exact ⟨place, pads.both (.choice point)⟩

theorem extra {point : Point} (leadsNowhere : barren point = true) :
    left.PaddedBy program barren (right.push (.choice point)) where
  rooted := padded.rooted
  anchored := padded.anchored
  pads := by
    obtain ⟨place, pads⟩ := padded.pads
    exact ⟨_, pads.extra padded.rooted.grounded
      (fun id index isActive => (padded.anchored.active id index isActive).lt_depth)
      (.choice leadsNowhere)⟩

end Store.PaddedBy

namespace Search

variable {setting : Setting} {code : Array Instruction} {left right : Search}

/-- Two runs start alike. -/
theorem pads_start (store : Store) :
    (start setting store).Pads setting.program barren (start (setting.withCode code) store) where
  point := rfl
  best := rfl
  store := ⟨.reset store, .reset store, id, .reset store⟩

namespace Pads

variable (free : setting.Free)
  (fails : ∀ point, barren point = true → (setting.withCode code).FailsAt point)
  (pads : left.Pads setting.program barren right)

include pads

theorem candidateRegion :
    right.candidateRegion (setting.withCode code) = left.candidateRegion setting := by
  obtain ⟨place, padded⟩ := pads.store.pads
  rw [Search.candidateRegion, Search.candidateRegion, pads.point]
  exact Store.region_congr padded.span?_eq ..

theorem conclude : Paired (Pads setting.program barren) left.conclude right.conclude :=
  .ends (by rw [pads.best])

theorem consider :
    (left.consider setting).Pads setting.program barren
      (right.consider (setting.withCode code)) := by
  rw [consider_eq setting left, consider_eq (setting.withCode code) right]
  exact ⟨pads.point, best_consider_congr pads.candidateRegion (by rw [pads.point]) rfl pads.best,
    pads.store⟩

include free fails

theorem failing :
    Rejoins setting (setting.withCode code) (Pads setting.program barren)
      (Move.play setting left Move.failing)
      (Move.play (setting.withCode code) right Move.failing) := by
  rw [play_failing_eq free, play_failing_eq (free.withCode code)]
  exact rejoins_backtrack free fails pads.store pads.best

/-- Padded moves keep one run a padded one of the other. -/
theorem play {moves moves' : List Move} (padded : Move.Pads barren moves moves') :
    Rejoins setting (setting.withCode code) (Pads setting.program barren)
      (Move.play setting left moves) (Move.play (setting.withCode code) right moves') := by
  induction padded generalizing left right with
  | goto point => exact .of_paired (.goesOn ⟨rfl, pads.best, pads.store⟩)
  | failing => exact pads.failing free fails
  | work rest ih =>
      rw [Move.play_cons, Move.play_cons, Move.attempt, Move.attempt, Move.work_of_free free,
        Move.work_of_free (free.withCode code)]
      exact ih ⟨pads.point, pads.best, pads.store⟩
  | choice point rest ih =>
      rw [Move.play_cons, Move.play_cons, Move.attempt_push_of_free free,
        Move.attempt_push_of_free (free.withCode code)]
      exact ih ⟨pads.point, pads.best, pads.store.choice point⟩
  | moreWork rest ih =>
      rw [Move.play_cons, Move.attempt, Move.work_of_free (free.withCode code)]
      exact ih ⟨pads.point, pads.best, pads.store⟩
  | extra leadsNowhere rest ih =>
      rw [Move.play_cons, Move.attempt_push_of_free (free.withCode code)]
      exact ih ⟨pads.point, pads.best, pads.store.extra leadsNowhere⟩

/-- A position ends a candidate of both searches. -/
theorem acceptMoves (position : Nat) :
    Rejoins setting (setting.withCode code) (Pads setting.program barren)
      (Move.play setting left (setting.acceptMoves position))
      (Move.play (setting.withCode code) right (setting.acceptMoves position)) := by
  unfold Attempt.acceptMoves
  split
  · exact .of_paired (.ends (congrArg Outcome.matched pads.candidateRegion.symm))
  split
  · exact pads.failing free fails
  split
  · rw [Move.play_cons, Move.play_cons]
    exact pads.consider.failing free fails
  · rw [Move.play_cons, Move.play_cons]
    exact .of_paired pads.consider.conclude

theorem exitMoves (point : Point) (exit : Exit) :
    Rejoins setting (setting.withCode code) (Pads setting.program barren)
      (Move.play setting left (setting.exitMoves point exit))
      (Move.play (setting.withCode code) right ((setting.withCode code).exitMoves point exit)) := by
  cases exit with
  | goto next => exact pads.play free fails (.goto next)
  | fail => exact pads.failing free fails
  | sweep star => exact pads.play free fails (star.sweeps_sweepMoves ..).pads
  | leap star byte => exact pads.play free fails (star.sweeps_leapMoves ..).pads
  | accept => exact pads.acceptMoves free fails _
  | finish => exact .of_paired pads.conclude
  | corrupt reason =>
      refine .of_paired (.ends ?_)
      dsimp only
      rw [pads.point]

omit fails in
/-- Two searches have the effects of their instructions and leave these. -/
theorem exists_step {instruction instruction' : Instruction}
    (fetched : setting.program.code[left.point.address]? = some instruction)
    (fetched' : (setting.withCode code).program.code[right.point.address]? = some instruction')
    {plan plan' : Plan}
    (planned : Plan.ofInstruction setting.toAttempt left.point left.store instruction = plan)
    (planned' : Plan.ofInstruction (setting.withCode code).toAttempt right.point right.store
      instruction' = plan')
    (stores : (Effect.onStoreAll left.store plan.effects).PaddedBy setting.program barren
      (Effect.onStoreAll right.store plan'.effects)) :
    ∃ next next', left.step setting =
        Move.play setting next (setting.exitMoves left.point plan.exit) ∧
      right.step (setting.withCode code) = Move.play (setting.withCode code) next'
        ((setting.withCode code).exitMoves left.point plan'.exit) ∧
      next.Pads setting.program barren next' := by
  obtain ⟨next, stepped, point, store, best⟩ := Move.step_of_free free left fetched
  obtain ⟨next', stepped', point', store', best'⟩ :=
    Move.step_of_free (free.withCode code) right fetched'
  rw [planned] at stepped store
  rw [planned', pads.point] at stepped'
  rw [planned'] at store'
  refine ⟨next, next', stepped, stepped', ?_, ?_, ?_⟩
  · rw [point, point', pads.point]
  · rw [best, best', pads.best]
  · rwa [store, store']

/-- Where the code is the same and means the same, a dispatch of one run is followed by some of the
other one. -/
theorem step (same : code[left.point.address]? = setting.program.code[left.point.address]?)
    (means : ∀ instruction, setting.program.code[left.point.address]? = some instruction →
      Plan.ofInstruction (setting.withCode code).toAttempt left.point right.store instruction =
        Plan.ofInstruction setting.toAttempt left.point right.store instruction)
    (noPop : setting.program.code[left.point.address]? ≠ some .pop) :
    Rejoins setting (setting.withCode code) (Pads setting.program barren) (left.step setting)
      (right.step (setting.withCode code)) := by
  cases fetched : setting.program.code[left.point.address]? with
  | none =>
      have fetched' : (setting.withCode code).program.code[right.point.address]? = none := by
        rw [pads.point]
        exact same.trans fetched
      rw [step_eq_play, step_eq_play, Attempt.moves, Attempt.moves, fetched, fetched']
      refine .of_paired (.ends ?_)
      dsimp only
      rw [pads.point]
  | some instruction =>
      have fetched' : (setting.withCode code).program.code[right.point.address]? =
          some instruction := by
        rw [pads.point]
        exact same.trans fetched
      have noPop : instruction ≠ .pop := fun isPop => noPop (fetched.trans (by rw [isPop]))
      obtain ⟨place, padded⟩ := pads.store.pads
      have planned : Plan.ofInstruction (setting.withCode code).toAttempt right.point right.store
          instruction = (Plan.ofInstruction setting.toAttempt left.point left.store
            instruction).renumber place := by
        rw [pads.point]
        refine (means instruction fetched).trans ?_
        exact Plan.ofInstruction_pads padded pads.store.rooted noPop
      obtain ⟨next, next', stepped, stepped', nextPads⟩ := pads.exists_step free fetched fetched' rfl
        planned (Plan.onStoreAll_paddedBy noPop pads.store.rooted pads.store.anchored padded)
      rw [stepped, stepped']
      exact nextPads.exitMoves free fails _ _

end Pads

/-- An outcome that depends on whether the instruction at an address is the way back of a loop. -/
def EndsBefore (address : Nat) (outcome : Outcome) : Prop :=
  ∃ check, check + 1 = address ∧ outcome = .stopped (.corrupt check .noLoopBack)

/-- A run without limits that comes to an empty iteration which no way back of a loop follows ends
there. -/
theorem endsBefore_of_exit (free : setting.Free) {search : Search} {instruction : Instruction}
    (fetched : setting.program.code[search.point.address]? = some instruction)
    (exit : (Plan.ofInstruction setting.toAttempt search.point search.store instruction).exit =
      .corrupt .noLoopBack) :
    ¬ search.Avoids setting (EndsBefore search.point.next) := by
  intro avoids
  obtain ⟨next, stepped, point, _⟩ := Move.step_of_free free search fetched
  rw [exit] at stepped
  have ended : search.step setting =
      .error ⟨.stopped (.corrupt next.point.address .noLoopBack), next⟩ := stepped
  refine avoids 1 _ (by rw [run?, ended]) ⟨search.point.address, rfl, ?_⟩
  dsimp only
  rw [point]

/-- The end of an iteration means the same in other code if what it steps over is not the way back of a
loop in the first code, and no empty iteration ends the first run there. -/
theorem Pads.emptyCheckEnd_eq (pads : left.Pads setting.program barren right) (free : setting.Free)
    {replaced : Instruction} (next : setting.program.code[left.point.next]? = some replaced)
    (noLoop : replaced.isLoopBack = false) {id : Nat} {watched : Option (List Nat)}
    (fetched : setting.program.code[left.point.address]? = some (.emptyCheckEnd id watched))
    (avoids : left.Avoids setting (EndsBefore left.point.next)) :
    Plan.ofInstruction (setting.withCode code).toAttempt left.point right.store
        (.emptyCheckEnd id watched) =
      Plan.ofInstruction setting.toAttempt left.point right.store (.emptyCheckEnd id watched) := by
  obtain ⟨place, padded⟩ := pads.store.pads
  refine (Plan.emptyCheckEnd_withCode_or next noLoop right.store id watched).resolve_right
    fun exit => ?_
  have planned : Plan.emptyCheckEnd setting.toAttempt left.point right.store id watched =
      (Plan.emptyCheckEnd setting.toAttempt left.point left.store id watched).renumber place :=
    Plan.emptyCheckEnd_pads padded pads.store.rooted id watched
  exact endsBefore_of_exit free fetched ((congrArg Plan.exit planned).symm.trans exit) avoids

/-- If one instruction is replaced and every dispatch of the other one is followed in padded searches,
the runs have the same outcomes.  If the other one, but not the one replaced, is the way back of a
loop, no empty iteration may end the run right before. -/
theorem run?_iff_of_pads {address : Nat} {replaced instruction : Instruction} (free : setting.Free)
    (store : Store) (fetched : setting.program.code[address]? = some replaced)
    (isCode : code = setting.program.code.setIfInBounds address instruction)
    (kind : instruction.isLoopBack = replaced.isLoopBack ∨
      replaced.isLoopBack = false ∧
        (start setting store).Avoids setting (EndsBefore address))
    (noPop : .pop ∉ setting.program.code)
    (fails : ∀ point, barren point = true → (setting.withCode code).FailsAt point)
    (steps : ∀ {left right : Search}, left.Pads setting.program barren right →
      left.point.address = address →
      Rejoins setting (setting.withCode code) (Pads setting.program barren) (left.step setting)
        (right.step (setting.withCode code)))
    (outcome : Outcome) :
    (∃ dispatches ending, run? setting dispatches (start setting store) = some ending ∧
        ending.outcome = outcome) ↔
      ∃ dispatches ending, run? (setting.withCode code) dispatches
        (start (setting.withCode code) store) = some ending ∧ ending.outcome = outcome := by
  have inside : address < setting.program.code.size := (Array.getElem?_eq_some_iff.1 fetched).1
  have size : code.size = setting.program.code.size := by rw [isCode, Array.size_setIfInBounds]
  have apart : ∀ {other : Nat}, other ≠ address → code[other]? = setting.program.code[other]? := by
    intro other apart
    rw [isCode, Array.getElem?_setIfInBounds_ne apart.symm]
  have avoids : (start setting store).Avoids setting fun outcome =>
      instruction.isLoopBack ≠ replaced.isLoopBack ∧ EndsBefore address outcome := by
    rintro dispatches ending ran ⟨differs, bad⟩
    rcases kind with same | ⟨_, avoids⟩
    · exact differs same
    · exact avoids dispatches ending ran bad
  refine run?_iff_of_rejoins ?_ (@pads_start barren setting code store) avoids outcome
  intro left right pads avoids
  by_cases atAddress : left.point.address = address
  · exact steps pads atAddress
  · refine pads.step free fails (apart atAddress) (fun found isFound => ?means) fun isPop => ?noPop
    case noPop => exact noPop (Array.mem_of_getElem? isPop)
    case means =>
      by_cases isNext : left.point.next = address
      · by_cases same : instruction.isLoopBack = replaced.isLoopBack
        · refine Plan.ofInstruction_withCode size _ _ _ fun _ _ _ => ?_
          rw [isNext, isCode, Array.getElem?_setIfInBounds_self_of_lt inside, fetched,
            Option.map_some, Option.map_some, same]
        · cases found with
          | emptyCheckEnd id watched =>
              refine pads.emptyCheckEnd_eq free (by rw [isNext, fetched]) (kind.resolve_left same).1
                isFound fun dispatches ending ran bad => ?_
              rw [isNext] at bad
              exact avoids dispatches ending ran ⟨same, bad⟩
          | _ => exact Plan.ofInstruction_withCode size _ _ _ nofun
      · refine Plan.ofInstruction_withCode size _ _ _ fun _ _ _ => ?_
        rw [apart isNext]

end Search

end PatternMachine
