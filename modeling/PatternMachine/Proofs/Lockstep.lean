import PatternMachine.Proofs.Recoding
import PatternMachine.Proofs.Rewind
import PatternMachine.Proofs.Trail

/-!
# Runs in lockstep

Two runs of the same attempt that differ in their limits and in what they report make the same
moves, until one of them has used up a budget.  The moves depend on the attempt without its tracing
(`Attempt.moves_traced`), and a move is refused exactly if what it leads to is beyond a limit
(`Move.attempt_lockstep`).
-/

namespace PatternMachine

/-! ### Tracing does not matter -/

/-- The same attempt, traced or not. -/
def Attempt.traced (attempt : Attempt) (on : Bool) : Attempt :=
  { attempt with options := { attempt.options with trace := on } }

namespace Attempt

variable (attempt : Attempt) (on : Bool)

theorem ofInstruction_traced (point : Point) (store : Store) (instruction : Instruction) :
    Plan.ofInstruction (attempt.traced on) point store instruction =
      Plan.ofInstruction attempt point store instruction :=
  Plan.ofInstruction_recode rfl attempt.program.options on attempt.options.findLongest point store
    instruction fun _ _ _ => rfl

theorem moves_traced (point : Point) (store : Store) :
    (attempt.traced on).moves point store = attempt.moves point store := by
  simp only [moves, ofInstruction_traced]
  rfl

end Attempt

/-! ### Budgets -/

theorem Limit.exceededBy_mono {limit : Limit} {few many : Nat} (more : few ≤ many)
    (within : limit.exceededBy many = false) : limit.exceededBy few = false := by
  cases limit with
  | unlimited => rfl
  | atMost bound =>
      have kept := of_decide_eq_false within
      exact decide_eq_false fun beyond => kept (Nat.lt_of_lt_of_le beyond more)

/-- The budget that a state of a search is beyond, if there is one. -/
def Limits.overrun? (limits : Limits) (search : Search) : Option MatchError :=
  if limits.stackLimit.exceededBy search.store.depth then
    some (.stackLimit limits.stackLimit.toNat)
  else if limits.retryLimit.exceededBy search.failures then
    some .retryLimit
  else
    none

namespace Limits

variable {limits : Limits} {search next : Search}

theorem overrun?_eq_none_iff :
    limits.overrun? search = none ↔
      limits.stackLimit.exceededBy search.store.depth = false ∧
        limits.retryLimit.exceededBy search.failures = false := by
  unfold overrun?
  cases limits.stackLimit.exceededBy search.store.depth <;>
    cases limits.retryLimit.exceededBy search.failures <;> simp

/-- A state that needs no more than one within the budgets is within the budgets. -/
theorem overrun?_of_le (within : limits.overrun? search = none)
    (shallower : next.store.depth ≤ search.store.depth)
    (fewer : next.failures ≤ search.failures) : limits.overrun? next = none := by
  obtain ⟨room, retries⟩ := overrun?_eq_none_iff.1 within
  exact overrun?_eq_none_iff.2
    ⟨Limit.exceededBy_mono shallower room, Limit.exceededBy_mono fewer retries⟩

/-- Every budget that is beyond is one of those that may be raised. -/
theorem isResourceExhausted_of_overrun? {failure : MatchError}
    (beyond : limits.overrun? search = some failure) : failure.isResourceExhausted = true := by
  unfold overrun? at beyond
  split at beyond
  · cases beyond
    rfl
  · split at beyond
    · cases beyond
      rfl
    · cases beyond

end Limits

/-! ### One move -/

/-- A search without what it has reported. -/
def Search.quiet (search : Search) : Search :=
  { search with events := #[] }

theorem Search.exists_events {left right : Search} (same : left.quiet = right.quiet) :
    ∃ events, left = { right with events } := by
  refine ⟨left.events, ?_⟩
  cases left
  cases right
  simp only [quiet, mk.injEq] at same ⊢
  exact ⟨same.1, same.2.1, same.2.2.1, same.2.2.2.1, same.2.2.2.2.1, trivial⟩

theorem Search.quiet_note (setting : Setting) (search : Search) (event : Event) :
    (search.note setting event).quiet = search.quiet := by
  unfold note
  split <;> rfl

/-- One setting puts budgets on what another one leaves free, and may trace differently. -/
structure Setting.Bounds (bounded free : Setting) : Prop where
  timeless : bounded.timeLimit = none
  permitted : ∀ call, bounded.monitor.permits call = true
  isFree : free.Free
  same : ∃ on, bounded.toAttempt = free.toAttempt.traced on

/-- What a bounded run does in comparison with a free one: the same, unless that has gone beyond a
budget. -/
inductive Lockstep (limits : Limits) : Except Ending Search → Except Ending Search → Prop
  | goesOn {right left : Search} (same : left.quiet = right.quiet)
      (within : limits.overrun? right = none) : Lockstep limits (.ok right) (.ok left)
  | exhausted {right : Search} {ending : Ending} {failure : MatchError}
      (beyond : limits.overrun? right = some failure)
      (stopped : ending.outcome = .stopped failure) :
      Lockstep limits (.ok right) (.error ending)
  | ends {right left : Ending} (same : left.outcome = right.outcome) :
      Lockstep limits (.error right) (.error left)

namespace Setting.Bounds

variable {bounded free : Setting} (bounds : bounded.Bounds free)

include bounds

theorem program : bounded.program = free.program := by
  obtain ⟨on, same⟩ := bounds.same
  exact (congrArg Attempt.program same).trans rfl

theorem input : bounded.input = free.input := by
  obtain ⟨on, same⟩ := bounds.same
  exact (congrArg Attempt.input same).trans rfl

theorem moves (point : Point) (store : Store) :
    bounded.moves point store = free.moves point store := by
  obtain ⟨on, same⟩ := bounds.same
  rw [same, Attempt.moves_traced]

theorem candidateRegion (search : Search) (events : Array Event) :
    Search.candidateRegion bounded { search with events } = search.candidateRegion free := by
  rw [Search.candidateRegion, Search.candidateRegion, bounds.program, bounds.input]

/-- An effect is carried out unless the stack gets too high by it. -/
theorem perform_lockstep {right : Search} (events : Array Event)
    (within : bounded.overrun? right = none) (effect : Effect) :
    Lockstep bounded.toLimits (right.perform free effect)
      (Search.perform bounded { right with events } effect) := by
  by_cases isNote : ∃ event, effect = .note event
  · obtain ⟨event, rfl⟩ := isNote
    apply Lockstep.goesOn
    · rw [Search.quiet_note, Search.quiet_note]
      rfl
    · apply Limits.overrun?_of_le within
      · unfold Search.note
        split <;> exact Nat.le_refl _
      · unfold Search.note
        split <;> exact Nat.le_refl _
  · have silent : ∀ event, effect ≠ .note event := fun event same => isNote ⟨event, same⟩
    have unlimited : right.store.stack.hasRoom free.stackLimit = true := by
      rw [show free.stackLimit = .unlimited from
        congrArg Limits.stackLimit bounds.isFree.unlimited]
      rfl
    rw [Search.perform_of_ne_note free right silent, Search.perform_of_ne_note bounded _ silent,
      unlimited, Bool.not_true, Bool.and_false, if_neg Bool.noConfusion]
    have depth := effect.depth_onStore right.store
    obtain ⟨room, retries⟩ := Limits.overrun?_eq_none_iff.1 within
    cases needs : effect.needsRoom with
    | false =>
        rw [needs, if_neg Bool.noConfusion] at depth
        rw [Bool.false_and, if_neg Bool.noConfusion]
        exact .goesOn rfl (Limits.overrun?_of_le within depth (Nat.le_refl _))
    | true =>
        rw [needs, if_pos rfl] at depth
        rw [Bool.true_and, Stack.hasRoom, Bool.not_not]
        cases beyond : bounded.stackLimit.exceededBy (right.store.stack.depth + 1) with
        | true =>
            have overrun : bounded.overrun?
                { right with store := effect.onStore right.store } =
                  some (.stackLimit bounded.stackLimit.toNat) := by
              rw [Limits.overrun?, if_pos]
              exact depth ▸ beyond
            rw [if_pos rfl]
            exact .exhausted overrun rfl
        | false =>
            rw [if_neg Bool.noConfusion]
            exact .goesOn rfl (Limits.overrun?_eq_none_iff.2 ⟨depth ▸ beyond, retries⟩)

/-- A failure is counted unless there are too many. -/
theorem fail_lockstep {right : Search} (events : Array Event)
    (within : bounded.overrun? right = none) :
    Lockstep bounded.toLimits (Move.fail.attempt free right)
      (Move.fail.attempt bounded { right with events }) := by
  have unlimited : free.retryLimit = .unlimited :=
    congrArg Limits.retryLimit bounds.isFree.unlimited
  have timeless : free.timeLimit = none := congrArg Limits.timeLimit bounds.isFree.unlimited
  obtain ⟨room, retries⟩ := Limits.overrun?_eq_none_iff.1 within
  have counted : Move.fail.attempt free right =
      .ok { right with failures := right.failures + 1 } := by
    simp [Move.attempt, Search.outOfTime, unlimited, timeless, Limit.exceededBy]
  rw [counted]
  simp only [Move.attempt, Search.outOfTime, bounds.timeless, Bool.false_eq_true, if_false]
  cases beyond : bounded.retryLimit.exceededBy (right.failures + 1) with
  | true =>
      have overrun : bounded.overrun? { right with failures := right.failures + 1 } =
          some .retryLimit := by
        rw [Limits.overrun?, if_neg (by rw [room]; exact Bool.noConfusion), if_pos beyond]
      rw [if_pos rfl]
      exact .exhausted overrun rfl
  | false =>
      rw [if_neg Bool.noConfusion]
      exact .goesOn rfl (Limits.overrun?_eq_none_iff.2 ⟨room, beyond⟩)

/-- A move is made if the free run makes it and does not get beyond a budget by it. -/
theorem attempt_lockstep {left right : Search} (same : left.quiet = right.quiet)
    (within : bounded.overrun? right = none) (move : Move) :
    Lockstep bounded.toLimits (move.attempt free right) (move.attempt bounded left) := by
  obtain ⟨events, rfl⟩ := Search.exists_events same
  cases move with
  | work =>
      simp only [Move.attempt]
      rw [Move.work_of_free bounds.isFree]
      have worked : Search.work bounded { right with events } =
          .ok { right with events, steps := right.steps + 1 } := by
        simp [Search.work, bounds.permitted]
      rw [worked]
      exact .goesOn rfl (Limits.overrun?_of_le within (Nat.le_refl _) (Nat.le_refl _))
  | perform effect => exact bounds.perform_lockstep events within effect
  | fail => exact bounds.fail_lockstep events within
  | backtrack =>
      have shallower :=
        (Store.unwind_eq_rewind (fun _ => Frame.IsPlain.of_isResumable) right.store).1
      simp only [Move.attempt]
      cases found : right.store.backtrack with
      | mk resumed below =>
          have depth : below.depth ≤ right.store.depth := by
            rw [show below = (right.store.unwind Frame.isResumable).2 from
              (congrArg Prod.snd found).symm]
            exact shallower
          cases resumed with
          | some point => exact .goesOn rfl (Limits.overrun?_of_le within depth (Nat.le_refl _))
          | none => exact .ends rfl
  | goto point => exact .goesOn rfl (Limits.overrun?_of_le within (Nat.le_refl _) (Nat.le_refl _))
  | consider =>
      simp only [Move.attempt, Search.consider]
      rw [bounds.candidateRegion, bounds.input]
      have improved : ∀ length, Search.improvedBy { right with events } length =
          right.improvedBy length := fun _ => rfl
      rw [improved]
      split
      · exact .goesOn rfl (Limits.overrun?_of_le within (Nat.le_refl _) (Nat.le_refl _))
      · exact .goesOn rfl (Limits.overrun?_of_le within (Nat.le_refl _) (Nat.le_refl _))
  | matched =>
      simp only [Move.attempt]
      rw [bounds.candidateRegion]
      exact .ends rfl
  | conclude => exact .ends rfl
  | reject reason => exact .ends rfl

end Setting.Bounds

/-! ### Whole runs -/

/-- The first budget that a run gets beyond. -/
def Limits.firstOverrun? (limits : Limits) (visits : List Visit) : Option MatchError :=
  visits.findSome? fun visit => limits.overrun? visit.after

/-- What a bounded run comes to in comparison with a free one that first gets beyond a given
budget. -/
inductive InStep (limits : Limits) :
    Option MatchError → Except Ending Search → Except Ending Search → Prop
  | goesOn {right left : Search} (same : left.quiet = right.quiet)
      (within : limits.overrun? right = none) : InStep limits none (.ok right) (.ok left)
  | ends {right left : Ending} (same : left.outcome = right.outcome) :
      InStep limits none (.error right) (.error left)
  | exhausted {result : Except Ending Search} {ending : Ending} {failure : MatchError}
      (stopped : ending.outcome = .stopped failure) :
      InStep limits (some failure) result (.error ending)

namespace Setting.Bounds

variable {bounded free : Setting} (bounds : bounded.Bounds free)

include bounds

theorem play_inStep {left right : Search} (same : left.quiet = right.quiet)
    (within : bounded.overrun? right = none) (moves : List Move) :
    InStep bounded.toLimits (bounded.firstOverrun? (Move.trail free right moves))
      (Move.play free right moves) (Move.play bounded left moves) := by
  induction moves generalizing left right with
  | nil => exact .goesOn same within
  | cons move moves ih =>
      have one := bounds.attempt_lockstep same within move
      rw [Move.play_cons, Move.play_cons, Move.trail]
      generalize move.attempt bounded left = result at one
      cases attempted : move.attempt free right with
      | error ending =>
          rw [attempted] at one
          cases one with
          | ends same' => exact .ends same'
      | ok next =>
          rw [attempted] at one
          dsimp only
          rw [Limits.firstOverrun?, List.findSome?_cons]
          cases one with
          | goesOn same' within' =>
              dsimp only
              rw [within']
              exact ih same' within'
          | exhausted beyond stopped =>
              dsimp only
              rw [beyond]
              exact .exhausted stopped

/-- A bounded run ends as the free one does, or with the first budget that the free one gets
beyond. -/
theorem run?_outcome {left right : Search} (same : left.quiet = right.quiet)
    (within : bounded.overrun? right = none) (dispatches : Nat) :
    (Search.run? bounded dispatches left).map Ending.outcome =
      match bounded.firstOverrun? (Search.trail free dispatches right) with
      | some failure => some (.stopped failure)
      | none => (Search.run? free dispatches right).map Ending.outcome := by
  induction dispatches generalizing left right with
  | zero => rfl
  | succ dispatches ih =>
      have step := bounds.play_inStep same within (free.moves right.point right.store)
      have stepped : Move.play bounded left (free.moves right.point right.store) =
          left.step bounded := by
        obtain ⟨events, rfl⟩ := Search.exists_events same
        rw [Search.step_eq_play, bounds.moves]
      rw [stepped, ← Search.step_eq_play] at step
      rw [Search.run?, Search.run?, Search.trail, Limits.firstOverrun?, List.findSome?_append]
      rw [Limits.firstOverrun?] at step
      generalize left.step bounded = result, right.step free = freely at step
      generalize ((Move.trail free right (free.moves right.point right.store)).findSome?
        fun visit => bounded.overrun? visit.after) = overrun at step
      cases step with
      | goesOn same' within' =>
          rw [Option.none_or]
          exact ih same' within'
      | ends same' =>
          dsimp only [Option.none_or, List.findSome?_nil, Option.map_some]
          rw [same']
      | exhausted stopped =>
          rw [Option.some_or]
          dsimp only [Option.map_some]
          rw [stopped]

end Setting.Bounds

end PatternMachine
