import PatternMachine.Proofs.Iterations
import PatternMachine.Proofs.Monitors

/-!
# Calls and the counts of repeats

A subexpression that is called leaves the repeats of its caller alone, unless it uses one of the
same id.  A register knows no levels of calls, so a call that enters the same repeat disturbs it.
-/

namespace PatternMachine

/-! ### Calls and their answers -/

/-- The index of the latest call that is not answered. -/
def Stack.openCall? (stack : Stack) : Option Nat :=
  stack.seek
    (fun frame (state : Nat × Nat) =>
      match visitCall frame state.1 with
      | .error _ => .error (state.2 - 1)
      | .ok answered => .ok (answered, state.2 - 1))
    (0, stack.depth)

theorem Stack.eq_call_of_visitCall {frame : Frame} {answered address : Nat}
    (visited : visitCall frame answered = .error address) : frame = .call address := by
  cases frame with
  | call returnAddress =>
      cases answered with
      | zero =>
          cases visited
          rfl
      | succ answered => cases visited
  | _ => cases visited

/-- A return goes back to the address that the call it answers has left. -/
theorem Stack.exists_call_of_openCall? {stack : Stack} {index : Nat}
    (found : stack.openCall? = some index) :
    ∃ address, stack.get? index = some (.call address) ∧ stack.returnAddress? = some address := by
  unfold openCall? at found
  unfold returnAddress?
  generalize (0 : Nat) = answered at found ⊢
  induction stack using push_induction generalizing answered with
  | empty => cases found
  | push stack frame ih =>
      rw [seek_push, depth_push] at found
      rw [seek_push]
      cases visited : visitCall frame answered with
      | error address =>
          simp only [visited, Nat.add_sub_cancel, Option.some.injEq] at found
          subst found
          refine ⟨address, ?_, rfl⟩
          rw [get?_depth_push, eq_call_of_visitCall visited]
      | ok answered' =>
          simp only [visited, Nat.add_sub_cancel] at found
          obtain ⟨address, read, returns⟩ := ih answered' found
          exact ⟨address, (stack.get?_push_of_lt frame (lt_depth_of_get? read)).trans read, returns⟩

namespace Search

variable {setting : Setting} {call entered last : Search} {dispatches : Nat}

/-- A call leaves its return address and changes nothing else. -/
theorem store_of_call {target : Nat}
    (isCall : setting.program.code[call.point.address]? = some (.call target))
    (enters : call.step setting = .ok entered) :
    entered.store = call.store.push (.call call.point.next) := by
  have sound := ne_corrupt_of_step isCall enters .addressOutOfRange
  have goes := @of_step_goto setting call entered _ isCall
  simp only [Plan.ofInstruction, Plan.call] at sound goes
  split at goes
  · exact (goes rfl enters).2
  · next outside => exact absurd (by rw [if_neg outside]; rfl) sound

/-- The address that a call has left stays on the stack as long as the run does not go back behind
the code that was called. -/
theorem get?_call_of_onPath (reaches : entered.advance setting dispatches = .ok last)
    (onPath : entered.OnPath setting dispatches) {index address : Nat}
    (read : entered.store.stack.get? index = some (.call address)) :
    last.store.stack.get? index = some (.call address) := by
  refine @store_invariant setting dispatches entered
    (fun store => store.stack.get? index = some (.call address)) last reaches read ?_
  intro visit mem before
  have inside := Nat.lt_of_lt_of_le (Stack.lt_depth_of_get? read) (onPath visit mem)
  rw [store_of_mem_trail mem] at inside
  obtain ⟨later, readLater, becomes⟩ :=
    Move.exists_get?_onStore (regular_of_mem_trail mem) before inside
  rw [readLater, becomes.eq_of_call]

/-- Whether a dispatch does a unit of work and then carries out a plan. -/
def CarriesOut (setting : Setting) (search : Search) (plan : Plan) : Prop :=
  search.step setting = (search.work setting).bind fun worked =>
    (worked.note setting (.dispatched search.point search.store.depth)).carryOut setting plan

/-- A call of a subexpression, the return that answers it, and a later dispatch, in a run that does
not go back behind the code that was called. -/
structure Subcall (setting : Setting) (call entered returning next : Search) (inner outer : Nat) :
    Prop where
  isCall : ∃ target, setting.program.code[call.point.address]? = some (.call target)
  enters : call.step setting = .ok entered
  comesBack : entered.advance setting inner = .ok returning
  isReturn : setting.program.code[returning.point.address]? = some .callReturn
  answers : returning.store.stack.openCall? = some call.store.depth
  goesOn : returning.advance setting outer = .ok next
  onPath : entered.OnPath setting (inner + outer)

namespace Subcall

variable {returning next : Search} {inner outer : Nat}

theorem store_entered (subcall : Subcall setting call entered returning next inner outer) :
    entered.store = call.store.push (.call call.point.next) := by
  obtain ⟨target, isCall⟩ := subcall.isCall
  exact store_of_call isCall subcall.enters

/-- A return goes on behind the call that it answers. -/
theorem carriesOut_returning (subcall : Subcall setting call entered returning next inner outer) :
    returning.CarriesOut setting
      (.goto call.point.next returning.point.cursor [.push .returned]) := by
  have left : entered.store.stack.get? call.store.depth = some (.call call.point.next) := by
    rw [subcall.store_entered]
    exact call.store.stack.get?_depth_push _
  have onPath : entered.OnPath setting inner := by
    intro visit mem
    refine subcall.onPath visit ?_
    rw [trail_add subcall.comesBack]
    exact List.mem_append_left _ mem
  obtain ⟨address, read, returns⟩ := Stack.exists_call_of_openCall? subcall.answers
  rw [get?_call_of_onPath subcall.comesBack onPath left] at read
  cases read
  rw [CarriesOut, step_of_fetched subcall.isReturn, Plan.ofInstruction, Plan.callReturn, returns]

/-- A repeat continues as at the call, if nothing on the path enters or counts it. -/
theorem progress?_next (subcall : Subcall setting call entered returning next inner outer)
    (anchored : call.store.Anchored setting.program) {id : Nat} {direct : Bool}
    (spares : Spares setting id direct (inner + outer) entered next) {progress : Nat × Nat}
    (continues : call.store.progress? id direct = some progress) :
    next.store.progress? id direct = some progress := by
  refine spares.progress?_eq ?_ ?_
  · rw [subcall.store_entered]
    exact anchored.push rfl
  · rw [subcall.store_entered]
    exact Store.progress?_push continues _

end Subcall

/-- When a repeat is active while a subexpression is called, and nothing on the path uses a repeat
of the same id until the caller's next iteration ends, the return leads behind the call and the
repeat continues from what it had counted at the call: it leads back to its body only below `upper`,
and on only from `lower`.  So it counts how often its body is executed on the path, which is never
more often than `upper`.  What was tried meanwhile and given up does not matter, nor do other
repeats.  This holds in runs that throw away nothing but choices, and for the direct forms as long
as the repeat is not started elsewhere in vain. -/
theorem repeats_count_on_across_calls {store : Store} {inner outer : Nat}
    {call entered returning next : Search} (comes : (start setting store).Comes setting call)
    (subcall : Subcall setting call entered returning next inner outer)
    {id : Nat} (active : (call.store.active id).isSome) {greedy direct : Bool}
    (spares : Spares setting id direct (inner + outer) entered next)
    (ends : setting.program.code[next.point.address]? = some (.repeatNext id greedy direct)) :
    returning.CarriesOut setting
        (.goto call.point.next returning.point.cursor [.push .returned]) ∧
      ∃ count body range plan, call.store.progress? id direct = some (count, body) ∧
        next.store.progress? id direct = some (count, body) ∧
        setting.program.repeatRanges[id]? = some range ∧ next.CarriesOut setting plan ∧
        (∀ target, target ∈ plan.targets ↔
          target = ⟨body, next.point.cursor⟩ ∧ nextIteration count < range.upper ∨
          target = ⟨next.point.next, next.point.cursor⟩ ∧
            (range.lower ≤ nextIteration count ∨ range.upper ≤ nextIteration count)) ∧
        ∀ loop iterations, Iterates setting (start setting store) id direct loop iterations call →
          loop = body ∧ (0 < range.upper → range.upper ≤ maxIterations →
            nextIteration count = iterations + 1 ∧ iterations + 1 ≤ range.upper) := by
  refine ⟨subcall.carriesOut_returning, ?_⟩
  obtain ⟨entry, active⟩ := Option.isSome_iff_exists.1 active
  have grounded : (start setting store).store.Anchored setting.program := .reset store
  have anchored := comes.anchored grounded
  obtain ⟨count, body, continues⟩ := anchored.exists_progress? active direct
  have ranged := Array.getElem?_eq_getElem
    (anchored.frames.known id entry (anchored.active id entry active))
  have continuesNext := subcall.progress?_next anchored spares continues
  obtain ⟨record, counts, plan⟩ :=
    Plan.repeatNext_of_progress? continuesNext ranged next.point greedy
  refine ⟨count, body, _, _, continues, continuesNext, ranged, step_of_fetched ends, ?_, ?_⟩
  · intro target
    rw [Plan.ofInstruction, plan]
    exact Plan.mem_targets_afterIteration (Store.choice?_counting counts)
  · intro loop iterations iterates
    have known : id < (start setting store).store.registers.repeats.size := by
      rw [← comes.size_repeats]
      exact Store.lt_size_of_active active
    have counted := iterates.progress?_eq grounded known ranged
    rw [continues] at counted
    cases counted
    refine ⟨rfl, fun some_allowed counting => ?_⟩
    have fewer := iterates.lt_upper grounded known ranged some_allowed counting
    rw [nextIteration_min]
    omega

/-! ### Runs of repeats and calls -/

/-- The setting of a run on the whole of a text, without limits, for code that needs no tables but
those of its repeats. -/
def plainSetting (ranges : Array RepeatRange) (code : Array Instruction) (bytes : Array UInt8) :
    Setting :=
  let program : Program :=
    { code, templates := #[], classes := #[], repeatRanges := ranges, groupCount := 0
      emptyCheckCount := 0, loggedStarts := .empty, loggedEnds := .empty, options := .none
      encoding := .utf8 }
  ⟨⟨program, .none, .whole ⟨bytes⟩⟩, .unlimited, .patient⟩

/-- The state in which a run starts. -/
def outset (setting : Setting) : Search :=
  start setting (.blank setting.program.regionSize setting.program.repeatRanges.size)

/-- The state that a run has come to after a number of dispatches. -/
def after (setting : Setting) (dispatches : Nat) : Search :=
  reached ((outset setting).advance setting dispatches)

/-- Where a run that goes on has come to goes on to where it comes later. -/
theorem advance_after {few more : Nat}
    (goesOn : ((outset setting).advance setting (few + more)).isOk = true) :
    (after setting few).advance setting more = .ok (after setting (few + more)) := by
  rw [after, after]
  rw [advance_add] at goesOn ⊢
  cases reachesMiddle : (outset setting).advance setting few with
  | ok middle =>
      rw [reachesMiddle] at goesOn
      dsimp only [Except.bind] at goesOn ⊢
      cases reachesLast : middle.advance setting more with
      | ok last => exact reachesLast
      | error ending =>
          rw [reachesLast] at goesOn
          cases goesOn
  | error ending =>
      rw [reachesMiddle] at goesOn
      cases goesOn

/-- A run that goes on after some dispatches has gone on after fewer. -/
theorem isOk_of_add {few more : Nat}
    (goesOn : ((outset setting).advance setting (few + more)).isOk = true) :
    ((outset setting).advance setting few).isOk = true := by
  rw [advance_add] at goesOn
  cases reaches : (outset setting).advance setting few with
  | ok middle => rfl
  | error ending =>
      rw [reaches] at goesOn
      cases goesOn

theorem step_after {dispatches : Nat}
    (goesOn : ((outset setting).advance setting (dispatches + 1)).isOk = true) :
    (after setting dispatches).step setting = .ok (after setting (dispatches + 1)) := by
  rw [← advance_after goesOn, advance]
  cases (after setting dispatches).step setting <;> rfl

/-- Calls and returns of a run that goes on are found by counting its dispatches. -/
theorem subcall_after {before inner outer target : Nat}
    (goesOn : ((outset setting).advance setting (before + 1 + inner + outer)).isOk = true)
    (isCall : setting.program.code[(after setting before).point.address]? = some (.call target))
    (isReturn : setting.program.code[(after setting (before + 1 + inner)).point.address]? =
      some .callReturn)
    (answers : (after setting (before + 1 + inner)).store.stack.openCall? =
      some (after setting before).store.depth)
    (onPath : (after setting (before + 1)).OnPath setting (inner + outer)) :
    Subcall setting (after setting before) (after setting (before + 1))
      (after setting (before + 1 + inner)) (after setting (before + 1 + inner + outer)) inner
      outer where
  isCall := ⟨target, isCall⟩
  enters := step_after (isOk_of_add (isOk_of_add goesOn))
  comesBack := advance_after (isOk_of_add goesOn)
  isReturn := isReturn
  answers := answers
  goesOn := advance_after goesOn
  onPath := onPath

/-- The search goes back into a call that it has already left and after which the repeat has
counted; the repeat counts on from what it had at the call. -/
theorem repeats_count_on_across_reentered_call :
    let setting := plainSetting #[⟨2, 2⟩, ⟨1, 2⟩]
      #[.repeatStart 0 3 true, .call 5, .repeatNext 0 true false, .byte 98, .accept,
        .repeatStart 1 3 true, .byte 97, .repeatNext 1 true true, .callReturn] #[97, 97, 98]
    Subcall setting (after setting 1) (after setting 2) (after setting 12) (after setting 13) 10 1 ∧
      Spares setting 0 false 11 (after setting 2) (after setting 13) ∧
      Iterates setting (outset setting) 0 false 1 0 (after setting 1) ∧
      (after setting 9).store.progress? 0 false = some (1, 1) ∧
      (after setting 13).store.progress? 0 false = some (0, 1) := by
  intro setting
  have goesOn : ((outset setting).advance setting 13).isOk = true := by decide +kernel
  have subcall : Subcall setting (after setting 1) (after setting 2) (after setting 12)
      (after setting 13) 10 1 :=
    @subcall_after setting 1 10 1 5 goesOn (by decide +kernel) (by decide +kernel)
      (by decide +kernel) (by decide +kernel)
  have spares : Spares setting 0 false 11 (after setting 2) (after setting 13) := by
    refine ⟨⟨@advance_after setting 2 11 goesOn, subcall.onPath, ?_, Bool.noConfusion⟩, ?_⟩
    · decide +kernel
    · decide +kernel
  have first : (outset setting).step setting = .ok (after setting 1) :=
    @step_after setting 0 (@isOk_of_add setting 1 12 goesOn)
  have isStart : setting.program.code[(outset setting).point.address]? =
      some (.repeatStart 0 3 true) := by decide +kernel
  have isRepeat : setting.program.repeatAt? (outset setting).point.address = some 0 := by
    decide +kernel
  have comes : (outset setting).Comes setting (after setting 1) := .of_repeat isRepeat first
  have atBody : (after setting 1).point.address = (outset setting).point.next := by decide +kernel
  have iterates : Iterates setting (outset setting) 0 false 1 0 (after setting 1) :=
    .start (.refl _) isStart first .atOnce atBody (.refl _)
  have atCall : (after setting 1).store.progress? 0 false = some (0, 1) := by decide +kernel
  have active : ((after setting 1).store.active 0).isSome = true := by decide +kernel
  have ends : setting.program.code[(after setting 13).point.address]? =
      some (.repeatNext 0 true false) := by decide +kernel
  obtain ⟨_, count, body, range, plan, continues, continuesNext, _⟩ :=
    repeats_count_on_across_calls comes subcall active spares ends
  rw [atCall] at continues
  cases continues
  exact ⟨subcall, spares, iterates, by decide +kernel, continuesNext⟩

/-- What calls do to repeats otherwise.  A call that enters the repeat of its caller leaves it
active: the caller counts on from where the call has left off, and the match has two characters
instead of four.  A direct repeat goes on with the body of the start that was tried last, even if
that was elsewhere and in vain.  A count is not gone back on once the frame that saves it was thrown
away.  And a body with a call is executed once even if its range allows no iteration. -/
theorem calls_disturb_repeats :
    (let setting := plainSetting #[⟨2, 2⟩]
      #[.repeatStart 0 3 true, .call 4, .repeatNext 0 true false, .accept,
        .repeatStart 0 3 true, .byte 97, .repeatNext 0 true false, .callReturn] #[97, 97, 97, 97]
    Subcall setting (after setting 1) (after setting 2) (after setting 7) (after setting 8) 5 1 ∧
      (∀ visit ∈ trail setting 8 (outset setting), visit.DiscardsChoice) ∧
      ((dispatched setting 6 (after setting 2)).map fun state =>
        setting.program.code[state.point.address]?) =
        [some (.repeatStart 0 3 true), some (.byte 97), some (.repeatNext 0 true false),
          some (.byte 97), some (.repeatNext 0 true false), some .callReturn] ∧
      setting.program.code[(after setting 8).point.address]? = some (.repeatNext 0 true false) ∧
      (after setting 1).store.progress? 0 false = some (0, 1) ∧
      (after setting 8).store.progress? 0 false = some (2, 5) ∧
      (run? setting 10 (outset setting)).map (fun ending => ending.outcome) =
        some (.matched ⟨#[some 0], #[some 2]⟩)) ∧
    (let setting := plainSetting #[⟨2, 2⟩]
      #[.repeatStart 0 3 true, .call 4, .repeatNext 0 true true, .accept,
        .push 3, .repeatStart 0 1 true, .fail, .callReturn] #[]
    Subcall setting (after setting 1) (after setting 2) (after setting 5) (after setting 6) 3 1 ∧
      (∀ visit ∈ trail setting 6 (outset setting), visit.DiscardsChoice) ∧
      (∀ state ∈ path setting 4 (after setting 2),
        setting.program.repeatAt? state.point.address ≠ some 0) ∧
      setting.program.code[(after setting 6).point.address]? = some (.repeatNext 0 true true) ∧
      (after setting 1).store.progress? 0 true = some (0, 1) ∧
      (after setting 6).store.progress? 0 true = some (0, 6) ∧
      (run? setting 9 (outset setting)).map (fun ending => ending.outcome) = some .unmatched) ∧
    (let setting := plainSetting #[⟨1, 1⟩]
      #[.repeatStart 0 5 true, .call 6, .repeatNext 0 true false, .pop, .fail, .accept,
        .push 2, .callReturn, .callReturn] #[97]
    Subcall setting (after setting 1) (after setting 2) (after setting 7) (after setting 8) 5 1 ∧
      (∀ state ∈ path setting 6 (after setting 2),
        setting.program.repeatAt? state.point.address ≠ some 0) ∧
      setting.program.code[(after setting 8).point.address]? = some (.repeatNext 0 true false) ∧
      (after setting 1).store.progress? 0 false = some (0, 1) ∧
      (after setting 8).store.progress? 0 false = some (1, 1)) ∧
    (let setting := plainSetting #[⟨0, 0⟩]
      #[.repeatStart 0 3 true, .call 4, .repeatNext 0 true false, .accept,
        .byte 97, .callReturn] #[97]
    Subcall setting (after setting 1) (after setting 2) (after setting 3) (after setting 4) 1 1 ∧
      Iterates setting (outset setting) 0 false 1 0 (after setting 4) ∧
      (run? setting 6 (outset setting)).map (fun ending => ending.outcome) =
        some (.matched ⟨#[some 0], #[some 1]⟩)) := by
  refine ⟨?same, ?elsewhere, ?discarded, ?empty⟩
  case same =>
    intro setting
    exact ⟨@subcall_after setting 1 5 1 4 (by decide +kernel) (by decide +kernel)
      (by decide +kernel) (by decide +kernel) (by decide +kernel), by decide +kernel⟩
  case elsewhere =>
    intro setting
    exact ⟨@subcall_after setting 1 3 1 4 (by decide +kernel) (by decide +kernel)
      (by decide +kernel) (by decide +kernel) (by decide +kernel), by decide +kernel⟩
  case discarded =>
    intro setting
    exact ⟨@subcall_after setting 1 5 1 6 (by decide +kernel) (by decide +kernel)
      (by decide +kernel) (by decide +kernel) (by decide +kernel), by decide +kernel⟩
  case empty =>
    intro setting
    have goesOn : ((outset setting).advance setting 4).isOk = true := by decide +kernel
    have subcall : Subcall setting (after setting 1) (after setting 2) (after setting 3)
        (after setting 4) 1 1 :=
      @subcall_after setting 1 1 1 4 goesOn (by decide +kernel) (by decide +kernel)
        (by decide +kernel) (by decide +kernel)
    have isStart : setting.program.code[(outset setting).point.address]? =
        some (.repeatStart 0 3 true) := by decide +kernel
    have first : (outset setting).step setting = .ok (after setting 1) :=
      @step_after setting 0 (@isOk_of_add setting 1 3 goesOn)
    have atBody : (after setting 1).point.address = (outset setting).point.next := by
      decide +kernel
    have spares : Spares setting 0 false 3 (after setting 1) (after setting 4) := by
      refine ⟨⟨@advance_after setting 1 3 goesOn, ?_, ?_, Bool.noConfusion⟩, ?_⟩
      · decide +kernel
      · decide +kernel
      · decide +kernel
    exact ⟨subcall, .start (.refl _) isStart first .atOnce atBody spares, by decide +kernel⟩

end Search

end PatternMachine
