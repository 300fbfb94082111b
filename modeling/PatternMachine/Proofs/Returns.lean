import PatternMachine.Proofs.Leaving
import PatternMachine.Proofs.Subcalls

/-!
# Returns

There is no stack of calls.  A return looks down the backtrack stack for a call that is not
answered, and counts the answers that it passes.  To look for that call is to read the calls and
answers upwards, as opening and closing parentheses, and to take the innermost one that is open
(`Stack.returnAddress?_eq`).  On the way from the start of a run to where it has come the calls and
returns are the same parentheses (`Search.pending_eq`), whatever was tried besides.
-/

namespace PatternMachine

/-! ### Calls on a stack -/

/-- What a frame makes of the return addresses of the calls below it that are not answered. -/
def Frame.pending (below : List Nat) : Frame → List Nat
  | .call returnAddress => returnAddress :: below
  | .returned => below.tail
  | _ => below

namespace Stack

variable (stack : Stack)

/-- The return addresses of the calls that are not answered, the latest call first. -/
def pending : List Nat :=
  stack.frames.foldl Frame.pending []

@[simp] theorem pending_push (frame : Frame) :
    (stack.push frame).pending = frame.pending stack.pending :=
  Array.foldl_push

/-- To look for a call when some answers have been passed is to leave out as many calls. -/
theorem seek_visitCall (answered : Nat) :
    stack.seek visitCall answered = stack.pending[answered]? := by
  induction stack using push_induction generalizing answered with
  | empty => rfl
  | push stack frame ih =>
      rw [seek_push, pending_push]
      cases frame with
      | call returnAddress =>
          cases answered with
          | zero => rfl
          | succ answered => exact ih answered
      | returned => exact (ih (answered + 1)).trans List.getElem?_tail.symm
      | _ => exact ih answered

theorem returnAddress?_eq : stack.returnAddress? = stack.pending.head? :=
  (stack.seek_visitCall 0).trans List.head?_eq_getElem?.symm

theorem pending_setEntryCount (index count : Nat) :
    (stack.setEntryCount index count).pending = stack.pending := by
  induction stack using push_induction with
  | empty => rfl
  | push stack frame ih =>
      rw [setEntryCount_push]
      split
      · rw [pending_push, pending_push]
        cases frame <;> rfl
      · rw [pending_push, pending_push, ih]

/-- The end of a bracket gives up no call. -/
theorem pending_commit {mark : Mark} (noCall : mark ≠ .call) :
    (stack.commit mark).2.pending = stack.pending := by
  induction stack using push_induction with
  | empty => rfl
  | push stack frame ih =>
      rw [commit_push]
      by_cases isMark : frame.isMark mark = true
      · rw [if_pos isMark, pending_push, pending_push]
        cases frame with
        | call returnAddress =>
            exact absurd (Option.some.inj (eq_of_beq isMark)).symm noCall
        | returned => cases isMark
        | _ => rfl
      · rw [if_neg isMark]
        dsimp only
        rw [pending_push, pending_push, ih]
        cases frame <;> rfl

end Stack

/-! ### Calls on a route -/

namespace Search

/-- The calls on a route that no return on it has answered, the latest one first. -/
def pendingCalls (program : Program) : List Search → List Search
  | [] => []
  | latest :: earlier =>
      match program.code[latest.point.address]? with
      | some (.call _) => latest :: pendingCalls program earlier
      | some .callReturn => (pendingCalls program earlier).tail
      | _ => pendingCalls program earlier

variable {setting : Setting} {search : Search} {point : Point} {left : Store}

theorem Leaves.pending_of_call (leaves : search.Leaves setting point left) {target : Nat}
    (isCall : setting.program.code[search.point.address]? = some (.call target)) :
    left.stack.pending = search.point.next :: search.store.stack.pending := by
  have stored : left = search.store.push (.call search.point.next) := by
    refine leaves.store_eq isCall (.push (.call search.point.next)) ?_ ?_
    · simp only [Plan.ofInstruction, Plan.call]
      split
      · exact .inr ⟨_, _, rfl⟩
      · exact .inl ⟨_, rfl⟩
    · rintro frame ⟨⟩
      rfl
  rw [stored]
  exact search.store.stack.pending_push _

theorem Leaves.pending_of_return (leaves : search.Leaves setting point left)
    (isReturn : setting.program.code[search.point.address]? = some .callReturn) :
    left.stack.pending = search.store.stack.pending.tail := by
  have stored : left = search.store.push .returned := by
    refine leaves.store_eq isReturn (.push .returned) ?_ ?_
    · simp only [Plan.ofInstruction, Plan.callReturn]
      split
      · exact .inr ⟨_, _, rfl⟩
      · exact .inl ⟨_, rfl⟩
    · rintro frame ⟨⟩
      rfl
  rw [stored]
  exact search.store.stack.pending_push _

/-- Only calls and returns change which calls are not answered. -/
theorem Leaves.pending_of_other (leaves : search.Leaves setting point left)
    (discards : ∀ visit ∈ Move.trail setting search (setting.moves search.point search.store),
      visit.DiscardsChoice)
    (noCall : ∀ target, setting.program.code[search.point.address]? ≠ some (.call target))
    (noReturn : setting.program.code[search.point.address]? ≠ some .callReturn) :
    left.stack.pending = search.store.stack.pending := by
  refine @Leaves.stack_invariant setting search point left
    (fun stack => stack.pending = search.store.stack.pending) leaves discards rfl ?counted ?push
    ?commit fun stack point kept => ?lower
  case counted =>
    intro stack index count kept
    rw [stack.pending_setEntryCount, kept]
  case push =>
    intro effect mem store frame pushes stack kept
    rw [stack.pending_push, kept]
    obtain ⟨instruction, fetched, causes | ⟨point', rfl⟩⟩ :=
      Attempt.exists_causes_of_mem_moves mem
    · cases causes with
      | call => exact absurd fetched (noCall _)
      | returned => exact absurd fetched noReturn
      | _ => cases pushes <;> rfl
    · cases pushes
      rfl
  case commit =>
    intro mark mem stack kept
    rw [stack.pending_commit (Attempt.regular_of_mem_moves mem), kept]
  case lower =>
    rw [stack.pending_push] at kept
    exact kept

/-- In a run that throws away nothing but choices, the calls on the stack that are not answered are
those on the route. -/
theorem pending_eq {store : Store} {dispatches : Nat}
    (reaches : (start setting store).advance setting dispatches = .ok search)
    (discards : ∀ visit ∈ trail setting dispatches (start setting store), visit.DiscardsChoice) :
    search.store.stack.pending =
      (pendingCalls setting.program (route setting dispatches [] (start setting store))).map
        fun call => call.point.next := by
  refine @route_invariant setting search store dispatches (fun path state =>
    state.store.stack.pending =
      (pendingCalls setting.program path).map fun call => call.point.next) reaches discards rfl ?_
  intro next latest earlier _ discards follows kept
  obtain ⟨left, leaves, stack, _⟩ := follows.exists_left
  rw [stack, pendingCalls]
  split
  · next target isCall => rw [leaves.pending_of_call isCall, kept, List.map_cons]
  · next isReturn => rw [leaves.pending_of_return isReturn, kept, List.map_tail]
  · next noCall noReturn => rw [leaves.pending_of_other discards noCall noReturn, kept]

/-- A return goes on behind the innermost call on the route that no return on it has answered, and
without such a call it is reported as corrupt.  What was tried and given up does not count, in
particular no return that a choice of the code that was called has been resumed behind; and no
bracket that has ended hides a call.  This holds for runs that throw away nothing but choices,
without a limit on the stack, unless the caller's hook stops the run before the return. -/
theorem returns_answer_innermost_call {store : Store} {dispatches : Nat}
    (reaches : (start setting store).advance setting dispatches = .ok search)
    (discards : ∀ visit ∈ trail setting dispatches (start setting store), visit.DiscardsChoice)
    (unlimited : setting.stackLimit = .unlimited)
    (isReturn : setting.program.code[search.point.address]? = some .callReturn) :
    (∃ ending, search.work setting = .error ending ∧ search.step setting = .error ending) ∨
      (∀ call outer,
        pendingCalls setting.program (route setting dispatches [] (start setting store)) =
          call :: outer →
        ∃ next, search.step setting = .ok next ∧
          next.point = ⟨call.point.next, search.point.cursor⟩) ∧
      (pendingCalls setting.program (route setting dispatches [] (start setting store)) = [] →
        ∃ last, search.step setting = .error
          ⟨.stopped (.corrupt search.point.address (.missingMark Mark.call.name)), last⟩) := by
  have returns := search.store.stack.returnAddress?_eq
  rw [pending_eq reaches discards] at returns
  cases permitted : search.work setting with
  | error ending =>
      have stepped := step_of_fetched isReturn
      rw [permitted] at stepped
      exact .inl ⟨ending, rfl, stepped⟩
  | ok worked =>
      right
      obtain ⟨next, stepped, point, _⟩ := Move.step_of_unlimited unlimited permitted isReturn
      rw [Plan.ofInstruction, Plan.callReturn, returns] at stepped
      rw [stepped]
      constructor
      · intro call outer calls
        rw [calls]
        exact ⟨_, rfl, rfl⟩
      · intro none_open
        rw [none_open, ← point]
        exact ⟨next, rfl⟩

/-- A subexpression that has returned is resumed by way of a choice of its own, as nothing matched
behind it, and returns once more.  Then there is no call left, so one more return is reported. -/
theorem returns_answer_innermost_call_of_resumed_callee :
    let setting := plainSetting #[]
      #[.call 3, .byte 97, .callReturn, .push 3, .callReturn, .fail, .byte 98, .callReturn]
      #[98, 97]
    (after setting 2).point.address = 4 ∧ (after setting 5).point.address = 7 ∧
      pendingCalls setting.program (route setting 5 [] (outset setting)) = [outset setting] ∧
      (∃ next, (after setting 5).step setting = .ok next ∧ next.point = ⟨1, ⟨1, 0⟩⟩) ∧
      pendingCalls setting.program (route setting 7 [] (outset setting)) = [] ∧
      ∃ last, (after setting 7).step setting = .error
        ⟨.stopped (.corrupt 2 (.missingMark Mark.call.name)), last⟩ := by
  intro setting
  have free : setting.Free := ⟨rfl, fun _ => rfl⟩
  have once : pendingCalls setting.program (route setting 5 [] (outset setting)) =
      [outset setting] := by decide +kernel
  have never : pendingCalls setting.program (route setting 7 [] (outset setting)) = [] := by
    decide +kernel
  have reachesOnce : (outset setting).advance setting 5 = .ok (after setting 5) :=
    @advance_after setting 0 5 (by decide +kernel)
  have reachesNever : (outset setting).advance setting 7 = .ok (after setting 7) :=
    @advance_after setting 0 7 (by decide +kernel)
  refine ⟨by decide +kernel, by decide +kernel, once, ?resumed, never, ?reported⟩
  case resumed =>
    rcases returns_answer_innermost_call reachesOnce (by decide +kernel) rfl (by decide +kernel)
      with ⟨_, refused, _⟩ | ⟨returns, _⟩
    · rw [Move.work_of_free free] at refused
      cases refused
    · obtain ⟨next, stepped, point⟩ := returns _ _ once
      refine ⟨next, stepped, point.trans ?_⟩
      decide +kernel
  case reported =>
    rcases returns_answer_innermost_call reachesNever (by decide +kernel) rfl (by decide +kernel)
      with ⟨_, refused, _⟩ | ⟨_, reports⟩
    · rw [Move.work_of_free free] at refused
      cases refused
    · obtain ⟨last, stepped⟩ := reports never
      have atReturn : (after setting 7).point.address = 2 := by decide +kernel
      rw [atReturn] at stepped
      exact ⟨last, stepped⟩

end Search

end PatternMachine
