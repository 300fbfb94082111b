import PatternMachine.Proofs.Halting
import PatternMachine.Proofs.Labels

/-!
# Checked loops end

A loop may iterate without consuming anything, and would then go on for ever.  A checked loop is left
instead of iterated once more from where its latest iteration has started.  In a program that goes
back by such loops alone, every run ends (`Engine.checked_loops_end`).

With each iteration of a loop less is left of a search: either something was consumed, or the check
of the loop has started its latest iteration elsewhere and starts the next one here
(`Program.LoopsOnlyBy.endsAt_iterate`).  Everything else leads onward in the code.
-/

namespace PatternMachine

/-! ### Loops -/

/-- A loop whose iterations are checked.  At its top it leaves a choice to go on behind itself and
starts an iteration; its body follows; at its close it ends the iteration, and the way back comes
next. -/
structure CheckedLoop where
  id : Nat
  top : Nat
  close : Nat

namespace CheckedLoop

/-- Where the loop goes back to its top. -/
def wayBack (loop : CheckedLoop) : Nat :=
  loop.close + 1

/-- Where the search goes on behind the loop. -/
def exit (loop : CheckedLoop) : Nat :=
  loop.close + 2

/-- Whether a loop stands in a program. -/
structure StandsIn (program : Program) (loop : CheckedLoop) : Prop where
  order : loop.top + 2 ≤ loop.close
  leaves : program.code[loop.top]? = some (.push ((loop.exit : Int) - loop.top))
  starts : program.code[loop.top + 1]? = some (.emptyCheckStart loop.id)
  ends : program.code[loop.close]? = some (.emptyCheckEnd loop.id none)
  goesBack : program.code[loop.wayBack]? = some (.jump ((loop.top : Int) - loop.wayBack))

end CheckedLoop

/-- Where the instruction at an address may branch to besides going on behind itself, if it does. -/
def Program.branch? (program : Program) (address : Nat) : Option Nat :=
  program.code[address]?.bind fun instruction =>
    instruction.offset?.bind fun offset => program.target? address offset

/-- Whether a program goes back by some checked loops alone: each other branch leads onward in the
code, no branch leads to the way back of a loop, and no instruction goes back in the text, gives up
or takes off frames, calls anything or counts iterations.  The bodies of the loops may be any code,
other loops among it, and loops may share a check. -/
structure Program.LoopsOnlyBy (program : Program) (loops : List CheckedLoop) : Prop where
  stand : ∀ loop ∈ loops, loop.StandsIn program
  onward : ∀ instruction ∈ program.code, instruction.isOnward = true
  forward : ∀ address < program.code.size, ∀ target ∈ program.branch? address,
    address < target ∨ ∃ loop ∈ loops, address = loop.wayBack
  avoids : ∀ address < program.code.size, ∀ target ∈ program.branch? address,
    ∀ loop ∈ loops, target ≠ loop.wayBack

namespace Program.LoopsOnlyBy

/-- Whether an address is further on than another one and no way back. -/
def Ahead (loops : List CheckedLoop) (address later : Nat) : Prop :=
  address < later ∧ ∀ loop ∈ loops, later ≠ loop.wayBack

variable {program : Program} {loops : List CheckedLoop}

theorem isOnward (shape : program.LoopsOnlyBy loops) {address : Nat} {instruction : Instruction}
    (fetched : program.code[address]? = some instruction) : instruction.isOnward = true :=
  shape.onward instruction (Array.mem_of_getElem? fetched)

/-- Only the end of an iteration comes before a way back. -/
theorem ahead_next (shape : program.LoopsOnlyBy loops) {address : Nat} {instruction : Instruction}
    (fetched : program.code[address]? = some instruction)
    (noEnd : ∀ loop ∈ loops, instruction ≠ .emptyCheckEnd loop.id none) :
    Ahead loops address (address + 1) := by
  refine ⟨Nat.lt_succ_self address, fun loop mem same => ?_⟩
  have atClose : address = loop.close := Nat.succ.inj same
  rw [atClose, (shape.stand loop mem).ends] at fetched
  exact noEnd loop mem (Option.some.inj fetched).symm

section

variable {attempt : Attempt} {point : Point} {store : Store}
  (shape : attempt.program.LoopsOnlyBy loops)

include shape

/-- The end of an iteration leads ahead, unless it comes to the way back of a loop. -/
theorem leadsInto_iterationEnd (id : Nat) {empty : Bool}
    (leaves : empty = false → ∀ loop ∈ loops, point.address ≠ loop.close) :
    (Plan.iterationEnd attempt point id empty).LeadsInto (Ahead loops point.address) := by
  refine Plan.leadsInto_iterationEnd ?_ ?_ id
  · intro nonempty
    exact ⟨Nat.lt_succ_self _, fun loop mem same =>
      leaves nonempty loop mem (Nat.succ.inj same)⟩
  · intro instruction isNext loopsBack
    have ahead : Ahead loops point.next (point.next + 1) := by
      refine shape.ahead_next isNext fun loop _ isEnd => ?_
      rw [isEnd] at loopsBack
      cases loopsBack
    exact ⟨Nat.lt_of_succ_lt ahead.1, ahead.2⟩

/-- Every instruction leads ahead or ends a candidate, but for ways back and the ends of iterations
that come to them. -/
theorem leadsInto_ofInstruction {instruction : Instruction}
    (fetched : attempt.program.code[point.address]? = some instruction)
    (noWayBack : ∀ loop ∈ loops, point.address ≠ loop.wayBack)
    (noEnd : ∀ id watched, instruction ≠ .emptyCheckEnd id watched) :
    (Plan.ofInstruction attempt point store instruction).LeadsInto (Ahead loops point.address) ∨
      instruction = .accept ∨ instruction = .finish := by
  have next : Ahead loops point.address point.next :=
    shape.ahead_next fetched fun loop _ => noEnd loop.id none
  have inside := (Array.getElem?_eq_some_iff.1 fetched).1
  have onward := shape.isOnward fetched
  have leads : attempt.Leads point store instruction (Ahead loops point.address) := by
    refine ⟨next, ?_, ?_⟩
    · intro offset target hasOffset isTarget
      have branches : attempt.program.branch? point.address = some target := by
        rw [Program.branch?, fetched, Option.bind_some, hasOffset]
        exact isTarget
      refine ⟨?_, shape.avoids _ inside _ branches⟩
      rcases shape.forward _ inside _ branches with forward | ⟨loop, mem, same⟩
      · exact forward
      · exact absurd same (noWayBack loop mem)
    · rintro id greedy direct count body rfl
      cases onward
  cases instruction with
  | accept => exact .inr (.inl rfl)
  | finish => exact .inr (.inr rfl)
  | emptyCheckStart id => exact .inl (Plan.leadsInto_emptyCheckStart next id)
  | emptyCheckEnd id watched => exact absurd rfl (noEnd id watched)
  | pop | call | callReturn => cases onward
  | _ => exact .inl (Plan.leadsInto_ofInstruction rfl leads)

/-- Every instruction leads ahead or ends a candidate, or it is the end of an iteration that was not
empty and comes to the way back of its loop. -/
theorem leads_or_comesToWayBack {instruction : Instruction}
    (fetched : attempt.program.code[point.address]? = some instruction)
    (noWayBack : ∀ loop ∈ loops, point.address ≠ loop.wayBack) :
    ((Plan.ofInstruction attempt point store instruction).LeadsInto (Ahead loops point.address) ∨
        instruction = .accept ∨ instruction = .finish) ∨
      ∃ loop ∈ loops, point.address = loop.close ∧ loop.id < attempt.program.emptyCheckCount ∧
        store.stack.latestStart? loop.id ≠ some point.cursor.position ∧
        Plan.ofInstruction attempt point store instruction =
          .goto loop.wayBack point.cursor := by
  by_cases isEnd : ∃ id watched, instruction = .emptyCheckEnd id watched
  · obtain ⟨id, watched, rfl⟩ := isEnd
    rcases Plan.emptyCheckEnd_eq attempt point store id watched with
      ⟨reason, corrupt⟩ | ⟨known, start, index, latest, plan⟩
    · rw [Plan.ofInstruction, corrupt]
      exact .inl (.inl (Plan.leadsInto_corrupt reason))
    rw [Plan.ofInstruction, plan]
    cases isEmpty : start == point.cursor.position &&
        watched.all (store.groupsUnchanged index) with
    | true => exact .inl (.inl (shape.leadsInto_iterationEnd id Bool.noConfusion))
    | false =>
        by_cases atClose : ∃ loop ∈ loops, point.address = loop.close
        · obtain ⟨loop, mem, atClose⟩ := atClose
          have same := (shape.stand loop mem).ends
          rw [← atClose, fetched] at same
          obtain ⟨rfl, rfl⟩ := Instruction.emptyCheckEnd.inj (Option.some.inj same)
          refine .inr ⟨loop, mem, atClose, known, ?_, ?_⟩
          · intro here
            rw [latest] at here
            rw [Option.some.inj here, Option.all_none, Bool.and_true, beq_self_eq_true] at isEmpty
            cases isEmpty
          · rw [CheckedLoop.wayBack, ← atClose]
            rfl
        · refine .inl (.inl (shape.leadsInto_iterationEnd id fun _ loop mem same => ?_))
          exact atClose ⟨loop, mem, same⟩
  · refine .inl (shape.leadsInto_ofInstruction fetched noWayBack fun id watched same => ?_)
    exact isEnd ⟨id, watched, same⟩

end

/-! ### Runs -/

/-- Whether every run ends that goes on with less left than at a point with a stack, though not at
the way back of a loop. -/
def EndsBelow (loops : List CheckedLoop) (setting : Setting) (point : Point) (stack : Stack) : Prop :=
  ∀ there later, setting.rank there later < setting.rank point stack →
    there.cursor.position ≤ setting.range → (∀ loop ∈ loops, there.address ≠ loop.wayBack) →
      setting.Drains later → setting.EndsAt there later

variable {setting : Setting} {point : Point} {stack : Stack}

/-- What lies ahead has less left, as long as the marks are kept. -/
theorem EndsBelow.ahead (below : EndsBelow loops setting point stack)
    (inside : point.address < setting.program.code.size) {there : Point} {later : Stack}
    (onward : there.Onward (Ahead loops point.address) point.cursor.position setting.range)
    (drains : setting.Drains later)
    (keeps : Stack.KeepsMarks point.cursor.position stack later) : setting.EndsAt there later :=
  below there later (Setting.rank_lt_of_onward inside onward onward.address.1 keeps)
    onward.cursor.2 onward.address.2 drains

section

variable (shape : setting.program.LoopsOnlyBy loops)

include shape

/-- From the way back of a loop every run ends if it ends in the body of the next iteration. -/
theorem endsAt_wayBack {loop : CheckedLoop} (mem : loop ∈ loops) {cursor : Cursor}
    (body : setting.EndsAt ⟨loop.top + 2, cursor⟩
      ((stack.push (.choice ⟨loop.exit, cursor⟩)).push (.emptyCheck loop.id cursor.position))) :
    setting.EndsAt ⟨loop.wayBack, cursor⟩ stack := by
  obtain ⟨_, leaves, starts, _, goesBack⟩ := shape.stand loop mem
  have atStart : setting.EndsAt ⟨loop.top + 1, cursor⟩
      (stack.push (.choice ⟨loop.exit, cursor⟩)) := by
    refine .of_goto starts [.push (.emptyCheck loop.id cursor.position)] ?_ ?_ body
    · intro store
      simp only [Plan.ofInstruction, Plan.emptyCheckStart]
      split
      · exact .inr rfl
      · exact .inl ⟨_, rfl⟩
    · intro store stacked
      rw [← stacked]
      rfl
  have atTop : setting.EndsAt ⟨loop.top, cursor⟩ stack := by
    refine .of_goto leaves [.push (.choice ⟨loop.exit, cursor⟩)] ?_ ?_ atStart
    · intro store
      rw [Plan.ofInstruction, Plan.branch_sub]
      split
      · exact .inr rfl
      · exact .inl ⟨_, rfl⟩
    · intro store stacked
      rw [← stacked]
      rfl
  refine .of_goto goesBack [] ?_ (fun _ stacked => stacked) atTop
  intro store
  rw [Plan.ofInstruction, Plan.branch_sub]
  split
  · exact .inr rfl
  · exact .inl ⟨_, rfl⟩

/-- The next iteration of a loop has less left, if the latest one has started elsewhere: its check
starts an iteration here. -/
theorem endsAt_iterate (within : point.cursor.position ≤ setting.range)
    (drains : setting.Drains stack) (below : EndsBelow loops setting point stack)
    {loop : CheckedLoop} (mem : loop ∈ loops)
    (atClose : point.address = loop.close) (known : loop.id < setting.program.emptyCheckCount)
    (elsewhere : stack.latestStart? loop.id ≠ some point.cursor.position) :
    setting.EndsAt ⟨loop.wayBack, point.cursor⟩ stack := by
  refine shape.endsAt_wayBack mem ?_
  obtain ⟨_, _, starts, ends, goesBack⟩ := shape.stand loop mem
  have exit : Ahead loops point.address loop.exit := by
    rw [atClose]
    exact ⟨Nat.lt_add_of_pos_right Nat.two_pos,
      (shape.ahead_next goesBack fun _ _ => Instruction.noConfusion).2⟩
  have inside : point.address < setting.program.code.size := by
    rw [atClose]
    exact (Array.getElem?_eq_some_iff.1 ends).1
  have leaves : setting.EndsAt ⟨loop.exit, point.cursor⟩ stack :=
    below.ahead inside ⟨exit, Nat.le_refl _, within⟩ drains (.refl _ _)
  refine below _ _ (Setting.rank_lt_of_marked rfl ?keeps known elsewhere ?marked) within
    (shape.ahead_next starts fun _ _ => Instruction.noConfusion).2
    ((drains.push ?resumes fun _ => rfl).push ?nothing fun _ => rfl)
  case keeps =>
    refine Stack.KeepsMarks.push (.push (.refl _ _) ?_) ?_
    · rintro id start ⟨⟩
    · intro id start started
      cases Frame.iteration?_eq_some_iff.1 started
      rfl
  case marked =>
    rw [Stack.latestStart?_push, Frame.iteration?_eq_some_iff.2 rfl]
    rfl
  case resumes =>
    rintro there ⟨⟩
    exact leaves
  case nothing => rintro there ⟨⟩

/-- Every run ends that goes on where all runs end that have less left. -/
theorem endsAt_of_endsBelow (within : point.cursor.position ≤ setting.range)
    (noWayBack : ∀ loop ∈ loops, point.address ≠ loop.wayBack) (drains : setting.Drains stack)
    (below : EndsBelow loops setting point stack) : setting.EndsAt point stack := by
  rintro search rfl rfl
  refine .of_step fun next stepped => ?_
  cases fetched : setting.program.code[search.point.address]? with
  | none =>
      rw [Search.step_eq_play, Attempt.moves, fetched] at stepped
      cases stepped
  | some instruction =>
      have inside := (Array.getElem?_eq_some_iff.1 fetched).1
      have onward := shape.isOnward fetched
      rcases shape.leads_or_comesToWayBack fetched noWayBack with
        leads | ⟨loop, mem, atClose, known, elsewhere, plan⟩
      · rw [Search.step_eq_play] at stepped
        exact (setting.course_moves within fetched onward leads).ends drains (.refl _ _)
          (fun _ _ => below.ahead inside) stepped
      · obtain ⟨point, stored⟩ := Search.of_step_goto fetched plan stepped
        exact shape.endsAt_iterate within drains below mem atClose known elsewhere next point
          (congrArg Store.stack stored)

/-- Every run ends from wherever a search may come to, by induction on what is left of it. -/
theorem endsAt (within : point.cursor.position ≤ setting.range)
    (noWayBack : ∀ loop ∈ loops, point.address ≠ loop.wayBack) (drains : setting.Drains stack) :
    setting.EndsAt point stack := by
  induction ranked : setting.rank point stack using WellFoundedLT.induction
    generalizing point stack with
  | ind rank ih =>
  subst ranked
  refine shape.endsAt_of_endsBelow within noWayBack drains ?_
  intro there later less within noWayBack drains
  exact ih _ less within noWayBack drains rfl

end

end Program.LoopsOnlyBy

/-- In a program that goes back by checked loops alone, every run ends: on every text and span, with
all options, and whatever the engine has run before.  It takes no limit for that, and no hook. -/
theorem Engine.checked_loops_end {loops : List CheckedLoop} (engine : Engine)
    (shape : engine.program.LoopsOnlyBy loops) (input : Input) (monitor : Monitor) :
    ∃ dispatches report after, engine.exec? dispatches input monitor = some (report, after) := by
  have atStart : ∀ loop ∈ loops, 0 ≠ loop.wayBack := fun loop _ => (Nat.succ_ne_zero _).symm
  have loopsOnly : (engine.setting input monitor).program.LoopsOnlyBy loops := shape
  obtain ⟨dispatches, ending, ran⟩ := loopsOnly.endsAt input.start_le_range atStart .empty
    (Search.start (engine.setting input monitor) engine.store) rfl rfl
  refine ⟨dispatches, ?_⟩
  simp only [exec?, ran]
  exact ⟨_, _, rfl⟩

/-- One star around another one, each of which may iterate without consuming anything. -/
def nestedStars : Program where
  code := #[.push 10, .emptyCheckStart 0, .push 6, .emptyCheckStart 1, .push 2, .byte 97,
    .emptyCheckEnd 1 none, .jump (-5), .emptyCheckEnd 0 none, .jump (-9), .accept]
  templates := #[]
  classes := #[]
  repeatRanges := #[]
  groupCount := 0
  emptyCheckCount := 2
  loggedStarts := .empty
  loggedEnds := .empty
  options := .none
  encoding := .utf8

/-- The nested stars end without limits on a text that is no UTF-8. -/
theorem Engine.checked_loops_end_when_nested :
    nestedStars.LoopsOnlyBy [⟨0, 0, 8⟩, ⟨1, 2, 6⟩] ∧
      ∃ dispatches report after, (withConfig nestedStars ⟨.unlimited, .none⟩).exec? dispatches
        (.whole ⟨#[97, 255, 97]⟩) .patient = some (report, after) := by
  have stand : ∀ loop ∈ [CheckedLoop.mk 0 0 8, ⟨1, 2, 6⟩], loop.StandsIn nestedStars := by
    intro loop mem
    rcases List.mem_cons.1 mem with rfl | mem
    · exact ⟨by decide, by decide, by decide, by decide, by decide⟩
    · obtain rfl := List.mem_singleton.1 mem
      exact ⟨by decide, by decide, by decide, by decide, by decide⟩
  have shape : nestedStars.LoopsOnlyBy [⟨0, 0, 8⟩, ⟨1, 2, 6⟩] :=
    ⟨stand, by decide, by decide, by decide⟩
  exact ⟨shape, checked_loops_end _ shape _ _⟩

end PatternMachine
