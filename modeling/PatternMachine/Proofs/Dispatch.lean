import PatternMachine.Proofs.Move

/-!
# What a dispatch is made of

Statements about all moves of a dispatch are proved from what the plan of its instruction says, and
from what a star does.  The theorems here take the moves of a dispatch apart for that purpose.
-/

namespace PatternMachine

/-- The moves of a star that leaves choices only at good cursors, and goes on only at one. -/
inductive Star.Makes (star : Star) (Good : Cursor → Prop) : Move → Prop
  | work : Makes star Good .work
  | fail : Makes star Good .fail
  | backtrack : Makes star Good .backtrack
  | choice {cursor : Cursor} (good : Good cursor) :
      Makes star Good (.perform (.push (star.choice cursor)))
  | goto {cursor : Cursor} (good : Good cursor) : Makes star Good (.goto ⟨star.next, cursor⟩)

/-- A byte is found where it stands. -/
theorem Text.byte_of_findByte? {text : Text} {byte : UInt8} {position stop found : Nat}
    (isFound : text.findByte? byte position stop = some found) : text.byte found = byte := by
  fun_induction text.findByte? byte position stop with
  | case1 position inside isByte =>
      cases isFound
      exact eq_of_beq isByte
  | case2 position _ _ ih => exact ih isFound
  | case3 => cases isFound

namespace Star

variable {star : Star} {text : Text} {move : Move} {Good : Cursor → Prop}

theorem Makes.of_mem_failing (mem : move ∈ Move.failing) : star.Makes Good move := by
  rcases List.mem_cons.1 mem with rfl | mem
  · exact .fail
  · obtain rfl := List.mem_singleton.1 mem
    exact .backtrack

/-- A star that takes one character after the other stays at good cursors if every step does. -/
theorem makes_of_mem_sweepMoves {range : Nat} {cursor : Cursor} (start : Good cursor)
    (steps : ∀ cursor, Good cursor → text.hasChar cursor.position range = true →
      Good (cursor.step (text.charLength cursor.position)))
    (mem : move ∈ star.sweepMoves text range cursor) : star.Makes Good move := by
  fun_induction Star.sweepMoves star text range cursor with
  | case1 cursor whole choices ih =>
      rcases List.mem_cons.1 mem with rfl | mem
      · exact .work
      rcases List.mem_append.1 mem with mem | mem
      · simp only [choices] at mem
        split at mem
        · obtain rfl := List.mem_singleton.1 mem
          exact .choice start
        · cases mem
      · split at mem
        · exact .of_mem_failing mem
        · exact ih (steps cursor start whole) mem
  | case2 cursor cut =>
      obtain rfl := List.mem_singleton.1 mem
      exact .goto start

/-- A star that goes from one byte to the next stays at good cursors if all before its end are. -/
theorem makes_of_mem_leapMoves {byte : UInt8} {origin : Cursor} {stop position : Nat}
    (reaches : ∀ hit, position ≤ hit → hit < stop → text.byte hit = byte →
      Good (text.cursorBehind origin hit))
    (ends : Good (text.cursorBehind origin stop))
    (mem : move ∈ star.leapMoves text byte origin stop position) : star.Makes Good move := by
  fun_induction Star.leapMoves star text byte origin stop position with
  | case1 position hit found ih =>
      obtain ⟨later, before⟩ := Text.findByte?_bounds found
      rcases List.mem_cons.1 mem with rfl | mem
      · exact .work
      rcases List.mem_cons.1 mem with rfl | mem
      · exact .choice (reaches hit later before (Text.byte_of_findByte? found))
      · apply ih _ mem
        intro other after
        exact reaches other (Nat.le_trans later (Nat.le_of_succ_le after))
  | case2 position none_found =>
      obtain rfl := List.mem_singleton.1 mem
      exact .goto ends

/-- The lists of moves that a star may make: it leaves choices, and goes on or fails. -/
inductive Sweeps (star : Star) : List Move → Prop
  | goto {cursor : Cursor} : Sweeps star [.goto ⟨star.next, cursor⟩]
  | failing : Sweeps star Move.failing
  | work {moves : List Move} (rest : Sweeps star moves) : Sweeps star (.work :: moves)
  | choice {cursor : Cursor} {moves : List Move} (rest : Sweeps star moves) :
      Sweeps star (.perform (.push (star.choice cursor)) :: moves)

theorem sweeps_sweepMoves (star : Star) (text : Text) (range : Nat) (cursor : Cursor) :
    star.Sweeps (star.sweepMoves text range cursor) := by
  fun_induction Star.sweepMoves star text range cursor with
  | case1 cursor whole choices ih =>
      have rest : star.Sweeps
          (if star.failsAt text cursor.position then Move.failing
            else star.sweepMoves text range (cursor.step (text.charLength cursor.position))) := by
        split
        · exact .failing
        · exact ih
      simp only [choices]
      split
      · exact .work (.choice rest)
      · exact .work rest
  | case2 cursor cut => exact .goto

theorem sweeps_leapMoves (star : Star) (text : Text) (byte : UInt8) (origin : Cursor)
    (stop position : Nat) : star.Sweeps (star.leapMoves text byte origin stop position) := by
  fun_induction Star.leapMoves star text byte origin stop position with
  | case1 position hit found ih => exact .work (.choice ih)
  | case2 position none_found => exact .goto

end Star

/-! ### Effects of instructions -/

/-- The effects that an instruction may have at a point of a search, with what it has checked before
it has them. -/
inductive Attempt.Causes (attempt : Attempt) (point : Point) (store : Store) :
    Instruction → Effect → Prop
  | report {instruction : Instruction} {event : Event} :
      Causes attempt point store instruction (.note event)
  | choice {instruction : Instruction} {target : Nat} :
      Causes attempt point store instruction (.push (.choice ⟨target, point.cursor⟩))
  | openGroup {group : Nat} (known : attempt.program.hasGroup group = true) :
      Causes attempt point store (.openGroup group true)
        (.openGroup group point.cursor.position)
  | closeGroup {group : Nat} (known : attempt.program.hasGroup group = true) :
      Causes attempt point store (.closeGroup group true)
        (.closeGroup group point.cursor.position)
  | startGroup {group : Nat} (known : attempt.program.hasGroup group = true) :
      Causes attempt point store (.openGroup group false)
        (.setGroup group
          { store.registers.boundsOf group with start := .direct point.cursor.position })
  | stopGroup {group : Nat} (known : attempt.program.hasGroup group = true) :
      Causes attempt point store (.closeGroup group false)
        (.setGroup group
          { store.registers.boundsOf group with stop := .direct point.cursor.position })
  | clearGroup {first stop group : Nat} (known : attempt.program.hasGroup group = true)
      (logged : (attempt.program.loggedStarts.contains group ||
        attempt.program.loggedEnds.contains group) = true) :
      Causes attempt point store (.clearGroups first stop) (.clearGroup group)
  | unsetGroup {first stop group : Nat} (known : attempt.program.hasGroup group = true)
      (direct : (attempt.program.loggedStarts.contains group ||
        attempt.program.loggedEnds.contains group) = false) :
      Causes attempt point store (.clearGroups first stop) (.setGroup group .unset)
  | emptyCheck {id : Nat} (known : id < attempt.program.emptyCheckCount) :
      Causes attempt point store (.emptyCheckStart id)
        (.push (.emptyCheck id point.cursor.position))
  | enterRepeat {id body : Nat} {offset : Int} {greedy : Bool}
      (known : id < attempt.program.repeatRanges.size) :
      Causes attempt point store (.repeatStart id offset greedy) (.enterRepeat id body)
  | countInEntry {id index : Nat} {greedy : Bool}
      (active : (store.registers.repeatOf id).entry = some index) :
      Causes attempt point store (.repeatNext id greedy false) (.countInEntry index)
  | countInRegister {id : Nat} {greedy : Bool} (known : id < attempt.program.repeatRanges.size) :
      Causes attempt point store (.repeatNext id greedy true) (.countInRegister id)
  | look : Causes attempt point store .lookStart (.push (.look point.cursor))
  | lookNot {offset : Int} {target : Nat} :
      Causes attempt point store (.lookNotStart offset)
        (.push (.lookNot ⟨target, point.cursor⟩))
  | behindNot {offset : Int} {length target : Nat} :
      Causes attempt point store (.lookBehindNotStart offset length)
        (.push (.behindNot ⟨target, point.cursor⟩))
  | atomic : Causes attempt point store .atomicStart (.push .atomic)
  | call {target : Nat} : Causes attempt point store (.call target) (.push (.call point.next))
  | returned : Causes attempt point store .callReturn (.push .returned)
  | discard : Causes attempt point store .pop .discard
  | lookEnd : Causes attempt point store .lookEnd (.commit .look)
  | atomicEnd : Causes attempt point store .atomicEnd (.commit .atomic)
  | lookNotFail : Causes attempt point store .lookNotFail (.unwindTo .lookNot)
  | behindNotFail : Causes attempt point store .lookBehindNotFail (.unwindTo .behindNot)

namespace Plan

variable {attempt : Attempt} {point : Point} {store : Store} {effect : Effect}

theorem of_mem_branch {offset : Int} {plan : Nat → Plan}
    (mem : effect ∈ (branch attempt point offset plan).effects) :
    ∃ target, effect ∈ (plan target).effects := by
  unfold branch at mem
  split at mem
  · exact ⟨_, mem⟩
  · cases mem

theorem effects_consumed (address : Nat) (cursor? : Option Cursor) :
    (consumed address cursor?).effects = [] := by
  cases cursor? <;> rfl

theorem effects_check (address : Nat) (cursor : Cursor) (holds : Bool) :
    (check address cursor holds).effects = [] := by
  cases holds <;> rfl

theorem effects_oneChar (accepts : Nat → Bool) :
    (oneChar attempt point accepts).effects = [] := by
  unfold oneChar
  dsimp only
  split
  · split <;> rfl
  · rfl

theorem effects_charClass (operand : ClassOperand) :
    (charClass attempt point operand).effects = [] := by
  unfold charClass
  dsimp only
  repeat' split
  all_goals rfl

theorem effects_anyChar (acrossLines : Bool) :
    (anyChar attempt point acrossLines).effects = [] := by
  unfold anyChar
  dsimp only
  split <;> rfl

theorem effects_anyCharStar (acrossLines : Bool) (peeked : Option UInt8) :
    (anyCharStar attempt point acrossLines peeked).effects = [] := by
  unfold anyCharStar
  dsimp only
  repeat' split
  all_goals rfl

theorem effects_backReference (reference : BackReference) :
    (backReference attempt point store reference).effects = [] := by
  unfold backReference
  split
  · exact effects_consumed _ _
  · rfl

/-- The effects after an iteration: it is counted, and a choice may be left. -/
theorem of_mem_afterIteration {range : RepeatRange} {count body : Nat} {greedy : Bool}
    {record : Effect}
    (mem : effect ∈ (afterIteration point range count body greedy record).effects) :
    effect = record ∨ ∃ target, effect = .push (.choice ⟨target, point.cursor⟩) := by
  unfold afterIteration at mem
  split at mem
  · exact .inl (List.mem_singleton.1 mem)
  split at mem
  · exact .inl (List.mem_singleton.1 mem)
  split at mem
  · rcases List.mem_cons.1 mem with rfl | mem
    · exact .inr ⟨_, rfl⟩
    · exact .inl (List.mem_singleton.1 mem)
  · rcases List.mem_cons.1 mem with rfl | mem
    · exact .inl rfl
    · exact .inr ⟨_, List.mem_singleton.1 mem⟩

end Plan

namespace Attempt

variable {attempt : Attempt} {point : Point} {store : Store} {move : Move} {effect : Effect}

theorem causes_clearGroups {first stop : Nat}
    (mem : effect ∈ (Plan.clearGroups attempt point first stop).effects) :
    attempt.Causes point store (.clearGroups first stop) effect := by
  unfold Plan.clearGroups at mem
  split at mem
  · cases mem
  · next inside =>
      obtain ⟨group, within, rfl⟩ := List.mem_map.1 mem
      obtain ⟨lower, upper⟩ := List.mem_range'_1.1 within
      have known : attempt.program.hasGroup group = true := by
        simp only [Program.hasGroup, Bool.and_eq_true, bne_iff_ne, decide_eq_true_eq]
        omega
      split
      · next logged => exact .clearGroup known logged
      · next direct => exact .unsetGroup known (Bool.eq_false_iff.2 direct)

theorem causes_repeatStart {id : Nat} {offset : Int} {greedy : Bool}
    (mem : effect ∈ (Plan.repeatStart attempt point id offset greedy).effects) :
    attempt.Causes point store (.repeatStart id offset greedy) effect := by
  unfold Plan.repeatStart at mem
  split at mem
  · cases mem
  · next range found =>
      have known : id < attempt.program.repeatRanges.size :=
        (Array.getElem?_eq_some_iff.1 found).1
      obtain ⟨target, mem⟩ := Plan.of_mem_branch mem
      dsimp only at mem
      split at mem
      · split at mem
        · rcases List.mem_cons.1 mem with rfl | mem
          · exact .enterRepeat known
          · obtain rfl := List.mem_singleton.1 mem
            exact .choice
        · rcases List.mem_cons.1 mem with rfl | mem
          · exact .enterRepeat known
          · obtain rfl := List.mem_singleton.1 mem
            exact .choice
      · obtain rfl := List.mem_singleton.1 mem
        exact .enterRepeat known

theorem causes_repeatNext {id : Nat} {greedy direct : Bool}
    (mem : effect ∈ (Plan.repeatNext attempt point store id greedy direct).effects) :
    attempt.Causes point store (.repeatNext id greedy direct) effect := by
  unfold Plan.repeatNext at mem
  split at mem
  · cases mem
  · next range found =>
      have known : id < attempt.program.repeatRanges.size :=
        (Array.getElem?_eq_some_iff.1 found).1
      dsimp only at mem
      split at mem
      · cases mem
      · next index active =>
          cases direct with
          | true =>
              rw [if_pos rfl] at mem
              rcases Plan.of_mem_afterIteration mem with rfl | ⟨target, rfl⟩
              · exact .countInRegister known
              · exact .choice
          | false =>
              rw [if_neg Bool.noConfusion] at mem
              split at mem
              · rcases Plan.of_mem_afterIteration mem with rfl | ⟨target, rfl⟩
                · exact .countInEntry active
                · exact .choice
              · cases mem

theorem causes_emptyCheckEnd {id : Nat} {watched : Option (List Nat)} {instruction : Instruction}
    (mem : effect ∈ (Plan.emptyCheckEnd attempt point store id watched).effects) :
    attempt.Causes point store instruction effect := by
  unfold Plan.emptyCheckEnd at mem
  split at mem
  · split at mem
    · cases mem
    · split at mem
      · dsimp only at mem
        split at mem
        · obtain rfl := List.mem_singleton.1 mem
          exact .report
        · obtain rfl := List.mem_singleton.1 mem
          exact .report
      · cases mem
  · cases mem

/-- The effects of an instruction's plan are those that the instruction may have. -/
theorem causes_of_mem_effects {instruction : Instruction}
    (mem : effect ∈ (Plan.ofInstruction attempt point store instruction).effects) :
    attempt.Causes point store instruction effect := by
  cases instruction with
  | accept | finish | fail => cases mem
  | byte value | bytes content | foldedChars codes =>
      have none : effect ∈ ([] : List Effect) := Plan.effects_consumed _ _ ▸ mem
      cases none
  | template index offset length =>
      simp only [Plan.ofInstruction] at mem
      split at mem
      · have none : effect ∈ ([] : List Effect) := Plan.effects_consumed _ _ ▸ mem
        cases none
      · cases mem
  | foldedChar code | word wanted =>
      have none : effect ∈ ([] : List Effect) := Plan.effects_oneChar _ ▸ mem
      cases none
  | charClass operand =>
      have none : effect ∈ ([] : List Effect) := Plan.effects_charClass operand ▸ mem
      cases none
  | anyChar acrossLines =>
      have none : effect ∈ ([] : List Effect) := Plan.effects_anyChar acrossLines ▸ mem
      cases none
  | anyCharStar acrossLines peeked =>
      have none : effect ∈ ([] : List Effect) := Plan.effects_anyCharStar acrossLines peeked ▸ mem
      cases none
  | assert assertion =>
      have none : effect ∈ ([] : List Effect) := Plan.effects_check _ _ _ ▸ mem
      cases none
  | backReference reference =>
      have none : effect ∈ ([] : List Effect) := Plan.effects_backReference reference ▸ mem
      cases none
  | openGroup group logged =>
      simp only [Plan.ofInstruction, Plan.openGroup] at mem
      split at mem
      · next known =>
          obtain rfl := List.mem_singleton.1 mem
          cases logged with
          | true => exact .openGroup known
          | false => exact .startGroup known
      · cases mem
  | closeGroup group logged =>
      simp only [Plan.ofInstruction, Plan.closeGroup] at mem
      split at mem
      · next known =>
          obtain rfl := List.mem_singleton.1 mem
          cases logged with
          | true => exact .closeGroup known
          | false => exact .stopGroup known
      · cases mem
  | clearGroups first stop => exact causes_clearGroups mem
  | emptyCheckStart id =>
      simp only [Plan.ofInstruction, Plan.emptyCheckStart] at mem
      split at mem
      · next known =>
          obtain rfl := List.mem_singleton.1 mem
          exact .emptyCheck known
      · cases mem
  | emptyCheckEnd id watched => exact causes_emptyCheckEnd mem
  | jump offset =>
      obtain ⟨target, mem⟩ := Plan.of_mem_branch mem
      cases mem
  | push offset =>
      obtain ⟨target, mem⟩ := Plan.of_mem_branch mem
      obtain rfl := List.mem_singleton.1 mem
      exact .choice
  | pop =>
      simp only [Plan.ofInstruction, Plan.pop] at mem
      split at mem
      · cases mem
      · obtain rfl := List.mem_singleton.1 mem
        exact .discard
  | pushOrJump offset next =>
      obtain ⟨target, mem⟩ := Plan.of_mem_branch mem
      split at mem
      · obtain rfl := List.mem_singleton.1 mem
        exact .choice
      · cases mem
  | pushIfNext offset next =>
      obtain ⟨target, mem⟩ := Plan.of_mem_branch mem
      simp only [Plan.goto] at mem
      split at mem
      · obtain rfl := List.mem_singleton.1 mem
        exact .choice
      · cases mem
  | repeatStart id offset greedy => exact causes_repeatStart mem
  | repeatNext id greedy direct => exact causes_repeatNext mem
  | lookStart =>
      obtain rfl := List.mem_singleton.1 mem
      exact .look
  | lookEnd =>
      simp only [Plan.ofInstruction, Plan.lookEnd] at mem
      split at mem
      · obtain rfl := List.mem_singleton.1 mem
        exact .lookEnd
      · cases mem
  | lookNotStart offset =>
      obtain ⟨target, mem⟩ := Plan.of_mem_branch mem
      obtain rfl := List.mem_singleton.1 mem
      exact .lookNot
  | lookNotFail =>
      simp only [Plan.ofInstruction, Plan.excluded] at mem
      split at mem
      · obtain rfl := List.mem_singleton.1 mem
        exact .lookNotFail
      · cases mem
  | lookBehindNotFail =>
      simp only [Plan.ofInstruction, Plan.excluded] at mem
      split at mem
      · obtain rfl := List.mem_singleton.1 mem
        exact .behindNotFail
      · cases mem
  | atomicStart =>
      obtain rfl := List.mem_singleton.1 mem
      exact .atomic
  | atomicEnd =>
      simp only [Plan.ofInstruction, Plan.atomicEnd] at mem
      split at mem
      · obtain rfl := List.mem_singleton.1 mem
        exact .atomicEnd
      · cases mem
  | lookBehind length =>
      simp only [Plan.ofInstruction, Plan.lookBehind] at mem
      split at mem <;> cases mem
  | lookBehindNotStart offset length =>
      obtain ⟨target, mem⟩ := Plan.of_mem_branch mem
      split at mem
      · obtain rfl := List.mem_singleton.1 mem
        exact .behindNot
      · cases mem
  | call target =>
      simp only [Plan.ofInstruction, Plan.call] at mem
      split at mem
      · obtain rfl := List.mem_singleton.1 mem
        exact .call
      · cases mem
  | callReturn =>
      simp only [Plan.ofInstruction, Plan.callReturn] at mem
      split at mem
      · obtain rfl := List.mem_singleton.1 mem
        exact .returned
      · cases mem

/-- The moves of a dispatch are a unit of work, a report, the effects of the instruction's plan and
the way the instruction is left. -/
theorem of_mem_moves (mem : move ∈ attempt.moves point store) :
    move = .reject .addressOutOfRange ∨ ∃ instruction,
      attempt.program.code[point.address]? = some instruction ∧
      (move = .work ∨ (∃ event, move = .perform (.note event)) ∨
        (∃ effect ∈ (Plan.ofInstruction attempt point store instruction).effects,
          move = .perform effect) ∨
        move ∈ attempt.exitMoves point
          (Plan.ofInstruction attempt point store instruction).exit) := by
  unfold moves at mem
  split at mem
  · exact .inl (List.mem_singleton.1 mem)
  · next instruction fetched =>
      refine .inr ⟨instruction, fetched, ?_⟩
      rcases List.mem_cons.1 mem with rfl | mem
      · exact .inl rfl
      rcases List.mem_cons.1 mem with rfl | mem
      · exact .inr (.inl ⟨_, rfl⟩)
      rcases List.mem_append.1 mem with mem | mem
      · obtain ⟨effect, effectMem, rfl⟩ := List.mem_map.1 mem
        exact .inr (.inr (.inl ⟨effect, effectMem, rfl⟩))
      · exact .inr (.inr (.inr mem))

/-- The only effects on the way out of an instruction are the choices of a star. -/
theorem choice_of_mem_exitMoves {exit : Exit} {effect : Effect}
    (mem : .perform effect ∈ attempt.exitMoves point exit) :
    ∃ point', effect = .push (.choice point') := by
  have made : ∀ star : Star, star.Makes (fun _ => True) (.perform effect) →
      ∃ point', effect = .push (.choice point') := by
    intro star makes
    cases makes
    exact ⟨_, rfl⟩
  cases exit with
  | sweep star =>
      exact made star (Star.makes_of_mem_sweepMoves trivial (fun _ _ _ => trivial) mem)
  | leap star byte =>
      exact made star (Star.makes_of_mem_leapMoves (fun _ _ _ _ => trivial) trivial mem)
  | accept =>
      have mem : .perform effect ∈ attempt.acceptMoves point.cursor.position := mem
      unfold acceptMoves at mem
      split at mem
      · simp at mem
      split at mem
      · simp [Move.failing] at mem
      split at mem
      · simp [Move.failing] at mem
      · simp at mem
  | fail => simp [exitMoves, Move.failing] at mem
  | goto point | finish | corrupt reason => simp [exitMoves] at mem

/-- Every effect of a dispatch is one that its instruction may have, or the choice of a star. -/
theorem exists_causes_of_mem_moves (mem : .perform effect ∈ attempt.moves point store) :
    ∃ instruction, attempt.program.code[point.address]? = some instruction ∧
      (attempt.Causes point store instruction effect ∨
        ∃ point', effect = .push (.choice point')) := by
  rcases of_mem_moves mem with isReject | ⟨instruction, fetched, made⟩
  · cases isReject
  refine ⟨instruction, fetched, ?_⟩
  rcases made with isWork | ⟨event, isNote⟩ | ⟨effect', effectMem, same⟩ | exitMem
  · cases isWork
  · cases isNote
    exact .inl .report
  · cases same
    exact .inl (causes_of_mem_effects effectMem)
  · exact .inr (choice_of_mem_exitMoves exitMem)

end Attempt

end PatternMachine
