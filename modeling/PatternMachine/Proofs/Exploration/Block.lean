import PatternMachine.Proofs.Exploration.Tandem
import PatternMachine.Proofs.Stage

/-!
# Blocks of instructions

A block runs on its own if its instructions neither end the run nor throw anything away, and neither
call nor check iterations.  Such an instruction goes on behind itself, at its target or in the body
of the repeat that it counts, or fails, and what it leaves to go back to leads to the same places
(`Plan.leadsInto_ofInstruction`).
-/

namespace PatternMachine

/-! ### Where instructions go on -/

/-- Whether an instruction may stand in a block: it does not end the run, throws nothing away, and
calls and checks no iterations. -/
def Instruction.isEnclosed : Instruction → Bool
  | .accept | .finish | .pop | .emptyCheckStart _ | .emptyCheckEnd .. | .call _ | .callReturn =>
    false
  | _ => true

/-- The offset of the target that an instruction names. -/
def Instruction.offset? : Instruction → Option Int
  | .jump offset | .push offset | .pushOrJump offset _ | .pushIfNext offset _
  | .repeatStart _ offset _ | .lookNotStart offset | .lookBehindNotStart offset _ => some offset
  | _ => none

/-- Whether all addresses at which an instruction may go on are good: the next one, its target, and
the body of the repeat that it counts. -/
structure Attempt.Leads (attempt : Attempt) (point : Point) (store : Store)
    (instruction : Instruction) (Good : Nat → Prop) : Prop where
  next : Good point.next
  target : ∀ offset target, instruction.offset? = some offset →
    attempt.program.target? point.address offset = some target → Good target
  body : ∀ id greedy direct count body, instruction = .repeatNext id greedy direct →
    store.progress? id direct = some (count, body) → Good body

/-- Whether an exit leads to a good address, if it goes on. -/
inductive Exit.LeadsInto (Good : Nat → Prop) : Exit → Prop
  | goto {point : Point} (good : Good point.address) : LeadsInto Good (.goto point)
  | fail : LeadsInto Good .fail
  | sweep {star : Star} (good : Good star.next) : LeadsInto Good (.sweep star)
  | leap {star : Star} {byte : UInt8} (good : Good star.next) : LeadsInto Good (.leap star byte)
  | corrupt {reason : Corruption} : LeadsInto Good (.corrupt reason)

/-- Whether a plan leads to good addresses, at once and by what it leaves to go back to. -/
structure Plan.LeadsInto (Good : Nat → Prop) (plan : Plan) : Prop where
  exit : plan.exit.LeadsInto Good
  choices : ∀ frame point, .push frame ∈ plan.effects → frame.resume? = some point →
    Good point.address

namespace Plan

variable {attempt : Attempt} {point : Point} {store : Store} {Good : Nat → Prop} {address : Nat}

theorem LeadsInto.of_quiet {plan : Plan} (exit : plan.exit.LeadsInto Good)
    (quiet : ∀ frame, .push frame ∉ plan.effects) : plan.LeadsInto Good :=
  ⟨exit, fun frame _ mem => absurd mem (quiet frame)⟩

theorem leadsInto_goto (good : Good address) (cursor : Cursor) :
    (goto address cursor).LeadsInto Good :=
  .of_quiet (.goto good) fun _ => List.not_mem_nil

theorem leadsInto_fail : fail.LeadsInto Good :=
  .of_quiet .fail fun _ => List.not_mem_nil

theorem leadsInto_corrupt (reason : Corruption) : (corrupt reason).LeadsInto Good :=
  .of_quiet .corrupt fun _ => List.not_mem_nil

theorem leadsInto_consumed (good : Good address) (cursor? : Option Cursor) :
    (consumed address cursor?).LeadsInto Good := by
  cases cursor? with
  | none => exact leadsInto_fail
  | some cursor => exact leadsInto_goto good cursor

theorem leadsInto_oneChar (good : Good point.next) (accepts : Nat → Bool) :
    (oneChar attempt point accepts).LeadsInto Good := by
  unfold oneChar
  dsimp only
  split
  · split
    · exact leadsInto_goto good _
    · exact leadsInto_fail
  · exact leadsInto_fail

/-- A plan that leaves one frame to go back to, at a good address. -/
theorem leadsInto_push (good : Good address) (cursor : Cursor) {frame : Frame}
    (left : ∀ point, frame.resume? = some point → Good point.address) :
    (goto address cursor [.push frame]).LeadsInto Good := by
  refine ⟨.goto good, fun other point mem resumes => ?_⟩
  obtain rfl : other = frame := Effect.push.inj (List.mem_singleton.1 mem)
  exact left point resumes

theorem leadsInto_choice (good : Good address) {other : Nat} (left : Good other) (cursor : Cursor) :
    (goto address cursor [choiceAt point other]).LeadsInto Good :=
  leadsInto_push good cursor fun _ resumes => Option.some.inj resumes ▸ left

theorem leadsInto_branch {offset : Int} {plan : Nat → Plan}
    (leads : ∀ target, attempt.program.target? point.address offset = some target →
      (plan target).LeadsInto Good) : (branch attempt point offset plan).LeadsInto Good := by
  unfold branch
  split
  · next target isTarget => exact leads target isTarget
  · exact leadsInto_corrupt _

/-- A plan that counts and may leave a choice. -/
theorem leadsInto_counting (point : Point) (good : Good address) {effects : List Effect}
    {record : Effect} (silent : ∀ frame, record ≠ .push frame)
    (made : effects = [record] ∨ ∃ other, Good other ∧
      (effects = [record, choiceAt point other] ∨ effects = [choiceAt point other, record])) :
    (goto address point.cursor effects).LeadsInto Good := by
  refine ⟨.goto good, fun frame left mem resumes => ?_⟩
  have choice : ∀ {other}, Good other → .push frame = choiceAt point other → Good left.address := by
    intro other goodOther same
    cases same
    cases resumes
    exact goodOther
  rcases made with rfl | ⟨other, goodOther, rfl | rfl⟩
  · exact absurd (List.mem_singleton.1 mem).symm (silent frame)
  · rcases List.mem_cons.1 mem with same | mem
    · exact absurd same.symm (silent frame)
    · exact choice goodOther (List.mem_singleton.1 mem)
  · rcases List.mem_cons.1 mem with same | mem
    · exact choice goodOther same
    · exact absurd (List.mem_singleton.1 mem).symm (silent frame)

theorem leadsInto_repeatStart (next : Good point.next) {id : Nat} {offset : Int} {greedy : Bool}
    (target : ∀ target, attempt.program.target? point.address offset = some target → Good target) :
    (repeatStart attempt point id offset greedy).LeadsInto Good := by
  have silent : ∀ frame, Effect.enterRepeat id point.next ≠ .push frame := nofun
  unfold repeatStart
  split
  · exact leadsInto_corrupt _
  · refine leadsInto_branch fun exit isExit => ?_
    have left := target exit isExit
    dsimp only
    split
    · split
      · exact leadsInto_counting point next silent (.inr ⟨exit, left, .inl rfl⟩)
      · exact leadsInto_counting point left silent (.inr ⟨point.next, next, .inl rfl⟩)
    · exact leadsInto_counting point next silent (.inl rfl)

theorem leadsInto_afterIteration (next : Good point.next) {body : Nat} (again : Good body)
    {record : Effect} (silent : ∀ frame, record ≠ .push frame) (range : RepeatRange) (count : Nat)
    (greedy : Bool) : (afterIteration point range count body greedy record).LeadsInto Good := by
  unfold afterIteration
  split
  · exact leadsInto_counting point next silent (.inl rfl)
  split
  · exact leadsInto_counting point again silent (.inl rfl)
  split
  · exact leadsInto_counting point again silent (.inr ⟨point.next, next, .inr rfl⟩)
  · exact leadsInto_counting point next silent (.inr ⟨body, again, .inl rfl⟩)

theorem leadsInto_repeatNext {id : Nat} {greedy direct : Bool} (next : Good point.next)
    (body : ∀ count body, store.progress? id direct = some (count, body) → Good body) :
    (repeatNext attempt point store id greedy direct).LeadsInto Good := by
  cases ranged : attempt.program.repeatRanges[id]? with
  | none =>
      rw [repeatNext, ranged]
      exact leadsInto_corrupt _
  | some range =>
      cases continues : store.progress? id direct with
      | some progress =>
          obtain ⟨record, counts, plan⟩ := repeatNext_of_progress? continues ranged point greedy
          rw [plan]
          refine leadsInto_afterIteration next (body _ _ continues) ?_ _ _ _
          rintro frame rfl
          cases direct with
          | true => cases counts
          | false =>
              obtain ⟨index, _, same⟩ := Option.map_eq_some_iff.1 counts
              cases same
      | none =>
          -- A repeat that continues from nothing is not active, or its entry is none.
          simp only [repeatNext, ranged]
          split
          · exact leadsInto_corrupt _
          · next index isActive =>
              have active : store.active id = some index := isActive
              rw [Store.progress?, active, Option.bind_some] at continues
              cases direct with
              | true => cases continues
              | false =>
                  simp only [Bool.false_eq_true, if_false] at continues ⊢
                  rw [continues]
                  exact leadsInto_corrupt _

/-- An instruction of a block leads to good addresses if all are good that it may go on at. -/
theorem leadsInto_ofInstruction {instruction : Instruction}
    (enclosed : instruction.isEnclosed = true)
    (leads : attempt.Leads point store instruction Good) :
    (ofInstruction attempt point store instruction).LeadsInto Good := by
  have next := leads.next
  cases instruction with
  | accept | finish | pop | emptyCheckStart | emptyCheckEnd | call | callReturn => cases enclosed
  | fail => exact leadsInto_fail
  | byte value | bytes content | foldedChars codes => exact leadsInto_consumed next _
  | template index offset length =>
      simp only [ofInstruction]
      split
      · exact leadsInto_consumed next _
      · exact leadsInto_corrupt _
  | foldedChar code | word wanted =>
      simp only [ofInstruction]
      exact leadsInto_oneChar next _
  | charClass operand =>
      simp only [ofInstruction, charClass]
      repeat' split
      all_goals first
        | exact leadsInto_goto next _
        | exact leadsInto_fail
        | exact leadsInto_corrupt _
  | anyChar acrossLines =>
      simp only [ofInstruction, anyChar]
      split
      · exact leadsInto_goto next _
      · exact leadsInto_fail
  | anyCharStar acrossLines peeked =>
      refine .of_quiet ?_ fun frame => by rw [ofInstruction, effects_anyCharStar]; simp
      simp only [ofInstruction, anyCharStar]
      repeat' split
      · exact .leap next
      · exact .sweep next
      · exact .sweep next
  | assert assertion =>
      simp only [ofInstruction, check]
      split
      · exact leadsInto_goto next _
      · exact leadsInto_fail
  | openGroup group logged | closeGroup group logged =>
      simp only [ofInstruction, openGroup, closeGroup]
      split
      · refine .of_quiet (.goto next) fun frame mem => ?_
        have same := List.mem_singleton.1 mem
        split at same <;> cases same
      · exact leadsInto_corrupt _
  | clearGroups first stop =>
      simp only [ofInstruction, clearGroups]
      split
      · exact leadsInto_corrupt _
      · refine .of_quiet (.goto next) fun frame mem => ?_
        obtain ⟨group, _, same⟩ := List.mem_map.1 mem
        split at same <;> cases same
  | backReference reference =>
      simp only [ofInstruction, backReference]
      split
      · exact leadsInto_consumed next _
      · exact leadsInto_corrupt _
  | jump offset =>
      exact leadsInto_branch fun target isTarget =>
        leadsInto_goto (leads.target _ _ rfl isTarget) _
  | push offset =>
      exact leadsInto_branch fun target isTarget =>
        leadsInto_choice next (leads.target _ _ rfl isTarget) _
  | pushOrJump offset byte =>
      refine leadsInto_branch fun target isTarget => ?_
      have left := leads.target _ _ rfl isTarget
      split
      · exact leadsInto_choice next left _
      · exact leadsInto_goto left _
  | pushIfNext offset byte =>
      refine leadsInto_branch fun target isTarget => ?_
      split
      · exact leadsInto_choice next (leads.target _ _ rfl isTarget) _
      · exact leadsInto_goto next _
  | repeatStart id offset greedy =>
      exact leadsInto_repeatStart next fun target => leads.target _ _ rfl
  | repeatNext id greedy direct =>
      exact leadsInto_repeatNext next fun count body => leads.body _ _ _ _ _ rfl
  | lookStart | atomicStart =>
      refine ⟨.goto next, fun frame point mem resumes => ?_⟩
      cases Effect.push.inj (List.mem_singleton.1 mem)
      cases resumes
  | lookNotStart offset =>
      refine leadsInto_branch fun target isTarget => ?_
      exact leadsInto_push next _ fun _ resumes =>
        Option.some.inj resumes ▸ leads.target _ _ rfl isTarget
  | lookEnd =>
      simp only [ofInstruction, lookEnd]
      split
      · exact .of_quiet (.goto next) (by simp [goto])
      · exact leadsInto_corrupt _
  | atomicEnd =>
      simp only [ofInstruction, atomicEnd]
      split
      · exact .of_quiet (.goto next) (by simp [goto])
      · exact leadsInto_corrupt _
  | lookNotFail | lookBehindNotFail =>
      simp only [ofInstruction, excluded]
      split
      · exact .of_quiet .fail (by simp)
      · exact leadsInto_corrupt _
  | lookBehind length =>
      simp only [ofInstruction, lookBehind]
      split
      · exact leadsInto_goto next _
      · exact leadsInto_fail
  | lookBehindNotStart offset length =>
      refine leadsInto_branch fun target isTarget => ?_
      have left := leads.target _ _ rfl isTarget
      split
      · exact leadsInto_push next _ fun _ resumes => Option.some.inj resumes ▸ left
      · exact leadsInto_goto left _

end Plan

end PatternMachine
