import PatternMachine.Proofs.Frames
import PatternMachine.Proofs.Labels
import PatternMachine.Proofs.Recoding

/-!
# Relocated code

The same code may stand at other addresses.  A store remembers addresses in choices, in calls and in
the bodies of repeats; everything else about it is free of them.  An instruction that names the same
target where it stands makes the same plan, with every address in it relocated
(`Plan.ofInstruction_relocate`).
-/

namespace PatternMachine

variable (place : Nat → Nat)

/-! ### Addresses in stores and plans -/

/-- A point at the place of its address. -/
def Point.relocate (point : Point) : Point :=
  ⟨place point.address, point.cursor⟩

/-- A frame with the addresses that it holds relocated. -/
def Frame.relocate : Frame → Frame
  | .choice point => .choice (point.relocate place)
  | .lookNot point => .lookNot (point.relocate place)
  | .behindNot point => .behindNot (point.relocate place)
  | .repeatEntry id count body outer savedCount =>
      .repeatEntry id count (place body) outer savedCount
  | .call returnAddress => .call (place returnAddress)
  | other => other

/-- A register with the address of its body relocated. -/
def RepeatRegister.relocate (register : RepeatRegister) : RepeatRegister :=
  { register with body := place register.body }

/-- A store with all addresses in it relocated. -/
def Store.relocate (store : Store) : Store :=
  ⟨store.stack.map (Frame.relocate place),
    { store.registers with
      repeats := store.registers.repeats.map (RepeatRegister.relocate place) }⟩

/-- A report of what happens at relocated addresses. -/
def Event.relocate : Event → Event
  | .dispatched point depth => .dispatched (point.relocate place) depth
  | .emptyIteration address id position => .emptyIteration (place address) id position
  | other => other

/-- An effect with the addresses that it writes relocated. -/
def Effect.relocate : Effect → Effect
  | .note event => .note (event.relocate place)
  | .push frame => .push (frame.relocate place)
  | .enterRepeat id body => .enterRepeat id (place body)
  | other => other

/-- A star that goes on at a relocated address. -/
def Star.relocate (star : Star) : Star :=
  { star with next := place star.next }

/-- A way to leave, with the addresses to which it leads relocated. -/
def Exit.relocate : Exit → Exit
  | .goto point => .goto (point.relocate place)
  | .sweep star => .sweep (star.relocate place)
  | .leap star byte => .leap (star.relocate place) byte
  | other => other

/-- A plan with all addresses in it relocated. -/
def Plan.relocate (plan : Plan) : Plan :=
  ⟨plan.effects.map (Effect.relocate place), plan.exit.relocate place⟩

/-! ### Looking at relocated stores -/

namespace Frame

variable {place}

@[simp] theorem isMark_relocate (frame : Frame) (mark : Mark) :
    (frame.relocate place).isMark mark = frame.isMark mark := by
  cases frame <;> rfl

@[simp] theorem resume?_relocate (frame : Frame) :
    (frame.relocate place).resume? = frame.resume?.map (Point.relocate place) := by
  cases frame <;> rfl

@[simp] theorem isResumable_relocate (frame : Frame) :
    (frame.relocate place).isResumable = frame.isResumable := by
  cases frame <;> rfl

@[simp] theorem position?_relocate (frame : Frame) :
    (frame.relocate place).position? = frame.position? := by
  cases frame <;> rfl

@[simp] theorem savedBounds?_relocate (frame : Frame) (group : Nat) :
    (frame.relocate place).savedBounds? group = frame.savedBounds? group := by
  cases frame <;> rfl

theorem relocate_withCount (frame : Frame) (count : Nat) :
    (frame.withCount count).relocate place = (frame.relocate place).withCount count := by
  cases frame <;> rfl

theorem relocate_settle (frame : Frame) :
    (Stack.settle frame).relocate place = Stack.settle (frame.relocate place) := by
  cases frame <;> rfl

end Frame

namespace Stack

variable {place} (stack : Stack)

theorem hasMark_relocate (mark : Mark) :
    (stack.map (Frame.relocate place)).hasMark mark = stack.hasMark mark := by
  rw [hasMark, hasMark, stack.lastIndex?_map fun frame => frame.isMark_relocate mark]

theorem emptyCheck?_relocate (id : Nat) :
    (stack.map (Frame.relocate place)).emptyCheck? id = stack.emptyCheck? id :=
  stack.lastIndex?_map fun frame => by cases frame <;> rfl

theorem lookCursor?_relocate :
    (stack.map (Frame.relocate place)).lookCursor? = stack.lookCursor? := by
  rw [lookCursor?, seek_map]
  refine congrArg (stack.seek · ()) ?_
  funext frame _
  cases frame <;> rfl

theorem spanAtLevel?_relocate (groups : List Nat) (wanted : Int) :
    (stack.map (Frame.relocate place)).spanAtLevel? groups wanted =
      stack.spanAtLevel? groups wanted := by
  rw [spanAtLevel?, seek_map]
  refine congrArg (stack.seek · (0, none)) ?_
  funext frame state
  cases frame <;> rfl

/-- A call that is answered goes back to the place of its return address. -/
theorem returnAddress?_relocate :
    (stack.map (Frame.relocate place)).returnAddress? = stack.returnAddress?.map place := by
  suffices ∀ answered, (stack.map (Frame.relocate place)).seek visitCall answered =
      (stack.seek visitCall answered).map place from this 0
  induction stack using push_induction with
  | empty =>
      intro answered
      rw [map_empty, seek_empty, Option.map_none]
  | push stack frame ih =>
      intro answered
      rw [map_push, seek_push, seek_push]
      cases frame with
      | call returnAddress =>
          cases answered with
          | zero => rfl
          | succ answered => exact ih answered
      | _ => exact ih _

theorem entry?_relocate (index : Nat) :
    Stack.entry? (stack.map (Frame.relocate place)) index =
      ( stack.entry? index).map fun entry => (entry.1, place entry.2) := by
  rw [ entry?, entry?, get?_map]
  cases stack.get? index with
  | none => rfl
  | some frame => cases frame <;> rfl

end Stack

namespace Store

variable {place} (store : Store)

@[simp] theorem depth_relocate : (store.relocate place).depth = store.depth :=
  store.stack.depth_map _

theorem stack_relocate : (store.relocate place).stack = store.stack.map (Frame.relocate place) :=
  rfl

@[simp] theorem boundsOf_relocate (group : Nat) :
    (store.relocate place).registers.boundsOf group = store.registers.boundsOf group := rfl

theorem resolve?_relocate (bound : Bound) :
    (store.relocate place).resolve? bound = store.resolve? bound := by
  cases bound with
  | unset | direct position => rfl
  | inFrame index =>
      simp only [resolve?, stack_relocate, Stack.get?_map]
      cases store.stack.get? index with
      | none => rfl
      | some frame => exact frame.position?_relocate

@[simp] theorem resolveBounds_relocate (bounds : Bounds) :
    (store.relocate place).resolveBounds bounds = store.resolveBounds bounds :=
  Prod.ext (store.resolve?_relocate _) (store.resolve?_relocate _)

@[simp] theorem span?_relocate (group : Nat) :
    (store.relocate place).span? group = store.span? group := by
  rw [span?, span?, resolveBounds_relocate, boundsOf_relocate]

theorem groupsUnchanged_relocate (index : Nat) (groups : List Nat) :
    (store.relocate place).groupsUnchanged index groups = store.groupsUnchanged index groups := by
  have before : ∀ group, (store.relocate place).boundsBefore? index group =
      store.boundsBefore? index group := by
    intro group
    rw [boundsBefore?, boundsBefore?, Stack.firstAbove?, Stack.firstAbove?, stack_relocate,
      Stack.depth_map]
    exact store.stack.firstFrom?_map (fun frame => frame.savedBounds?_relocate group) _ _
  simp only [groupsUnchanged, before, resolveBounds_relocate, boundsOf_relocate]

/-- A register that a program does not have reads as if its body were at the start of the code. -/
theorem repeatOf_relocate (first : place 0 = 0) (id : Nat) :
    (store.relocate place).registers.repeatOf id =
      (store.registers.repeatOf id).relocate place := by
  simp only [relocate, Registers.repeatOf, Array.getD_eq_getD_getElem?, Array.getElem?_map]
  cases store.registers.repeats[id]? with
  | none => exact congrArg (RepeatRegister.mk none 0) first.symm
  | some register => rfl

/-! ### Effects on relocated stores -/

theorem relocate_push (frame : Frame) :
    (store.push frame).relocate place = (store.relocate place).push (frame.relocate place) := by
  rw [relocate, push, Stack.map_push]
  rfl

theorem relocate_setRepeat (id : Nat) (register : RepeatRegister) :
    (store.setRepeat id register).relocate place =
      (store.relocate place).setRepeat id (register.relocate place) := by
  simp only [relocate, setRepeat, Registers.setRepeat, Array.map_setIfInBounds]

variable (first : place 0 = 0)

include first

theorem relocate_restore (frame : Frame) :
    (store.restore frame).relocate place =
      (store.relocate place).restore (frame.relocate place) := by
  cases frame with
  | repeatEntry id count body outer savedCount | registerCount id savedCount =>
      simp only [restore, Frame.relocate, relocate_setRepeat, store.repeatOf_relocate first]
      rfl
  | entryCount index count =>
      simp only [restore, relocate, Frame.relocate]
      rw [Stack.map_setEntryCount _ _ Frame.relocate_withCount]
  | _ => rfl

theorem relocate_unwind {test : Frame → Bool}
    (same : ∀ frame : Frame, test (frame.relocate place) = test frame) :
    (store.relocate place).unwind test =
      ((store.unwind test).1.map (Frame.relocate place), (store.unwind test).2.relocate place) := by
  induction store using push_induction with
  | empty registers => simp only [relocate, Stack.map_empty, unwind_blank, Option.map_none]
  | push store frame ih =>
      rw [relocate_push, unwind_push, unwind_push, same]
      split
      · rfl
      · rw [← relocate_restore _ first]
        exact ih _ (store.depth_restore frame)

/-- A search that fails goes back to the place of its latest choice. -/
theorem relocate_backtrack :
    (store.relocate place).backtrack =
      (store.backtrack.1.map (Point.relocate place), store.backtrack.2.relocate place) := by
  rw [backtrack, backtrack, store.relocate_unwind first Frame.isResumable_relocate]
  refine congrArg (·, _) ?_
  dsimp only
  cases (store.unwind Frame.isResumable).1 with
  | none => rfl
  | some frame => exact frame.resume?_relocate

omit first in
theorem relocate_discard :
    store.discard.2.relocate place = (store.relocate place).discard.2 := by
  obtain ⟨stack, registers⟩ := store
  induction stack using Stack.push_induction with
  | empty => simp only [discard, relocate, Stack.map_empty, Stack.pop?_empty]
  | push stack frame _ =>
      have split : (⟨stack.push frame, registers⟩ : Store) = push ⟨stack, registers⟩ frame := rfl
      rw [split, relocate_push, discard_push, discard_push]

end Store

/-- A relocated effect on a relocated store is the effect on the store. -/
theorem Effect.relocate_onStore {place : Nat → Nat} (first : place 0 = 0) (effect : Effect)
    (store : Store) :
    (effect.onStore store).relocate place =
      (effect.relocate place).onStore (store.relocate place) := by
  cases effect with
  | note event | setGroup group bounds => rfl
  | push frame => exact store.relocate_push frame
  | openGroup group position | closeGroup group position | clearGroup group =>
      simp only [onStore, relocate, Store.openGroup, Store.closeGroup, Store.clearGroup,
        Store.depth_relocate, Store.boundsOf_relocate]
      exact congrArg (Store.setGroup · group _) (store.relocate_push _)
  | enterRepeat id body =>
      simp only [onStore, relocate, Store.enterRepeat, Store.relocate_setRepeat,
        Store.relocate_push, Store.depth_relocate, store.repeatOf_relocate first]
      rfl
  | countInRegister id =>
      simp only [onStore, relocate, Store.countInRegister, Store.relocate_setRepeat,
        Store.relocate_push, store.repeatOf_relocate first]
      rfl
  | countInEntry index =>
      simp only [onStore, relocate, Store.countInEntry, Store.relocate, Stack.entry?_relocate]
      rw [Stack.map_push, Stack.map_setEntryCount _ _ Frame.relocate_withCount]
      cases store.stack.entry? index <;> rfl
  | discard => exact store.relocate_discard
  | commit mark =>
      simp only [onStore, relocate, Store.commit, Store.relocate]
      rw [Stack.map_commit store.stack Frame.isMark_relocate Frame.relocate_settle rfl]
  | unwindTo mark =>
      simp only [onStore, relocate, Store.unwindTo]
      rw [store.relocate_unwind first fun frame => frame.isMark_relocate mark]

/-! ### Relocated instructions -/

/-- What stands at the place of an address instead of an instruction: the instruction itself, with
its target relocated if it has one. -/
inductive Instruction.Relocates (place : Nat → Nat) (address : Nat) :
    Instruction → Instruction → Prop
  | plain {instruction : Instruction} (untargeted : instruction.hasTarget = false) :
      Relocates place address instruction instruction
  | targeted {instruction : Instruction} (isTargeted : instruction.hasTarget = true)
      (target : Nat) : Relocates place address (instruction.withTarget address target)
        (instruction.withTarget (place address) (place target))

/-- Whether code stands in other code at the places of its addresses, with the exception of what is
at one address, which is not the way back of a loop. -/
structure Relocation (place : Nat → Nat) (hole : Nat) (code code' : Array Instruction) : Prop where
  first : place 0 = 0
  next : ∀ address, address ≠ hole → place (address + 1) = place address + 1
  size : ∀ address, place address < code'.size ↔ address < code.size
  instruction : ∀ {address : Nat} {instruction : Instruction}, address ≠ hole →
    code[address]? = some instruction →
    ∃ instruction', code'[place address]? = some instruction' ∧
      instruction.Relocates place address instruction'
  noLoopBack : ∀ instruction, code[hole]? = some instruction → instruction.isLoopBack = false

namespace Instruction

theorem isLoopBack_withTarget (instruction : Instruction) (address target : Nat) :
    (instruction.withTarget address target).isLoopBack = instruction.isLoopBack := by
  cases instruction <;> rfl

theorem Relocates.isLoopBack {address : Nat} {instruction instruction' : Instruction}
    (relocates : instruction.Relocates place address instruction') :
    instruction'.isLoopBack = instruction.isLoopBack := by
  cases relocates with
  | plain => rfl
  | targeted => rw [isLoopBack_withTarget, isLoopBack_withTarget]

end Instruction

namespace Plan

variable {place} {attempt : Attempt} {point : Point} {store : Store} {hole : Nat}
  {code : Array Instruction}

@[simp] theorem relocate_goto (address : Nat) (cursor : Cursor) (effects : List Effect) :
    (goto address cursor effects).relocate place =
      goto (place address) cursor (effects.map (Effect.relocate place)) := rfl

@[simp] theorem relocate_corrupt (reason : Corruption) :
    (corrupt reason).relocate place = corrupt reason := rfl

@[simp] theorem relocate_fail : fail.relocate place = fail := rfl

@[simp] theorem relocate_ite (condition : Prop) [Decidable condition] (plan other : Plan) :
    (if condition then plan else other).relocate place =
      if condition then plan.relocate place else other.relocate place :=
  apply_ite _ condition plan other

theorem relocate_consumed (address : Nat) (cursor? : Option Cursor) :
    (consumed address cursor?).relocate place = consumed (place address) cursor? := by
  cases cursor? <;> rfl

theorem relocate_choiceAt (address : Nat) :
    (choiceAt point address).relocate place = choiceAt (point.relocate place) (place address) := rfl

section

variable (next : (point.relocate place).next = place point.next)

include next

theorem toward_relocate (target : Nat) (instruction : Instruction) :
    toward (attempt.withCode code) (point.relocate place) (place target) instruction =
      (toward attempt point target instruction).relocate place := by
  have cursor : (point.relocate place).cursor = point.cursor := rfl
  cases instruction with
  | push | lookNotStart | call => simp only [toward, relocate_goto, next, cursor]; rfl
  | pushOrJump offset byte =>
      simp only [toward, relocate_ite, relocate_goto, next, cursor]
      rfl
  | pushIfNext offset byte =>
      have same : nextIs (attempt.withCode code) (point.relocate place) byte =
          nextIs attempt point byte := rfl
      simp only [toward, relocate_goto, next, cursor, same]
      cases nextIs attempt point byte <;> rfl
  | repeatStart id offset greedy =>
      simp only [toward, relocate_ite, relocate_goto, next, cursor]
      rfl
  | lookBehindNotStart offset length =>
      have text : (attempt.withCode code).text = attempt.text := rfl
      simp only [toward, next, cursor, text]
      cases attempt.text.stepBack? 0 length point.cursor.position <;> rfl
  | _ => rfl

theorem afterIteration_relocate (range : RepeatRange) (count body : Nat) (greedy : Bool)
    {record : Effect} (kept : record.relocate place = record) :
    afterIteration (point.relocate place) range count (place body) greedy record =
      (afterIteration point range count body greedy record).relocate place := by
  simp only [afterIteration, relocate_ite, relocate_goto, next, List.map_cons, List.map_nil, kept,
    relocate_choiceAt]
  rfl

theorem oneChar_relocate (accepts : Nat → Bool) :
    oneChar (attempt.withCode code) (point.relocate place) accepts =
      (oneChar attempt point accepts).relocate place := by
  have character : (attempt.withCode code).text.charAt? (point.relocate place).cursor.position
      (attempt.withCode code).range = attempt.text.charAt? point.cursor.position attempt.range := rfl
  simp only [oneChar, next, character]
  cases attempt.text.charAt? point.cursor.position attempt.range with
  | none => rfl
  | some character =>
      simp only [relocate_ite, relocate_goto, List.map_nil, relocate_fail]
      rfl

theorem charClass_relocate (operand : ClassOperand) :
    charClass (attempt.withCode code) (point.relocate place) operand =
      (charClass attempt point operand).relocate place := by
  have character : (attempt.withCode code).text.charAt? (point.relocate place).cursor.position
      (attempt.withCode code).range = attempt.text.charAt? point.cursor.position attempt.range := rfl
  have classes : (attempt.withCode code).program.classes = attempt.program.classes := rfl
  simp only [charClass, next, character, classes]
  cases attempt.text.charAt? point.cursor.position attempt.range with
  | none => rfl
  | some character =>
      dsimp only
      cases operand.resolve? attempt.program.classes with
      | error index => rfl
      | ok members =>
          simp only [relocate_ite, relocate_goto, List.map_nil, relocate_fail]
          rfl

theorem clearGroups_relocate (firstGroup stop : Nat) :
    clearGroups (attempt.withCode code) (point.relocate place) firstGroup stop =
      (clearGroups attempt point firstGroup stop).relocate place := by
  have cleared : ∀ group, Effect.relocate place
      (if attempt.program.loggedStarts.contains group || attempt.program.loggedEnds.contains group
        then .clearGroup group else .setGroup group .unset) =
      (if attempt.program.loggedStarts.contains group || attempt.program.loggedEnds.contains group
        then .clearGroup group else .setGroup group .unset) := by
    intro group
    split <;> rfl
  simp only [clearGroups, next, relocate_ite, relocate_goto, relocate_corrupt, List.map_map,
    Function.comp_def, cleared]
  rfl

theorem backReference_relocate (reference : BackReference) :
    backReference (attempt.withCode code) (point.relocate place) (store.relocate place) reference =
      (backReference attempt point store reference).relocate place := by
  have same : reference.repeat? (attempt.withCode code) (store.relocate place)
      (point.relocate place).cursor.position =
        reference.repeat? attempt store point.cursor.position :=
    @BackReference.repeat?_congr attempt (attempt.withCode code) store (store.relocate place) rfl
      (fun _ => rfl) store.span?_relocate rfl store.stack.spanAtLevel?_relocate
      point.cursor.position reference
  simp only [backReference, same, next]
  cases reference.repeat? attempt store point.cursor.position with
  | error reason => rfl
  | ok stop => exact (relocate_consumed _ _).symm

theorem repeatNext_relocate (first : place 0 = 0) (id : Nat) (greedy direct : Bool) :
    repeatNext (attempt.withCode code) (point.relocate place) (store.relocate place) id greedy
        direct = (repeatNext attempt point store id greedy direct).relocate place := by
  have ranges : (attempt.withCode code).program.repeatRanges = attempt.program.repeatRanges := rfl
  simp only [repeatNext, store.repeatOf_relocate first, Store.stack_relocate, Stack.entry?_relocate,
    ranges]
  cases attempt.program.repeatRanges[id]? with
  | none => rfl
  | some range =>
      dsimp only [RepeatRegister.relocate]
      cases (store.registers.repeatOf id).entry with
      | none => rfl
      | some index =>
          cases direct with
          | true => exact afterIteration_relocate next range _ _ greedy rfl
          | false =>
              dsimp only
              cases store.stack.entry? index with
              | none => rfl
              | some entry => exact afterIteration_relocate next range _ _ greedy rfl

/-- An instruction that has no target and ends no iteration that may be empty makes the relocated
plan. -/
theorem ofInstruction_relocate_of_plain (first : place 0 = 0) {instruction : Instruction}
    (untargeted : instruction.hasTarget = false)
    (noCheck : ∀ id watched, instruction ≠ .emptyCheckEnd id watched) :
    ofInstruction (attempt.withCode code) (point.relocate place) (store.relocate place)
        instruction = (ofInstruction attempt point store instruction).relocate place := by
  have cursor : (point.relocate place).cursor = point.cursor := rfl
  have text : (attempt.withCode code).text = attempt.text := rfl
  cases instruction with
  | byte | bytes | foldedChars =>
      simp only [ofInstruction, literalByte, literal, foldedChars, relocate_consumed, next]
      rfl
  | template index offset length =>
      have literals : (attempt.withCode code).program.literal? index offset length =
          attempt.program.literal? index offset length := rfl
      simp only [ofInstruction, literals]
      cases attempt.program.literal? index offset length with
      | none => rfl
      | some excerpt =>
          simp only [literal, relocate_consumed, next]
          rfl
  | foldedChar | word => simp only [ofInstruction, text, oneChar_relocate next]
  | charClass operand => exact charClass_relocate next operand
  | anyChar acrossLines =>
      simp only [ofInstruction, anyChar, next, relocate_ite, relocate_goto, List.map_nil,
        relocate_fail]
      rfl
  | anyCharStar acrossLines peeked =>
      simp only [ofInstruction, anyCharStar, next]
      cases acrossLines with
      | false => rfl
      | true =>
          cases peeked with
          | none => rfl
          | some byte =>
              simp only [relocate_ite]
              rfl
  | assert assertion =>
      simp only [ofInstruction, check, next, relocate_ite, relocate_goto, List.map_nil,
        relocate_fail]
      rfl
  | openGroup group logged | closeGroup group logged =>
      simp only [ofInstruction, openGroup, closeGroup, next, relocate_ite, relocate_goto,
        Store.boundsOf_relocate, relocate_corrupt]
      cases logged <;> rfl
  | clearGroups firstGroup stop => exact clearGroups_relocate next firstGroup stop
  | backReference reference => exact backReference_relocate next reference
  | emptyCheckStart id =>
      simp only [ofInstruction, emptyCheckStart, next, relocate_ite, relocate_goto,
        relocate_corrupt]
      rfl
  | emptyCheckEnd id watched => exact absurd rfl (noCheck id watched)
  | pop =>
      simp only [ofInstruction, pop, next, relocate_ite, relocate_goto, relocate_corrupt,
        Store.depth_relocate]
      rfl
  | repeatNext id greedy direct => exact repeatNext_relocate next first id greedy direct
  | lookStart | atomicStart =>
      simp only [ofInstruction, next, relocate_goto]
      rfl
  | lookEnd =>
      simp only [ofInstruction, lookEnd, next, Store.stack_relocate, Stack.lookCursor?_relocate]
      cases store.stack.lookCursor? <;> rfl
  | atomicEnd | lookNotFail | lookBehindNotFail =>
      simp only [ofInstruction, atomicEnd, excluded, next, Store.stack_relocate,
        Stack.hasMark_relocate, relocate_ite, relocate_goto, relocate_corrupt]
      rfl
  | lookBehind length =>
      simp only [ofInstruction, lookBehind, next, cursor, text]
      cases attempt.text.stepBack? 0 length point.cursor.position <;> rfl
  | callReturn =>
      simp only [ofInstruction, callReturn, Store.stack_relocate, Stack.returnAddress?_relocate]
      cases store.stack.returnAddress? <;> rfl
  | accept | finish | fail => rfl
  | jump | push | pushOrJump | pushIfNext | repeatStart | lookNotStart | lookBehindNotStart
  | call => cases untargeted

/-- The end of an iteration steps over the way back of the loop wherever that is. -/
theorem emptyCheckEnd_relocate {hole : Nat}
    (relocation : Relocation place hole attempt.program.code code) (id : Nat)
    (watched : Option (List Nat))
    (sound : ∀ reason, (emptyCheckEnd attempt point store id watched).exit ≠ .corrupt reason) :
    emptyCheckEnd (attempt.withCode code) (point.relocate place) (store.relocate place) id watched =
      (emptyCheckEnd attempt point store id watched).relocate place := by
  have empty : ∀ index, iterationEmpty (point.relocate place) (store.relocate place) index watched =
      iterationEmpty point store index watched := by
    intro index
    simp only [iterationEmpty, store.groupsUnchanged_relocate, Store.stack_relocate, Stack.get?_map]
    cases store.stack.get? index with
    | none => rfl
    | some frame => cases frame <;> rfl
  have count : (attempt.withCode code).program.emptyCheckCount = attempt.program.emptyCheckCount :=
    rfl
  unfold emptyCheckEnd at sound ⊢
  rw [count, next, Store.stack_relocate, Stack.emptyCheck?_relocate]
  by_cases known : id < attempt.program.emptyCheckCount
  · rw [if_pos known] at sound
    rw [if_pos known, if_pos known]
    cases found : store.stack.emptyCheck? id with
    | none => rfl
    | some index =>
        rw [found] at sound
        dsimp only at sound ⊢
        rw [empty]
        cases isEmpty : iterationEmpty point store index watched with
        | false => rfl
        | true =>
            rw [isEmpty, if_pos rfl] at sound
            rw [if_pos rfl, if_pos rfl]
            have loopsBack :
                attempt.program.code[point.next]?.map Instruction.isLoopBack = some true := by
              by_contra noWayBack
              rw [if_neg noWayBack] at sound
              exact sound .noLoopBack rfl
            obtain ⟨back, read, isLoopBack⟩ := Option.map_eq_some_iff.1 loopsBack
            have apart : point.next ≠ hole := by
              intro same
              rw [relocation.noLoopBack back (same ▸ read)] at isLoopBack
              cases isLoopBack
            obtain ⟨back', read', relocates⟩ := relocation.instruction apart read
            have loopsBack' : (attempt.withCode code).program.code[place point.next]?.map
                Instruction.isLoopBack = some true := by
              rw [show (attempt.withCode code).program.code = code from rfl, read', Option.map_some,
                relocates.isLoopBack, isLoopBack]
            rw [if_pos loopsBack, if_pos loopsBack', relocate_goto, relocation.next _ apart]
            rfl
  · rw [if_neg known, if_neg known]
    rfl

end

/-- A relocated instruction makes the relocated plan, unless the program is malformed. -/
theorem ofInstruction_relocate {hole : Nat}
    (relocation : Relocation place hole attempt.program.code code) (apart : point.address ≠ hole)
    {instruction instruction' : Instruction}
    (relocates : instruction.Relocates place point.address instruction')
    (sound : ∀ reason, (ofInstruction attempt point store instruction).exit ≠ .corrupt reason) :
    ofInstruction (attempt.withCode code) (point.relocate place) (store.relocate place)
        instruction' = (ofInstruction attempt point store instruction).relocate place := by
  have next : (point.relocate place).next = place point.next :=
    (relocation.next point.address apart).symm
  cases relocates with
  | plain untargeted =>
      by_cases isCheck : ∃ id watched, instruction = .emptyCheckEnd id watched
      · obtain ⟨id, watched, rfl⟩ := isCheck
        exact emptyCheckEnd_relocate next relocation id watched sound
      · exact ofInstruction_relocate_of_plain next relocation.first untargeted
          fun id watched same => isCheck ⟨id, watched, same⟩
  | @targeted instruction isTargeted target =>
      have size : place target < (attempt.withCode code).program.code.size ↔
          target < attempt.program.code.size := relocation.size target
      have unknown : instruction.unknownRepeat? (attempt.withCode code).program =
          instruction.unknownRepeat? attempt.program := by
        cases instruction <;> rfl
      have same := ofInstruction_withTarget (attempt.withCode code) (point.relocate place)
        (store.relocate place) isTargeted (place target)
      rw [ofInstruction_withTarget _ _ _ isTargeted, ← unknown]
      refine same.trans ?_
      cases instruction.unknownRepeat? (attempt.withCode code).program with
      | some id => rfl
      | none =>
          simp only [Option.elim_none, size, relocate_ite, relocate_corrupt,
            toward_relocate next]

end Plan

end PatternMachine
