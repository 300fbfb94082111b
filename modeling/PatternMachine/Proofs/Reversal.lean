import PatternMachine.Proofs.Progress

/-!
# What going back brings back

Where the body of a repeat starts is written anew by every entry, and some programs open or close
groups for good.  All the rest of a store is as before when a search goes back to a choice that is
still offered (`Move.reverted_rewind_onStore`): choices and marks, what repeats have counted, and
where the groups lie that are written by logged instructions alone.
-/

namespace PatternMachine

/-! ### Groups that are never written for good -/

/-- The group that an instruction opens or closes for good. -/
def Instruction.written? : Instruction → Option Nat
  | .openGroup group false | .closeGroup group false => some group
  | _ => none

/-- Whether going back undoes all that a program writes about a group. -/
def Program.Reverts (program : Program) (group : Nat) : Prop :=
  program.logs group = true ∧ ∀ instruction ∈ program.code, instruction.written? ≠ some group

instance (program : Program) (group : Nat) : Decidable (program.Reverts group) :=
  inferInstanceAs (Decidable (_ ∧ ∀ instruction ∈ program.code, instruction.written? ≠ some group))

/-- A program that logs all openings and closings writes no group for good. -/
theorem Program.LogsAll.reverts {program : Program} (logsAll : program.LogsAll) {group : Nat}
    (logs : program.logs group = true) : program.Reverts group := by
  refine ⟨logs, ?_⟩
  intro instruction mem written
  have unlogged := logsAll instruction mem
  cases instruction with
  | openGroup number isLogged | closeGroup number isLogged =>
      cases isLogged with
      | false => cases unlogged
      | true => cases written
  | _ => cases written

/-- What is written for good is no group that going back brings back. -/
theorem Attempt.not_reverts_of_setGroup {attempt : Attempt} {point : Point} {store : Store}
    {group : Nat} {bounds : Bounds}
    (mem : .perform (.setGroup group bounds) ∈ attempt.moves point store) :
    ¬ attempt.program.Reverts group := by
  rintro ⟨logs, unwritten⟩
  obtain ⟨instruction, fetched, causes | ⟨point', isChoice⟩⟩ := exists_causes_of_mem_moves mem
  · cases causes with
    | startGroup known | stopGroup known => exact unwritten _ (Array.mem_of_getElem? fetched) rfl
    | unsetGroup known direct =>
        replace direct : attempt.program.logs group = false := direct
        rw [logs] at direct
        cases direct
  · cases isChoice

/-- What moves rely on for going back to bring back what was before: besides being regular, they
write no group for good that going back is to bring back. -/
structure Move.Reversible (program : Program) (move : Move) : Prop where
  regular : move.Regular program
  unwritten : ∀ group bounds, move = .perform (.setGroup group bounds) → ¬ program.Reverts group

theorem Attempt.reversible_of_mem_moves {attempt : Attempt} {point : Point} {store : Store}
    {move : Move} (mem : move ∈ attempt.moves point store) :
    move.Reversible attempt.program where
  regular := regular_of_mem_moves mem
  unwritten := by
    rintro group bounds rfl
    exact not_reverts_of_setGroup mem

/-! ### Groups that are written for good -/

namespace Store

variable (program : Program) (store : Store)

/-- A store that does not tell where the groups lie that are written for good. -/
def forgetWritten : Store where
  stack := store.stack
  registers :=
    { store.registers with
      groups := store.registers.groups.mapIdx fun group bounds =>
        if program.Reverts group then bounds else .unset }

theorem forgetWritten_forgetWritten :
    (store.forgetWritten program).forgetWritten program = store.forgetWritten program := by
  simp only [forgetWritten, Array.mapIdx_mapIdx]
  congr 2
  apply Array.mapIdx_eq_mapIdx_iff.2
  intro group inside
  split <;> rfl

theorem forgetWritten_setGroup (group : Nat) (bounds : Bounds) :
    (store.setGroup group bounds).forgetWritten program =
      (store.forgetWritten program).setGroup group
        (if program.Reverts group then bounds else .unset) := by
  simp only [forgetWritten, setGroup, Registers.setGroup]
  congr 2
  apply Array.ext_getElem?
  intro index
  simp only [Array.getElem?_mapIdx, Array.getElem?_setIfInBounds, Array.size_mapIdx]
  by_cases same : group = index
  · subst same
    rw [if_pos rfl, if_pos rfl]
    by_cases inside : group < store.registers.groups.size
    · rw [if_pos inside, if_pos inside]
      rfl
    · rw [if_neg inside, if_neg inside]
      rfl
  · rw [if_neg same, if_neg same]

/-- What is written for good is forgotten. -/
theorem forgetWritten_setGroup_of_not_reverts {group : Nat} (bounds : Bounds)
    (written : ¬ program.Reverts group) :
    (store.setGroup group bounds).forgetWritten program = store.forgetWritten program := by
  have unset : (store.forgetWritten program).registers.boundsOf group = .unset := by
    simp only [forgetWritten, Registers.boundsOf, Array.getD_eq_getD_getElem?,
      Array.getElem?_mapIdx, if_neg written]
    cases store.registers.groups[group]? <;> rfl
  rw [forgetWritten_setGroup, if_neg written, ← unset, setGroup_self]

/-- What is forgotten before a frame writes back is forgotten afterwards. -/
theorem forgetWritten_restore (frame : Frame) :
    (store.restore frame).forgetWritten program =
      ((store.forgetWritten program).restore frame).forgetWritten program := by
  cases frame with
  | groupStart group position saved | groupEnd group position saved =>
      simp only [restore, forgetWritten_setGroup, forgetWritten_forgetWritten]
  | repeatEntry id count body outer savedCount =>
      exact (forgetWritten_forgetWritten program (store.restore _)).symm
  | registerCount id savedCount =>
      exact (forgetWritten_forgetWritten program (store.restore _)).symm
  | entryCount index savedCount =>
      exact (forgetWritten_forgetWritten program (store.restore _)).symm
  | _ => exact (forgetWritten_forgetWritten program store).symm

theorem forgetWritten_undo (count : Nat) :
    (store.undo count).forgetWritten program =
      ((store.forgetWritten program).undo count).forgetWritten program := by
  induction store using push_induction generalizing count with
  | empty registers =>
      have blank : (⟨.empty, registers⟩ : Store).forgetWritten program =
          ⟨.empty, (forgetWritten program ⟨.empty, registers⟩).registers⟩ := rfl
      rw [undo_blank, blank, undo_blank, ← blank, forgetWritten_forgetWritten]
  | push store frame ih =>
      cases count with
      | zero => exact (forgetWritten_forgetWritten program _).symm
      | succ count =>
          have lower : (((store.forgetWritten program).restore frame).depth) = store.depth :=
            depth_restore _ _
          have pushed : (store.push frame).forgetWritten program =
              (store.forgetWritten program).push frame := rfl
          rw [pushed, undo_push, undo_push, ih _ (store.depth_restore frame) count, ih _ lower count,
            forgetWritten_restore]

end Store

/-! ### The part of a store that comes back -/

namespace Store

variable (program : Program) (store : Store)

/-- The part of a store that going back brings back: all but where bodies start, and where the
groups lie that are written for good. -/
def reverted : Store :=
  store.forgetBodies.forgetWritten program

theorem stack_reverted : (store.reverted program).stack = store.stack := rfl

theorem boundsOf_reverted {group : Nat} (reverts : program.Reverts group) :
    (store.reverted program).registers.boundsOf group = store.registers.boundsOf group := by
  simp only [reverted, forgetBodies, forgetWritten, Registers.boundsOf,
    Array.getD_eq_getD_getElem?, Array.getElem?_mapIdx, if_pos reverts]
  cases store.registers.groups[group]? <;> rfl

/-- The repeats are among what comes back. -/
theorem record_forgetGroups_reverted :
    (store.reverted program).record.forgetGroups = store.record.forgetGroups := by
  rw [← store.record_forgetBodies]
  rfl

variable {program store}

theorem stack_eq_of_reverted {other : Store}
    (same : other.reverted program = store.reverted program) : other.stack = store.stack := by
  have stack := congrArg Store.stack same
  rwa [stack_reverted, stack_reverted] at stack

/-- Repeats are active where they were. -/
theorem active_eq_of_reverted {other : Store}
    (same : other.reverted program = store.reverted program) : other.active = store.active := by
  have active : ∀ store : Store, (store.reverted program).active = store.active :=
    fun store => store.active_forgetBodies
  rw [← active other, same, active]

theorem reverted_congr {other : Store} (same : other.forgetBodies = store.forgetBodies) :
    other.reverted program = store.reverted program :=
  congrArg (forgetWritten program) same

theorem reverted_rewind_congr {other : Store}
    (same : other.reverted program = store.reverted program) (depth : Nat) :
    (other.rewind depth).reverted program = (store.rewind depth).reverted program := by
  have expand : ∀ store : Store, (store.rewind depth).reverted program =
      ((store.reverted program).rewind depth).forgetWritten program := by
    intro store
    rw [reverted, forgetBodies_rewind, rewind, forgetWritten_undo]
    rfl
  rw [expand, expand, same]

/-- What going back leads to is the same after an effect, as far below as no bracket that the effect
ends. -/
theorem reverted_rewind_onStore {effect : Effect} {depth : Nat}
    (reversible : (Move.perform effect).Reversible program)
    (discards : effect = .discard → store.topIsChoice = true)
    (closes : ∀ mark, effect = .commit mark →
      ∃ last, store.stack.lastIndex? (Frame.isMark mark) = some last ∧ depth ≤ last)
    (within : depth ≤ store.depth) (within' : depth ≤ (effect.onStore store).depth) :
    ((effect.onStore store).rewind depth).reverted program =
      (store.rewind depth).reverted program := by
  have of_isUndone : effect.IsUndone → ((effect.onStore store).rewind depth).reverted program =
      (store.rewind depth).reverted program := fun undone =>
    reverted_congr (Effect.forgetBodies_rewind_onStore undone within within')
  cases effect with
  | setGroup group bounds =>
      refine reverted_rewind_congr ?_ depth
      have unwritten := reversible.unwritten group bounds rfl
      exact forgetWritten_setGroup_of_not_reverts program store.forgetBodies bounds unwritten
  | discard =>
      simp only [Effect.onStore]
      rw [store.rewind_discard (discards rfl) within']
  | commit mark =>
      obtain ⟨last, found, below⟩ := closes mark rfl
      simp only [Effect.onStore]
      rw [rewind_commit store found below]
  | push frame => exact of_isUndone reversible.regular
  | _ => exact of_isUndone trivial

end Store

namespace Move

variable {program : Program} {store : Store} {move : Move}

/-- What going back leads to is the same after a move, as far below as no bracket that the move
ends. -/
theorem reverted_rewind (reversible : move.Reversible program)
    (discards : move = .perform .discard → store.topIsChoice = true) {depth : Nat}
    (closes : ∀ mark, move = .perform (.commit mark) →
      ∃ last, store.stack.lastIndex? (Frame.isMark mark) = some last ∧ depth ≤ last)
    (within : depth ≤ store.depth) (within' : depth ≤ (move.onStore store).depth) :
    ((move.onStore store).rewind depth).reverted program =
      (store.rewind depth).reverted program := by
  cases move with
  | perform effect =>
      exact Store.reverted_rewind_onStore reversible (fun same => discards (congrArg _ same))
        (fun mark same => closes mark (congrArg _ same)) within within'
  | backtrack =>
      simp only [onStore] at within' ⊢
      rw [Store.backtrack, store.rewind_unwind (fun _ => .of_isResumable) within']
  | _ => rfl

/-- What is still offered after a move, be it pushed by the move, leads back to what it led back to
before. -/
theorem reverted_rewind_onStore {index : Nat} {frame : Frame} (reversible : move.Reversible program)
    (discards : move = .perform .discard → store.topIsChoice = true)
    (offers : (move.onStore store).Offers index frame) (within : index ≤ store.depth) :
    ((move.onStore store).rewind index).reverted program =
      (store.rewind index).reverted program := by
  refine reverted_rewind reversible discards ?_ within
    (Nat.le_of_lt (Stack.lt_depth_of_get? offers.1))
  rintro mark rfl
  obtain ⟨last, found, below⟩ := Store.Offers.lt_of_commit offers
  exact ⟨last, found, Nat.le_of_lt below⟩

end Move

end PatternMachine
