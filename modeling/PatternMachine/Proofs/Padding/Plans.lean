import PatternMachine.Proofs.Dispatch
import PatternMachine.Proofs.Padding.Stores

/-!
# Plans made of padded stores

An instruction makes the same plan of a store and of one that pads it, but for references to frames
(`Plan.ofInstruction_pads`).  The exception is the one that throws the top frame away, whatever that
is.
-/

namespace PatternMachine

/-- A plan with the references in its effects changed. -/
def Plan.renumber (place : Nat → Nat) (plan : Plan) : Plan :=
  ⟨plan.effects.map (Effect.renumber place), plan.exit⟩

namespace Plan

variable {place : Nat → Nat} {attempt : Attempt} {point : Point} {instruction : Instruction}

theorem renumber_eq {plan : Plan}
    (free : ∀ effect ∈ plan.effects, effect.renumber place = effect) :
    plan.renumber place = plan := by
  have same : plan.effects.map (Effect.renumber place) = plan.effects :=
    (List.map_congr_left free).trans (List.map_id _)
  rw [renumber, same]

theorem renumber_afterIteration (range : RepeatRange) (count body : Nat) (greedy : Bool)
    (record : Effect) :
    (afterIteration point range count body greedy record).renumber place =
      afterIteration point range count body greedy (record.renumber place) := by
  unfold afterIteration
  repeat' split
  all_goals rfl

section

variable {barren : Point → Bool} {left right : Store} (pads : left.Pads barren place right)

include pads

theorem openGroup_pads (group : Nat) (logged : Bool) :
    openGroup attempt point right group logged =
      (openGroup attempt point left group logged).renumber place := by
  simp only [openGroup, pads.boundsOf_eq]
  cases logged <;> split <;> rfl

theorem closeGroup_pads (group : Nat) (logged : Bool) :
    closeGroup attempt point right group logged =
      (closeGroup attempt point left group logged).renumber place := by
  simp only [closeGroup, pads.boundsOf_eq]
  cases logged <;> split <;> rfl

theorem backReference_pads (reference : BackReference) :
    backReference attempt point right reference =
      (backReference attempt point left reference).renumber place := by
  have same := @BackReference.repeat?_congr attempt attempt left right rfl (fun _ => rfl)
    pads.span?_eq rfl pads.stack.spanAtLevel?_eq point.cursor.position reference
  rw [backReference, backReference, same]
  cases reference.repeat? attempt left point.cursor.position with
  | error reason => rfl
  | ok stop => cases stop <;> rfl

theorem iterationEmpty_pads (rooted : left.Rooted) {index : Nat} (inside : index < left.depth)
    (watched : Option (List Nat)) :
    iterationEmpty point right (place index) watched =
      iterationEmpty point left index watched := by
  obtain ⟨place', read⟩ := pads.stack.exists_get? index
  unfold iterationEmpty
  rw [read]
  cases left.stack.get? index with
  | none => rfl
  | some frame =>
      cases frame with
      | emptyCheck id position =>
          cases watched with
          | none => rfl
          | some groups =>
              exact congrArg (position == point.cursor.position && ·)
                (pads.groupsUnchanged_eq rooted inside groups)
      | _ => rfl

theorem emptyCheckEnd_pads (rooted : left.Rooted) (id : Nat) (watched : Option (List Nat)) :
    emptyCheckEnd attempt point right id watched =
      (emptyCheckEnd attempt point left id watched).renumber place := by
  rw [emptyCheckEnd, emptyCheckEnd, pads.stack.emptyCheck?_eq]
  split
  · cases found : left.stack.emptyCheck? id with
    | none => rfl
    | some index =>
        have inside : index < left.depth := Stack.lt_depth_of_lastIndex? found
        simp only [Option.map_some, iterationEmpty_pads pads rooted inside]
        repeat' split
        all_goals rfl
  · rfl

theorem repeatNext_pads (id : Nat) (greedy direct : Bool) :
    repeatNext attempt point right id greedy direct =
      (repeatNext attempt point left id greedy direct).renumber place := by
  rw [repeatNext, repeatNext, pads.repeatOf_eq]
  cases attempt.program.repeatRanges[id]? with
  | none => rfl
  | some range =>
      dsimp only [RepeatRegister.renumber]
      cases (left.registers.repeatOf id).entry with
      | none => rfl
      | some index =>
          rw [Option.map_some]
          dsimp only
          rw [pads.stack.entry?_eq]
          split
          · exact (renumber_afterIteration _ _ _ _ (.countInRegister id)).symm
          · cases Stack.entry? left.stack index with
            | none => rfl
            | some entry => exact (renumber_afterIteration _ _ _ _ (.countInEntry index)).symm

/-- Where nothing is thrown away, padding makes no difference to an instruction but for the places of
frames. -/
theorem ofInstruction_pads (rooted : left.Rooted) (noPop : instruction ≠ .pop) :
    ofInstruction attempt point right instruction =
      (ofInstruction attempt point left instruction).renumber place := by
  cases instruction with
  | openGroup group logged => exact openGroup_pads pads group logged
  | closeGroup group logged => exact closeGroup_pads pads group logged
  | backReference reference => exact backReference_pads pads reference
  | emptyCheckEnd id watched => exact emptyCheckEnd_pads pads rooted id watched
  | repeatNext id greedy direct => exact repeatNext_pads pads id greedy direct
  | lookEnd =>
      simp only [ofInstruction, lookEnd, pads.stack.lookCursor?_eq]
      cases left.stack.lookCursor? <;> rfl
  | atomicEnd =>
      simp only [ofInstruction, atomicEnd, pads.stack.hasMark_eq]
      split <;> rfl
  | lookNotFail | lookBehindNotFail =>
      simp only [ofInstruction, excluded, pads.stack.hasMark_eq]
      split <;> rfl
  | callReturn =>
      simp only [ofInstruction, callReturn, pads.stack.returnAddress?_eq]
      cases left.stack.returnAddress? <;> rfl
  | pop => exact absurd rfl noPop
  | _ =>
      refine (renumber_eq fun effect mem => ?_).symm
      cases Attempt.causes_of_mem_effects mem <;> rfl

end

end Plan

end PatternMachine
