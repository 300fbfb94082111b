import PatternMachine.Proofs.Frames

/-!
# What the undo log records

Of a store, the log records where groups lie and which entries of repeats are active.  Choices and
marks are no part of that: they may be given up while what lies below them is still to be restored.
`Store.record` is a store without them.  Writing back commutes with it, so two stores with the same
record are still the same record after both were rewound.
-/

namespace PatternMachine

/-- A frame without what the log does not record: a choice or a mark is as good as given up. -/
def Frame.record (frame : Frame) : Frame :=
  if frame.isResumable || frame.mark?.isSome then .void else frame

/-- A register without the address of the body, which every entry writes anew. -/
def RepeatRegister.record (register : RepeatRegister) : RepeatRegister :=
  { register with body := 0 }

namespace Frame

theorem record_withCount (frame : Frame) (count : Nat) :
    (frame.withCount count).record = frame.record.withCount count := by
  cases frame <;> rfl

@[simp] theorem position?_record (frame : Frame) : frame.record.position? = frame.position? := by
  cases frame <;> rfl

theorem record_settle (frame : Frame) : (Stack.settle frame).record = frame.record := by
  cases frame <;> rfl

theorem record_of_isMark {frame : Frame} {mark : Mark} (isMark : frame.isMark mark = true) :
    frame.record = .void := by
  cases frame <;> first | rfl | cases isMark

end Frame

/-- A store whose registers do not tell where the bodies of repeats start. -/
def Store.forgetBodies (store : Store) : Store :=
  ⟨store.stack,
    { store.registers with repeats := store.registers.repeats.map RepeatRegister.record }⟩

/-- A stack without choices and marks. -/
def Stack.record (stack : Stack) : Stack :=
  ⟨stack.frames.map Frame.record⟩

/-- A store without what the log does not record. -/
def Store.record (store : Store) : Store :=
  ⟨store.stack.record,
    { store.registers with repeats := store.registers.repeats.map RepeatRegister.record }⟩

namespace Stack

@[simp] theorem get?_record (stack : Stack) (index : Nat) :
    stack.record.get? index = (stack.get? index).map Frame.record :=
  stack.get?_map Frame.record index

theorem record_push (stack : Stack) (frame : Frame) :
    (stack.push frame).record = stack.record.push frame.record :=
  stack.map_push Frame.record frame

@[simp] theorem depth_record (stack : Stack) : stack.record.depth = stack.depth :=
  stack.depth_map Frame.record

theorem record_setEntryCount (stack : Stack) (index count : Nat) :
    (stack.setEntryCount index count).record = stack.record.setEntryCount index count :=
  stack.map_setEntryCount Frame.record Frame.record_withCount index count

/-- The end of a bracket changes nothing that is recorded. -/
theorem record_commit (stack : Stack) (mark : Mark) :
    (stack.commit mark).2.record = stack.record := by
  apply ext_get?
  intro other
  rw [get?_record, get?_record]
  have settled : ∀ found : Option Frame,
      (found.map settle).map Frame.record = found.map Frame.record := by
    intro found
    cases found with
    | none => rfl
    | some frame => exact congrArg some frame.record_settle
  cases found : stack.lastIndex? (Frame.isMark mark) with
  | some index =>
      rw [get?_commit found]
      split
      · rfl
      split
      · next same =>
          obtain ⟨frame, read, isMark⟩ := get?_of_lastIndex? found
          rw [same, read]
          exact congrArg some (Frame.record_of_isMark isMark).symm
      · exact settled _
  | none =>
      rw [commit, found]
      dsimp only
      rw [get?_settleFrom, if_pos (Nat.zero_le other)]
      exact settled _

end Stack

namespace Store

theorem repeatOf_forgetBodies (store : Store) (id : Nat) :
    store.forgetBodies.registers.repeatOf id = (store.registers.repeatOf id).record := by
  simp only [forgetBodies, Registers.repeatOf, Array.getD_eq_getD_getElem?, Array.getElem?_map]
  cases store.registers.repeats[id]? <;> rfl

theorem forgetBodies_setRepeat (store : Store) (id : Nat) (register : RepeatRegister) :
    (store.setRepeat id register).forgetBodies =
      store.forgetBodies.setRepeat id register.record := by
  simp only [forgetBodies, setRepeat, Registers.setRepeat, Array.map_setIfInBounds]

theorem forgetBodies_restore (store : Store) (frame : Frame) :
    (store.restore frame).forgetBodies = store.forgetBodies.restore frame := by
  cases frame with
  | repeatEntry id count body outer savedCount | registerCount id savedCount =>
      simp only [restore, forgetBodies_setRepeat, repeatOf_forgetBodies]
      rfl
  | _ => rfl

/-- Where bodies start is never written back, so it may be forgotten before or after. -/
theorem forgetBodies_rewind (store : Store) (depth : Nat) :
    (store.rewind depth).forgetBodies = store.forgetBodies.rewind depth :=
  undo_map (fun _ => rfl) (fun _ _ => rfl) forgetBodies_restore store (store.depth - depth)

theorem record_forgetBodies (store : Store) : store.forgetBodies.record = store.record := by
  simp only [record, forgetBodies, Array.map_map]
  rfl

theorem record_congr {left right : Store} (same : left.forgetBodies = right.forgetBodies) :
    left.record = right.record := by
  rw [← left.record_forgetBodies, same, record_forgetBodies]

@[simp] theorem depth_record (store : Store) : store.record.depth = store.depth :=
  store.stack.depth_record

theorem record_push (store : Store) (frame : Frame) :
    (store.push frame).record = store.record.push frame.record := by
  rw [record, push, Stack.record_push]
  rfl

theorem repeatOf_record (store : Store) (id : Nat) :
    store.record.registers.repeatOf id = (store.registers.repeatOf id).record := by
  simp only [record, Registers.repeatOf, Array.getD_eq_getD_getElem?, Array.getElem?_map]
  cases store.registers.repeats[id]? <;> rfl

theorem record_setRepeat (store : Store) (id : Nat) (register : RepeatRegister) :
    (store.setRepeat id register).record = store.record.setRepeat id register.record := by
  simp only [record, setRepeat, Registers.setRepeat, Array.map_setIfInBounds]

/-- Writing back is the same for a store and its record. -/
theorem record_restore (store : Store) (frame : Frame) :
    (store.restore frame).record = store.record.restore frame.record := by
  cases frame with
  | repeatEntry id count body outer savedCount =>
      simp only [restore, Frame.record, record_setRepeat]
      rw [if_neg Bool.noConfusion]
      simp only [repeatOf_record]
      rfl
  | registerCount id savedCount =>
      simp only [restore, Frame.record, record_setRepeat]
      rw [if_neg Bool.noConfusion]
      simp only [repeatOf_record]
      rfl
  | entryCount index savedCount =>
      simp only [restore, Frame.record, record]
      rw [Stack.record_setEntryCount, if_neg Bool.noConfusion]
  | _ => rfl

theorem record_undo (store : Store) (count : Nat) :
    (store.undo count).record = store.record.undo count :=
  undo_map (fun _ => congrArg Stack.mk Array.map_empty) record_push record_restore store count

theorem record_rewind (store : Store) (depth : Nat) :
    (store.rewind depth).record = store.record.rewind depth := by
  rw [rewind, record_undo, rewind, depth_record]

@[simp] theorem captures_record (store : Store) : store.record.captures = store.captures := by
  have same : ∀ bound, store.record.resolve? bound = store.resolve? bound := by
    intro bound
    cases bound with
    | inFrame index =>
        simp only [resolve?, record, Stack.get?_record]
        cases store.stack.get? index with
        | none => rfl
        | some frame => exact frame.position?_record
    | _ => rfl
  funext group
  exact Prod.ext (same _) (same _)

end Store

end PatternMachine
