import PatternMachine.Search.Plan

/-!
# Rewinding a store

Failing back takes frames off the stack and writes back what they saved.  `Store.rewind` does so
down to a given depth.  An effect that can be undone leaves alone what rewinding leads to: that is
the whole content of the undo log, and it is stated here once for each effect.
-/

namespace PatternMachine

namespace Frame

/-- Nothing is written back when such a frame is taken off. -/
def IsPlain (frame : Frame) : Prop :=
  ∀ store : Store, store.restore frame = store

theorem IsPlain.of_isResumable {frame : Frame} (resumable : frame.isResumable = true) :
    frame.IsPlain := by
  intro store
  cases frame <;> first | rfl | cases resumable

theorem IsPlain.of_isMark {frame : Frame} {mark : Mark} (isMark : frame.isMark mark = true) :
    frame.IsPlain := by
  intro store
  cases frame <;> first | rfl | cases isMark

@[simp] theorem isMark_withCount (frame : Frame) (count : Nat) (mark : Mark) :
    (frame.withCount count).isMark mark = frame.isMark mark := by
  cases frame <;> rfl

@[simp] theorem isResumable_withCount (frame : Frame) (count : Nat) :
    (frame.withCount count).isResumable = frame.isResumable := by
  cases frame <;> rfl

end Frame

namespace Stack

theorem settle_withCount (frame : Frame) (count : Nat) :
    settle (frame.withCount count) = (settle frame).withCount count := by
  cases frame <;> rfl

theorem setEntryCount_push (stack : Stack) (frame : Frame) (index count : Nat) :
    (stack.push frame).setEntryCount index count =
      if index = stack.depth then stack.push (frame.withCount count)
      else (stack.setEntryCount index count).push frame :=
  stack.modify_push frame index _

/-- Counting in a frame does not disturb the end of a bracket. -/
theorem commit_setEntryCount (stack : Stack) (index count : Nat) (mark : Mark) :
    ((stack.setEntryCount index count).commit mark).2 =
      (stack.commit mark).2.setEntryCount index count := by
  induction stack using push_induction with
  | empty => rfl
  | push stack frame ih =>
      rw [setEntryCount_push]
      by_cases top : index = stack.depth
      · subst top
        rw [if_pos rfl, commit_push, commit_push, Frame.isMark_withCount]
        split
        · rw [setEntryCount_push, if_pos rfl]
          rfl
        · dsimp only
          rw [setEntryCount_push, depth_commit, if_pos rfl, settle_withCount]
      · rw [if_neg top, commit_push, commit_push]
        split
        · rw [setEntryCount_push, if_neg top]
        · dsimp only
          rw [setEntryCount_push, depth_commit, if_neg top, ih]

/-- Counting in a frame does not disturb a test that is blind to counts. -/
theorem lastIndex?_setEntryCount_of_blind {test : Frame → Bool}
    (blind : ∀ frame count, test (frame.withCount count) = test frame) (stack : Stack)
    (index count : Nat) : (stack.setEntryCount index count).lastIndex? test =
      stack.lastIndex? test := by
  induction stack using push_induction with
  | empty => rfl
  | push stack frame ih =>
      rw [setEntryCount_push]
      split
      · rw [lastIndex?_push, lastIndex?_push, blind]
      · rw [lastIndex?_push, lastIndex?_push, ih, depth_setEntryCount]

theorem lastIndex?_setEntryCount (stack : Stack) (index count : Nat) (mark : Mark) :
    (stack.setEntryCount index count).lastIndex? (Frame.isMark mark) =
      stack.lastIndex? (Frame.isMark mark) :=
  lastIndex?_setEntryCount_of_blind (fun frame count => frame.isMark_withCount count mark) stack
    index count

/-- A given-up frame saves nothing, and neither did the frame before it was given up. -/
theorem restore_settle (store : Store) (frame : Frame) :
    store.restore (settle frame) = store.restore frame := by
  cases frame <;> rfl

end Stack

namespace Store

/-- Takes a number of frames off the stack and writes back what they saved. -/
def undo : (count : Nat) → Store → Store
  | 0, store => store
  | count + 1, store =>
      match store.stack.pop? with
      | none => store
      | some (frame, below) => undo count (restore { store with stack := below } frame)

/-- Takes frames off the stack down to a depth, and writes back what they saved. -/
def rewind (store : Store) (depth : Nat) : Store :=
  store.undo (store.depth - depth)

@[simp] theorem rewind_depth (store : Store) : store.rewind store.depth = store := by
  rw [rewind, Nat.sub_self]
  rfl

@[simp] theorem undo_push (store : Store) (frame : Frame) (count : Nat) :
    (store.push frame).undo (count + 1) = (store.restore frame).undo count := by
  rw [undo, push, Stack.pop?_push]

/-- What a frame saved comes first in going back below it. -/
theorem rewind_push (store : Store) (frame : Frame) {depth : Nat} (within : depth ≤ store.depth) :
    (store.push frame).rewind depth = (store.restore frame).rewind depth := by
  rw [rewind, rewind, depth_push, depth_restore,
    show store.depth + 1 - depth = store.depth - depth + 1 by omega, undo_push]

/-- Every store has an empty stack or a frame on top of a stack, and what holds of all stores of the
lower depth holds in particular of the one that the frame restores. -/
theorem push_induction {motive : Store → Prop}
    (empty : ∀ registers, motive ⟨.empty, registers⟩)
    (push : ∀ (store : Store) (frame : Frame),
      (∀ other : Store, other.depth = store.depth → motive other) → motive (store.push frame))
    (store : Store) : motive store := by
  induction sizeEq : store.depth generalizing store with
  | zero =>
      obtain ⟨⟨frames⟩, registers⟩ := store
      obtain rfl := Array.eq_empty_of_size_eq_zero sizeEq
      exact empty registers
  | succ size ih =>
      obtain ⟨stack, registers⟩ := store
      induction stack using Stack.push_induction with
      | empty => cases sizeEq
      | push stack frame _ =>
          have lower : stack.depth = size := by
            have := stack.depth_push frame
            exact Nat.succ.inj (this.symm.trans sizeEq)
          exact push ⟨stack, registers⟩ frame fun other same => ih other (same.trans lower)

@[simp] theorem undo_blank (registers : Registers) (count : Nat) :
    (⟨.empty, registers⟩ : Store).undo count = ⟨.empty, registers⟩ := by
  cases count <;> rfl

/-- What commutes with pushing and with writing back commutes with undoing. -/
theorem undo_map {change : Store → Store} {part : Frame → Frame}
    (empty : ∀ registers, (change ⟨.empty, registers⟩).stack = .empty)
    (push : ∀ store frame, change (store.push frame) = (change store).push (part frame))
    (restore : ∀ store frame, change (store.restore frame) = (change store).restore (part frame))
    (store : Store) (count : Nat) : change (store.undo count) = (change store).undo count := by
  induction store using push_induction generalizing count with
  | empty registers =>
      have blank := empty registers
      rw [undo_blank]
      generalize change ⟨.empty, registers⟩ = changed at blank ⊢
      obtain ⟨stack, registers⟩ := changed
      cases blank
      exact (undo_blank _ count).symm
  | push store frame ih =>
      cases count with
      | zero => rfl
      | succ count => rw [undo_push, ih _ (store.depth_restore frame), push, undo_push, restore]

theorem depth_undo (store : Store) (count : Nat) :
    (store.undo count).depth = store.depth - count := by
  induction store using push_induction generalizing count with
  | empty registers =>
      rw [undo_blank]
      exact (Nat.zero_sub count).symm
  | push store frame ih =>
      cases count with
      | zero => rfl
      | succ count =>
          rw [undo_push, ih _ (store.depth_restore frame), depth_restore, depth_push,
            Nat.add_sub_add_right]

theorem depth_rewind (store : Store) {depth : Nat} (within : depth ≤ store.depth) :
    (store.rewind depth).depth = depth := by
  rw [rewind, depth_undo]
  omega

theorem undo_undo (store : Store) (first second : Nat) :
    (store.undo first).undo second = store.undo (first + second) := by
  induction store using push_induction generalizing first with
  | empty registers => simp
  | push store frame ih =>
      cases first with
      | zero => rw [Nat.zero_add]; rfl
      | succ first =>
          rw [Nat.succ_add, undo_push, undo_push]
          exact ih _ (store.depth_restore frame) first

/-- To go back in two stages is to go back at once. -/
theorem rewind_rewind (store : Store) {low high : Nat} (within : high ≤ store.depth)
    (lower : low ≤ high) : (store.rewind high).rewind low = store.rewind low := by
  rw [rewind, depth_rewind store within, rewind, undo_undo, rewind]
  congr 1
  omega

/-! ### Effects that can be undone -/

section

variable (store : Store) {depth : Nat}

theorem rewind_push_plain {frame : Frame} (plain : frame.IsPlain) (within : depth ≤ store.depth) :
    (store.push frame).rewind depth = store.rewind depth := by
  rw [rewind_push store frame within, plain]

/-- To write the bounds that a group has changes nothing. -/
theorem setGroup_self (group : Nat) :
    store.setGroup group (store.registers.boundsOf group) = store := by
  rw [setGroup, Registers.setGroup, Registers.boundsOf, Registers.setIfInBounds_getD_self]

/-- To write the bounds that a group has had is to undo what was written since. -/
theorem setGroup_boundsOf (group : Nat) (bounds : Bounds) :
    (store.setGroup group bounds).setGroup group (store.registers.boundsOf group) = store := by
  have twice : ∀ last, (store.setGroup group bounds).setGroup group last =
      store.setGroup group last := by
    intro last
    simp only [setGroup, Registers.setGroup, Array.setIfInBounds_setIfInBounds]
  rw [twice, setGroup_self]

theorem rewind_openGroup (group position : Nat) (within : depth ≤ store.depth) :
    (store.openGroup group position).rewind depth = store.rewind depth := by
  have pushed : store.openGroup group position =
      (store.setGroup group ⟨.inFrame store.depth, .unset⟩).push
        (.groupStart group position (store.registers.boundsOf group)) := rfl
  rw [pushed, rewind_push (store.setGroup group _) _ within, restore, setGroup_boundsOf]

theorem rewind_closeGroup (group position : Nat) (within : depth ≤ store.depth) :
    (store.closeGroup group position).rewind depth = store.rewind depth := by
  have pushed : store.closeGroup group position =
      (store.setGroup group
        ⟨(store.registers.boundsOf group).start, .inFrame store.depth⟩).push
          (.groupEnd group position (store.registers.boundsOf group)) := rfl
  rw [pushed, rewind_push (store.setGroup group _) _ within, restore, setGroup_boundsOf]

theorem rewind_clearGroup (group : Nat) (within : depth ≤ store.depth) :
    (store.clearGroup group).rewind depth = store.rewind depth := by
  have pushed : store.clearGroup group =
      (store.setGroup group .unset).push
        (.groupStart group none (store.registers.boundsOf group)) := rfl
  rw [pushed, rewind_push (store.setGroup group _) _ within, restore, setGroup_boundsOf]

end

/-- Writing back what a frame saved does not disturb the end of a bracket. -/
theorem commit_restore (store : Store) (frame : Frame) (mark : Mark) :
    ((store.restore frame).commit mark).2 = ((store.commit mark).2).restore frame := by
  cases frame with
  | entryCount index count =>
      simp only [restore, commit, Stack.commit_setEntryCount]
  | _ => rfl

@[simp] theorem depth_commit (store : Store) (mark : Mark) :
    (store.commit mark).2.depth = store.depth :=
  store.stack.depth_commit mark

/-- The end of a bracket can be undone down to its mark. -/
theorem rewind_commit (store : Store) {mark : Mark} {index depth : Nat}
    (found : store.stack.lastIndex? (Frame.isMark mark) = some index) (lower : depth ≤ index) :
    (store.commit mark).2.rewind depth = store.rewind depth := by
  induction store using push_induction with
  | empty registers => cases found
  | push store frame ih =>
      have within : depth ≤ store.depth := by
        have := Stack.lt_depth_of_lastIndex? found
        have := store.stack.depth_push frame
        simp only [push] at *
        exact Nat.le_trans lower (by unfold Store.depth; omega)
      rw [push, Stack.lastIndex?_push] at found
      have committed := store.stack.commit_push frame mark
      by_cases isMark : frame.isMark mark = true
      · rw [if_pos isMark] at committed
        have pushed : ((store.push frame).commit mark).2 = store.push .void := by
          simp only [commit, push, committed]
        rw [pushed, rewind_push_plain store (fun _ => rfl) within,
          rewind_push_plain store (.of_isMark isMark) within]
      · rw [if_neg isMark] at committed found
        have pushed : ((store.push frame).commit mark).2 =
            (store.commit mark).2.push (Stack.settle frame) := by
          simp only [commit, push, committed]
        rw [pushed, rewind_push _ _ (by rwa [depth_commit]), rewind_push store frame within,
          Stack.restore_settle, ← commit_restore]
        refine ih _ (store.depth_restore frame) ?_
        cases frame with
        | entryCount entry count => exact (Stack.lastIndex?_setEntryCount _ _ _ _).trans found
        | _ => exact found

/-! ### Unwinding is rewinding -/

/-- A frame keeps its place when another one is taken off and what that saved is written back; only
its count may change. -/
theorem get?_restore {store : Store} {frame found : Frame} {index : Nat}
    (read : (store.restore frame).stack.get? index = some found) :
    ∃ original, store.stack.get? index = some original ∧
      (found = original ∨ ∃ count, found = original.withCount count) := by
  cases frame with
  | entryCount entry count =>
      simp only [restore, Stack.setEntryCount, Stack.get?_modify] at read
      split at read
      · obtain ⟨original, readOriginal, rfl⟩ := Option.map_eq_some_iff.1 read
        exact ⟨original, readOriginal, .inr ⟨count, rfl⟩⟩
      · exact ⟨found, read, .inl rfl⟩
  | _ => exact ⟨found, read, .inl rfl⟩

/-- Frames that fail the test may be taken off before unwinding. -/
theorem unwind_rewind {test : Frame → Bool}
    (blind : ∀ frame count, test (frame.withCount count) = test frame) {store : Store} {depth : Nat}
    (within : depth ≤ store.depth)
    (fails : ∀ index frame, depth ≤ index → store.stack.get? index = some frame →
      test frame = false) :
    (store.rewind depth).unwind test = store.unwind test := by
  induction store using push_induction with
  | empty registers =>
      obtain rfl := Nat.le_zero.1 within
      rfl
  | push store frame ih =>
      by_cases whole : depth = (store.push frame).depth
      · rw [whole, rewind_depth]
      · rw [depth_push] at within whole
        have lower : depth ≤ store.depth := by omega
        have top : test frame = false := by
          refine fails store.depth frame lower ?_
          exact (store.stack.get?_push frame store.depth).trans (if_pos rfl)
        rw [rewind_push store frame lower, unwind_push,
          if_neg (by rw [top]; exact Bool.noConfusion)]
        refine ih _ (store.depth_restore frame) (by rwa [depth_restore]) ?_
        intro index found above read
        obtain ⟨original, readOriginal, same⟩ := get?_restore read
        have passed : test found = test original := by
          rcases same with rfl | ⟨count, rfl⟩
          · rfl
          · exact blind original count
        rw [passed]
        refine fails index original above ?_
        have inside : index ≠ store.depth := by
          rintro rfl
          rw [Store.depth, Stack.get?_eq_none (Nat.le_refl _)] at readOriginal
          cases readOriginal
        exact (store.stack.get?_push frame index).trans ((if_neg inside).trans readOriginal)

/-- Unwinding to a frame that saved nothing goes back to the depth of that frame. -/
theorem unwind_eq_rewind {test : Frame → Bool} (plain : ∀ frame, test frame = true → frame.IsPlain)
    (store : Store) :
    (store.unwind test).2.depth ≤ store.depth ∧
      (store.unwind test).2 = store.rewind (store.unwind test).2.depth := by
  induction store using push_induction with
  | empty registers =>
      rw [unwind_blank]
      exact ⟨Nat.le_refl _, rfl⟩
  | push store frame ih =>
      rw [unwind_push]
      split
      · next passes =>
          refine ⟨?_, ?_⟩
          · rw [depth_push]
            exact Nat.le_succ _
          · dsimp only
            rw [rewind_push_plain _ (plain frame passes) (Nat.le_refl _), rewind_depth]
      · obtain ⟨lower, same⟩ := ih _ (store.depth_restore frame)
        rw [depth_restore] at lower
        refine ⟨?_, ?_⟩
        · rw [depth_push]
          exact Nat.le_succ_of_le lower
        · rw [rewind_push store frame lower]
          exact same

end Store

/-- No more than one frame is pushed at once, and only by an effect that asks for room. -/
theorem Effect.depth_onStore (store : Store) (effect : Effect) :
    if effect.needsRoom then (effect.onStore store).depth = store.depth + 1
    else (effect.onStore store).depth ≤ store.depth := by
  cases effect with
  | push frame | openGroup group position | closeGroup group position | clearGroup group
  | enterRepeat id body | countInRegister id => exact store.depth_push _
  | countInEntry index =>
      have counted : (store.countInEntry index).depth = store.depth + 1 := by
        rw [Store.depth, Store.countInEntry, Stack.depth_push, Stack.depth_setEntryCount]
        rfl
      exact counted
  | note event | setGroup group bounds => exact Nat.le_refl _
  | commit mark => exact Nat.le_of_eq (store.depth_commit mark)
  | unwindTo mark => exact (Store.unwind_eq_rewind (fun _ => Frame.IsPlain.of_isMark) store).1
  | discard =>
      have discarded : store.discard.2.depth ≤ store.depth := by
        unfold Store.discard
        split
        · exact Nat.zero_le _
        · next frame below popped =>
            rw [Store.depth, Store.depth, Stack.depth_of_pop? popped]
            exact Nat.le_succ _
      exact discarded

end PatternMachine
