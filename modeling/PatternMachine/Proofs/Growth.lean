import PatternMachine.Proofs.Rewind
import Mathlib.Logic.Function.Basic

/-!
# Growth of a store

While a well-bracketed piece of a program runs, the store only grows: what was there lies below,
rewinding leads back to it, and every bracket that was opened since is closed again.  `Store.Grown`
says so.  When such a piece ends a bracket, the mark it looks for is therefore the one right above
what was there when the bracket was opened.
-/

namespace PatternMachine

namespace Stack

theorem lt_depth_of_get? {stack : Stack} {index : Nat} {frame : Frame}
    (read : stack.get? index = some frame) : index < stack.depth := by
  apply Nat.lt_of_not_le
  intro outside
  rw [get?_eq_none outside] at read
  cases read

theorem get?_depth_push (stack : Stack) (frame : Frame) :
    (stack.push frame).get? stack.depth = some frame :=
  (stack.get?_push frame stack.depth).trans (if_pos rfl)

/-- An answer among the frames above an index is that of one of them. -/
theorem exists_of_firstFrom? {Answer : Type} {stack : Stack} {ask : Frame → Option Answer}
    {index count : Nat} {answer : Answer} (found : stack.firstFrom? ask index count = some answer) :
    ∃ (other : Nat) (frame : Frame), stack.get? other = some frame ∧ ask frame = some answer := by
  induction count generalizing index with
  | zero => cases found
  | succ count ih =>
      rw [firstFrom?] at found
      split at found
      · next answer' here =>
          cases found
          obtain ⟨frame, read, asked⟩ := Option.bind_eq_some_iff.1 here
          exact ⟨index, frame, read, asked⟩
      · exact ih found

theorem get?_push_of_lt (stack : Stack) (frame : Frame) {index : Nat}
    (below : index < stack.depth) : (stack.push frame).get? index = stack.get? index :=
  (stack.get?_push frame index).trans (if_neg (Nat.ne_of_lt below))

/-- The last index is the one above which every frame fails the test. -/
theorem lastIndex?_eq_some {stack : Stack} {test : Frame → Bool} {index : Nat} {frame : Frame}
    (read : stack.get? index = some frame) (passes : test frame = true)
    (above : ∀ other found, index < other → stack.get? other = some found → test found = false) :
    stack.lastIndex? test = some index := by
  induction stack using push_induction with
  | empty => cases read
  | push stack top ih =>
      rw [lastIndex?_push]
      by_cases atTop : index = stack.depth
      · subst atTop
        rw [get?_depth_push] at read
        cases read
        rw [if_pos passes]
      · have below : index < stack.depth := by
          have := lt_depth_of_get? read
          rw [depth_push] at this
          omega
        rw [get?_push_of_lt _ _ below] at read
        have topFails := above stack.depth top below (get?_depth_push stack top)
        rw [if_neg (by rw [topFails]; exact Bool.noConfusion)]
        apply ih read
        intro other found higher readOther
        apply above other found higher
        rw [get?_push_of_lt _ _ (lt_depth_of_get? readOther)]
        exact readOther

/-- From any frame that passes a test one can look down from the top and find one that does. -/
theorem exists_lastIndex? {stack : Stack} {test : Frame → Bool} {index : Nat} {frame : Frame}
    (read : stack.get? index = some frame) (passes : test frame = true) :
    ∃ last, index ≤ last ∧ stack.lastIndex? test = some last := by
  induction stack using push_induction with
  | empty => cases read
  | push stack top ih =>
      rw [lastIndex?_push]
      have within : index ≤ stack.depth := by
        have inside := lt_depth_of_get? read
        rw [depth_push] at inside
        exact Nat.le_of_lt_succ inside
      by_cases atTop : test top = true
      · exact ⟨stack.depth, within, if_pos atTop⟩
      · have below : index < stack.depth := by
          refine Nat.lt_of_le_of_ne within ?_
          rintro rfl
          rw [get?_depth_push] at read
          cases read
          exact atTop passes
        rw [get?_push_of_lt _ _ below] at read
        rw [if_neg atTop]
        exact ih read

theorem lookCursor?_eq_some {stack : Stack} {index : Nat} {cursor : Cursor}
    (found : stack.lastIndex? (Frame.isMark .look) = some index)
    (read : stack.get? index = some (.look cursor)) : stack.lookCursor? = some cursor := by
  induction stack using push_induction with
  | empty => cases read
  | push stack top ih =>
      rw [lastIndex?_push] at found
      rw [lookCursor?_push]
      by_cases isLook : top.isMark .look = true
      · rw [if_pos isLook] at found
        cases found
        rw [get?_depth_push] at read
        cases read
        rfl
      · rw [if_neg isLook] at found
        rw [get?_push_of_lt _ _ (lt_depth_of_lastIndex? found)] at read
        cases top with
        | look cursor => exact absurd rfl isLook
        | _ => exact ih found read

/-- What the end of a bracket makes of each frame. -/
theorem get?_commit {stack : Stack} {mark : Mark} {index : Nat}
    (found : stack.lastIndex? (Frame.isMark mark) = some index) (other : Nat) :
    (stack.commit mark).2.get? other =
      if other < index then stack.get? other
      else if other = index then some .void
      else (stack.get? other).map settle := by
  have inside := lt_depth_of_lastIndex? found
  rw [commit, found]
  dsimp only
  rw [get?_modify, get?_settleFrom]
  split
  · next same =>
      subst same
      obtain ⟨frame, read, _⟩ := get?_of_lastIndex? found
      rw [read, if_neg (Nat.not_succ_le_self index),
        if_neg (Nat.lt_irrefl index), if_pos rfl]
      rfl
  · grind

end Stack

namespace Frame

/-- A frame that is no open bracket, unless it is an iteration that one of a range of
empty-iteration checks has started. -/
def Closed (first last : Nat) : Frame → Prop
  | .emptyCheck id _ => first ≤ id ∧ id < last
  | other => other.mark? = none

theorem Closed.mono {first last first' last' : Nat} {frame : Frame}
    (closed : frame.Closed first last) (lower : first' ≤ first) (higher : last ≤ last') :
    frame.Closed first' last' := by
  cases frame with
  | emptyCheck id position =>
      exact ⟨Nat.le_trans lower closed.1, Nat.lt_of_lt_of_le closed.2 higher⟩
  | _ => exact closed

theorem Closed.of_withCount {first last count : Nat} {frame : Frame}
    (closed : (frame.withCount count).Closed first last) : frame.Closed first last := by
  cases frame <;> exact closed

theorem Closed.isMark_eq_false {first last : Nat} {frame : Frame} {mark : Mark}
    (closed : frame.Closed first last) (other : mark ≠ .emptyCheck) :
    frame.isMark mark = false := by
  cases frame <;> cases mark <;> first | rfl | exact absurd rfl other | cases closed

/-- A closed frame is closed after it was given up, too. -/
theorem Closed.settle {first last : Nat} {frame : Frame} (closed : frame.Closed first last) :
    (Stack.settle frame).Closed first last := by
  cases frame <;> first | exact closed | rfl

theorem isResumable_settle (frame : Frame) : (Stack.settle frame).isResumable = false := by
  cases frame <;> rfl

theorem position?_settle (frame : Frame) : (Stack.settle frame).position? = frame.position? := by
  cases frame <;> rfl

/-- A frame that passes a test with another count has not changed, if the test is for other frames
than entries of repeats. -/
theorem eq_of_withCount {test : Frame → Bool} {frame : Frame} {count : Nat}
    (refuses : ∀ id count body outer savedCount,
      test (.repeatEntry id count body outer savedCount) = false)
    (passes : test (frame.withCount count) = true) : frame.withCount count = frame := by
  cases frame with
  | repeatEntry id old body outer savedCount =>
      rw [withCount, refuses] at passes
      cases passes
  | _ => rfl

end Frame

namespace Store

/-- The positions at which a group starts and ends, as far as they are set. -/
def captures (store : Store) (group : Nat) : Option Nat × Option Nat :=
  store.resolveBounds (store.registers.boundsOf group)

theorem boundsOf_reset (store : Store) (group : Nat) :
    store.reset.registers.boundsOf group = .unset := by
  simp only [reset, Registers.reset, Registers.blank, Registers.boundsOf,
    Array.getD_eq_getD_getElem?, Array.getElem?_replicate]
  split <;> rfl

/-- No register refers to a frame that is not there. -/
def Grounded (store : Store) : Prop :=
  ∀ group index, (store.registers.boundsOf group).start = .inFrame index ∨
    (store.registers.boundsOf group).stop = .inFrame index → index < store.depth

theorem get?_rewind {store : Store} {depth index : Nat} {found : Frame}
    (read : (store.rewind depth).stack.get? index = some found) :
    ∃ original, store.stack.get? index = some original ∧
      (found = original ∨ ∃ count, found = original.withCount count) := by
  rw [rewind] at read
  induction store using push_induction generalizing depth found with
  | empty registers =>
      rw [undo_blank] at read
      cases read
  | push store frame ih =>
      by_cases whole : (store.push frame).depth - depth = 0
      · rw [whole] at read
        exact ⟨found, read, .inl rfl⟩
      · rw [depth_push] at whole read
        rw [show store.depth + 1 - depth = store.depth - depth + 1 by omega, undo_push,
          ← depth_restore store frame] at read
        obtain ⟨middle, readMiddle, same⟩ := ih _ (store.depth_restore frame) read
        obtain ⟨original, readOriginal, same'⟩ := get?_restore readMiddle
        refine ⟨original, ?_, ?_⟩
        · rw [← readOriginal]
          exact store.stack.get?_push_of_lt frame (Stack.lt_depth_of_get? readOriginal)
        · rcases same with rfl | ⟨count, rfl⟩
          · exact same'
          · rcases same' with rfl | ⟨count', rfl⟩
            · exact .inr ⟨count, rfl⟩
            · refine .inr ⟨count, ?_⟩
              cases original <;> rfl

theorem groupSlots_restore (store : Store) (frame : Frame) :
    (store.restore frame).registers.groups.size = store.registers.groups.size := by
  cases frame <;> simp [restore, setGroup, setRepeat, Registers.setGroup, Registers.setRepeat]

theorem groupSlots_rewind (store : Store) (depth : Nat) :
    (store.rewind depth).registers.groups.size = store.registers.groups.size := by
  rw [rewind]
  generalize store.depth - depth = count
  induction store using push_induction generalizing count with
  | empty registers => rw [undo_blank]
  | push store frame ih =>
      cases count with
      | zero => rfl
      | succ count =>
          rw [undo_push, ih _ (store.depth_restore frame), groupSlots_restore]
          rfl

/-- `grown` is what has become of `base`: more frames, none of them an open bracket but iterations
that the empty-iteration checks from `first` up to `last` have started, and all of them can be
undone. -/
structure Grown (first last : Nat) (base grown : Store) : Prop where
  deeper : base.depth ≤ grown.depth
  rewinds : grown.rewind base.depth = base
  grounded : grown.Grounded
  closed : ∀ index frame, base.depth ≤ index → grown.stack.get? index = some frame →
    frame.Closed first last

variable {first last : Nat} {base grown : Store}

namespace Grown

theorem refl (grounded : base.Grounded) : Grown first last base base where
  deeper := Nat.le_refl _
  rewinds := rewind_depth base
  grounded := grounded
  closed := by
    intro index frame outside read
    exact absurd (Stack.lt_depth_of_get? read) (Nat.not_lt.2 outside)

theorem mono {first' last' : Nat} (growth : Grown first last base grown) (lower : first' ≤ first)
    (higher : last ≤ last') : Grown first' last' base grown where
  deeper := growth.deeper
  rewinds := growth.rewinds
  grounded := growth.grounded
  closed := fun index frame above read => (growth.closed index frame above read).mono lower higher

theorem trans {top : Store} (growth : Grown first last base grown)
    (further : Grown first last grown top) : Grown first last base top where
  deeper := Nat.le_trans growth.deeper further.deeper
  rewinds := by
    rw [← rewind_rewind top further.deeper growth.deeper, further.rewinds, growth.rewinds]
  grounded := further.grounded
  closed := by
    intro index frame above read
    by_cases high : grown.depth ≤ index
    · exact further.closed index frame high read
    · -- The frame was there before, except for its count.
      have inside : index < grown.depth := Nat.lt_of_not_le high
      obtain ⟨lower, readLower⟩ : ∃ lower, grown.stack.get? index = some lower :=
        ⟨_, Array.getElem?_eq_getElem inside⟩
      have closed := growth.closed index lower above readLower
      rw [← further.rewinds] at readLower
      obtain ⟨original, readOriginal, same⟩ := get?_rewind readLower
      rw [read] at readOriginal
      obtain rfl := Option.some.inj readOriginal
      rcases same with rfl | ⟨count, rfl⟩
      · exact closed
      · exact closed.of_withCount

theorem groupSlots (growth : Grown first last base grown) :
    grown.registers.groups.size = base.registers.groups.size := by
  rw [← groupSlots_rewind grown base.depth, growth.rewinds]

end Grown

/-! ### What makes a store grow -/

theorem captures_push (grounded : base.Grounded) (frame : Frame) :
    (base.push frame).captures = base.captures := by
  funext group
  have same : ∀ bound, (∀ index, bound = .inFrame index → index < base.depth) →
      (base.push frame).resolve? bound = base.resolve? bound := by
    intro bound inside
    cases bound with
    | inFrame index =>
        simp only [resolve?]
        congr 1
        exact base.stack.get?_push_of_lt frame (inside index rfl)
    | _ => rfl
  exact Prod.ext
    (same _ fun index isIndex => grounded group index (.inl isIndex))
    (same _ fun index isIndex => grounded group index (.inr isIndex))

theorem Grounded.push (grounded : base.Grounded) (frame : Frame) : (base.push frame).Grounded := by
  intro group index refers
  rw [depth_push]
  exact Nat.lt_succ_of_lt (grounded group index refers)

/-- One closed frame more is growth, if it can be undone. -/
theorem Grown.of_stack_eq_push {store : Store} {frame : Frame}
    (stack : store.stack = base.stack.push frame) (rewinds : store.rewind base.depth = base)
    (grounded : store.Grounded) (closed : frame.Closed first last) :
    Grown first last base store where
  deeper := by
    rw [Store.depth, Store.depth, stack, Stack.depth_push]
    exact Nat.le_succ _
  rewinds := rewinds
  grounded := grounded
  closed := by
    intro index found above read
    rw [stack] at read
    rw [Stack.eq_of_get?_push above read]
    exact closed

theorem Grown.push (grounded : base.Grounded) {frame : Frame} (plain : frame.IsPlain)
    (closed : frame.Closed first last) : Grown first last base (base.push frame) := by
  apply Grown.of_stack_eq_push rfl _ (grounded.push frame) closed
  rw [rewind_push_plain base plain (Nat.le_refl _), rewind_depth]

theorem boundsOf_setGroup (store : Store) {group : Nat} (bounds : Bounds) (other : Nat)
    (inside : group < store.registers.groups.size) :
    (store.setGroup group bounds).registers.boundsOf other =
      if other = group then bounds else store.registers.boundsOf other := by
  simp only [setGroup, Registers.setGroup, Registers.boundsOf, Array.getD_eq_getD_getElem?,
    Array.getElem?_setIfInBounds]
  by_cases same : other = group
  · subst same
    simp [inside]
  · rw [if_neg same, if_neg fun equal => same equal.symm]

theorem boundsOf_setGroup_or (store : Store) (group : Nat) (bounds : Bounds) (other : Nat) :
    (store.setGroup group bounds).registers.boundsOf other = store.registers.boundsOf other ∨
      other = group ∧ (store.setGroup group bounds).registers.boundsOf other = bounds := by
  by_cases inside : group < store.registers.groups.size
  · rw [boundsOf_setGroup store bounds other inside]
    split
    · next own => exact .inr ⟨own, rfl⟩
    · exact .inl rfl
  · left
    have same : store.setGroup group bounds = store := by
      simp only [setGroup, Registers.setGroup,
        Array.setIfInBounds_eq_of_size_le (Nat.not_lt.1 inside)]
    rw [same]

/-- What is written into the bounds of one group leaves the captures of the others alone. -/
theorem captures_setGroup (store : Store) {group : Nat} (bounds : Bounds)
    (inside : group < store.registers.groups.size) :
    (store.setGroup group bounds).captures =
      Function.update store.captures group (store.resolveBounds bounds) := by
  funext other
  have same : ∀ bounds', (store.setGroup group bounds).resolveBounds bounds' =
      store.resolveBounds bounds' := by
    intro bounds'
    rfl
  rw [captures, same, boundsOf_setGroup store bounds other inside]
  by_cases own : other = group
  · subst own
    rw [if_pos rfl, Function.update_self]
  · rw [if_neg own, Function.update_of_ne own]
    rfl

theorem Grounded.setGroup {store : Store} (grounded : store.Grounded) {group : Nat}
    {bounds : Bounds}
    (inside : group < store.registers.groups.size)
    (refers : ∀ index, bounds.start = .inFrame index ∨ bounds.stop = .inFrame index →
      index < store.depth) : (store.setGroup group bounds).Grounded := by
  intro other index isIndex
  rw [boundsOf_setGroup store bounds other inside] at isIndex
  split at isIndex
  · exact refers index isIndex
  · exact grounded other index isIndex

/-- The frame pushed last holds the position that a register refers to. -/
theorem resolve?_depth_push (store : Store) (frame : Frame) :
    (store.push frame).resolve? (.inFrame store.depth) = frame.position? := by
  rw [resolve?, Store.push, Store.depth, Stack.get?_depth_push]
  rfl

theorem captures_openGroup (grounded : base.Grounded) {group : Nat} (position : Nat)
    (inside : group < base.registers.groups.size) :
    (base.openGroup group position).captures =
      Function.update base.captures group (some position, none) := by
  unfold openGroup
  dsimp only
  rw [captures_setGroup (base.push _) _ inside, captures_push grounded, resolveBounds,
    resolve?_depth_push]
  rfl

theorem captures_closeGroup (grounded : base.Grounded) {group : Nat} (position : Nat)
    (inside : group < base.registers.groups.size) :
    (base.closeGroup group position).captures =
      Function.update base.captures group ((base.captures group).1, some position) := by
  unfold closeGroup
  dsimp only
  rw [captures_setGroup (base.push _) _ inside, captures_push grounded, resolveBounds,
    resolve?_depth_push]
  have start := congrArg Prod.fst
    (congrFun (captures_push grounded
      (.groupEnd group position (base.registers.boundsOf group))) group)
  congr 2

theorem Grown.openGroup (grounded : base.Grounded) {group : Nat} (position : Nat)
    (inside : group < base.registers.groups.size) :
    Grown first last base (base.openGroup group position) := by
  apply Grown.of_stack_eq_push rfl
  · rw [rewind_openGroup base group position (Nat.le_refl _), rewind_depth]
  · apply (grounded.push _).setGroup inside
    intro index isIndex
    rcases isIndex with isIndex | isIndex
    · cases isIndex
      exact Nat.lt_of_lt_of_eq (Nat.lt_succ_self _) (base.depth_push _).symm
    · cases isIndex
  · rfl

theorem Grown.closeGroup (grounded : base.Grounded) {group : Nat} (position : Nat)
    (inside : group < base.registers.groups.size) :
    Grown first last base (base.closeGroup group position) := by
  apply Grown.of_stack_eq_push rfl
  · rw [rewind_closeGroup base group position (Nat.le_refl _), rewind_depth]
  · apply (grounded.push _).setGroup inside
    intro index isIndex
    rcases isIndex with isIndex | isIndex
    · exact (grounded.push _) group index (.inl isIndex)
    · cases isIndex
      exact Nat.lt_of_lt_of_eq (Nat.lt_succ_self _) (base.depth_push _).symm
  · rfl

end Store

end PatternMachine
