import PatternMachine.Proofs.Growth

/-!
# Brackets on a store that has grown

When a bracket ends, the store has grown since it was opened.  Its mark is then the nearest one of
its kind, and nothing that was pushed since is left to go back to.  Each theorem says what one kind
of closing instruction finds.
-/

namespace PatternMachine

namespace Store

variable {first last : Nat} {base grown : Store} {frame : Frame}

/-- Failing back goes below frames that are no choices. -/
theorem backtrack_eq_of_rewind {store below : Store} (deeper : below.depth ≤ store.depth)
    (rewinds : store.rewind below.depth = below)
    (fails : ∀ index found, below.depth ≤ index → store.stack.get? index = some found →
      found.isResumable = false) : store.backtrack = below.backtrack := by
  have unwound : store.unwind Frame.isResumable = below.unwind Frame.isResumable := by
    rw [← unwind_rewind Frame.isResumable_withCount deeper fails, rewinds]
  rw [backtrack, backtrack, unwound]

theorem backtrack_choice (store : Store) {point : Point} (resumed : frame.resume? = some point) :
    (store.push frame).backtrack = (some point, store) := by
  have resumable : frame.isResumable = true := by
    rw [Frame.isResumable, resumed]
    rfl
  rw [backtrack, unwind_push, if_pos resumable]
  exact congrArg (·, store) resumed

/-- A frame that saves nothing and is no choice is failed over. -/
theorem backtrack_push (store : Store) (plain : frame.IsPlain)
    (silent : frame.isResumable = false) : (store.push frame).backtrack = store.backtrack := by
  rw [backtrack, unwind_push, if_neg (by rw [silent]; exact Bool.noConfusion), plain]
  rfl

/-- A single frame that is no choice does not change where failing leads. -/
theorem backtrack_of_stack_eq_push {store : Store} (stack : store.stack = base.stack.push frame)
    (growth : Grown first last base store) (silent : frame.isResumable = false) :
    store.backtrack = base.backtrack := by
  apply backtrack_eq_of_rewind growth.deeper growth.rewinds
  intro index found above read
  rw [stack] at read
  rw [Stack.eq_of_get?_push above read]
  exact silent

/-! ### Finding the mark -/

/-- The frame that was pushed when the store began to grow is still there. -/
theorem Grown.get?_depth (growth : Grown first last (base.push frame) grown) :
    ∃ found, grown.stack.get? base.depth = some found ∧
      (frame = found ∨ ∃ count, frame = found.withCount count) := by
  have read : (grown.rewind (base.push frame).depth).stack.get? base.depth = some frame := by
    rw [growth.rewinds]
    exact base.stack.get?_depth_push frame
  exact get?_rewind read

/-- A mark does not change while the store grows. -/
theorem Grown.get?_depth_of_isMark {mark : Mark} (growth : Grown first last (base.push frame) grown)
    (isMark : frame.isMark mark = true) : grown.stack.get? base.depth = some frame := by
  obtain ⟨found, read, rfl | ⟨count, rfl⟩⟩ := growth.get?_depth
  · exact read
  · rw [Frame.eq_of_withCount (fun _ _ _ _ _ => by cases mark <;> rfl) isMark]
    exact read

theorem Grown.above (growth : Grown first last (base.push frame) grown) {index : Nat}
    {found : Frame} (higher : base.depth < index)
    (read : grown.stack.get? index = some found) : found.Closed first last := by
  apply growth.closed index found _ read
  rw [depth_push]
  exact higher

/-- A closing instruction finds the mark of its own bracket. -/
theorem Grown.lastIndex? {mark : Mark} (growth : Grown first last (base.push frame) grown)
    (isMark : frame.isMark mark = true) (other : mark ≠ .emptyCheck) :
    grown.stack.lastIndex? (Frame.isMark mark) = some base.depth := by
  apply Stack.lastIndex?_eq_some (growth.get?_depth_of_isMark isMark) isMark
  intro index found higher read
  exact (growth.above higher read).isMark_eq_false other

/-- The end of an iteration finds its start. -/
theorem Grown.emptyCheck? {id position : Nat}
    (growth : Grown first last (base.push (.emptyCheck id position)) grown)
    (outside : id < first) :
    grown.stack.emptyCheck? id = some base.depth ∧
      grown.stack.get? base.depth = some (.emptyCheck id position) := by
  have isMark : Frame.isMark .emptyCheck (.emptyCheck id position) = true := rfl
  have read := growth.get?_depth_of_isMark isMark
  refine ⟨?_, read⟩
  apply Stack.lastIndex?_eq_some read (beq_self_eq_true id)
  intro index found higher readFound
  have closed := growth.above higher readFound
  cases found with
  | emptyCheck started position =>
      exact beq_eq_false_iff_ne.2 (Nat.ne_of_gt (Nat.lt_of_lt_of_le outside closed.1))
  | _ => rfl

/-! ### Ending a bracket -/

theorem resolve?_commit {store : Store} {mark : Mark} {index : Nat}
    (last : store.stack.lastIndex? (Frame.isMark mark) = some index)
    (bound : Bound) : (store.commit mark).2.resolve? bound = store.resolve? bound := by
  cases bound with
  | inFrame other =>
      simp only [resolve?, commit]
      rw [Stack.get?_commit last]
      split
      · rfl
      split
      · next same =>
          subst same
          obtain ⟨marked, read, isMark⟩ := Stack.get?_of_lastIndex? last
          rw [read]
          cases marked <;> first | rfl | cases isMark
      · cases store.stack.get? other with
        | none => rfl
        | some held => exact Frame.position?_settle held
  | _ => rfl

theorem captures_commit {store : Store} {mark : Mark} {index : Nat}
    (last : store.stack.lastIndex? (Frame.isMark mark) = some index) :
    (store.commit mark).2.captures = store.captures := by
  funext group
  exact Prod.ext (resolve?_commit last _) (resolve?_commit last _)

/-- When a bracket has ended, what was pushed since it was opened is closed, and none of it is left
to go back to. -/
theorem Grown.get?_commit {mark : Mark} (growth : Grown first last (base.push frame) grown)
    (isMark : frame.isMark mark = true) (other : mark ≠ .emptyCheck) {index : Nat} {found : Frame}
    (above : base.depth ≤ index) (read : (grown.commit mark).2.stack.get? index = some found) :
    found.Closed first last ∧ found.isResumable = false := by
  have bracket := growth.lastIndex? isMark other
  replace read : (grown.stack.commit mark).2.get? index = some found := read
  rw [Stack.get?_commit bracket, if_neg (Nat.not_lt.2 above)] at read
  split at read
  · cases read
    exact ⟨rfl, rfl⟩
  · next inside =>
      obtain ⟨held, readHeld, rfl⟩ := Option.map_eq_some_iff.1 read
      have higher : base.depth < index := Nat.lt_of_le_of_ne above (Ne.symm inside)
      exact ⟨(growth.above higher readHeld).settle, Frame.isResumable_settle held⟩

/-- A bracket that has ended can be undone as a whole. -/
theorem Grown.commit {mark : Mark} (growth : Grown first last (base.push frame) grown)
    (isMark : frame.isMark mark = true) (other : mark ≠ .emptyCheck) :
    Grown first last base (grown.commit mark).2 := by
  have higher : base.depth ≤ grown.depth := by
    have deeper := growth.deeper
    rw [depth_push] at deeper
    exact Nat.le_of_succ_le deeper
  constructor
  · rw [depth_commit]
    exact higher
  · rw [rewind_commit grown (growth.lastIndex? isMark other) (Nat.le_refl _),
      ← rewind_rewind grown growth.deeper (by rw [depth_push]; exact Nat.le_succ _),
      growth.rewinds, rewind_push_plain base (.of_isMark isMark) (Nat.le_refl _), rewind_depth]
  · intro group index refers
    rw [depth_commit]
    exact growth.grounded group index refers
  · intro index found above read
    exact (growth.get?_commit isMark other above read).1

theorem Grown.backtrack_commit {mark : Mark} (growth : Grown first last (base.push frame) grown)
    (isMark : frame.isMark mark = true) (other : mark ≠ .emptyCheck) :
    (grown.commit mark).2.backtrack = base.backtrack := by
  have committed := growth.commit isMark other
  apply backtrack_eq_of_rewind committed.deeper committed.rewinds
  intro index found above read
  exact (growth.get?_commit isMark other above read).2

/-- When what a negative lookahead excludes is there, everything since it was opened is undone. -/
theorem Grown.unwindTo {mark : Mark} (growth : Grown first last (base.push frame) grown)
    (isMark : frame.isMark mark = true) (other : mark ≠ .emptyCheck) :
    grown.unwindTo mark = (some frame, base) := by
  have unwound : (grown.rewind (base.push frame).depth).unwind (Frame.isMark mark) =
      grown.unwind (Frame.isMark mark) := by
    apply unwind_rewind (fun frame count => Frame.isMark_withCount frame count mark) growth.deeper
    intro index found above read
    exact (growth.closed index found above read).isMark_eq_false other
  rw [Store.unwindTo, ← unwound, growth.rewinds, unwind_push, if_pos isMark]

end Store

end PatternMachine
