import PatternMachine.Proofs.Exploration.Resemblance

/-!
# Stores in tandem

Two stores are in tandem above two bases if they resemble each other now and however far they are
taken back towards the bases (`Store.Tandem`).  Then they go back to the same choices as long as
these were left above the bases, and fail as the bases do otherwise; and they close the same
brackets, if these were opened above the bases.
-/

namespace PatternMachine

namespace Store

/-! ### Stores that differ in where bodies start -/

theorem forgetBodies_unwind (store : Store) (test : Frame → Bool) :
    store.forgetBodies.unwind test =
      ((store.unwind test).1, (store.unwind test).2.forgetBodies) := by
  induction store using push_induction with
  | empty registers =>
      have blank : (⟨.empty, registers⟩ : Store).forgetBodies =
          ⟨.empty, (⟨.empty, registers⟩ : Store).forgetBodies.registers⟩ := rfl
      rw [blank, unwind_blank, unwind_blank]
      rfl
  | push store frame ih =>
      have pushed : (store.push frame).forgetBodies = store.forgetBodies.push frame := rfl
      rw [pushed, unwind_push, unwind_push]
      split
      · rfl
      · rw [← forgetBodies_restore]
        exact ih _ (store.depth_restore frame)

/-- Whether two stores go back to the same frame, and to the same store but for where bodies
start. -/
def UnwindsAs (test : Frame → Bool) (left right : Store) : Prop :=
  (left.unwind test).1 = (right.unwind test).1 ∧
    (left.unwind test).2.forgetBodies = (right.unwind test).2.forgetBodies

theorem UnwindsAs.of_forgetBodies {test : Frame → Bool} {left right : Store}
    (same : left.forgetBodies = right.forgetBodies) : left.UnwindsAs test right := by
  have both := (left.forgetBodies_unwind test).symm.trans
    ((congrArg (unwind test) same).trans (right.forgetBodies_unwind test))
  exact Prod.mk.inj both

/-- A store without its top frame goes back as with it, if that is not what is looked for. -/
theorem UnwindsAs.of_push {test : Frame → Bool} {left right : Store} {frame : Frame}
    (passes : test frame = false) (below : (left.restore frame).UnwindsAs test right) :
    (left.push frame).UnwindsAs test right := by
  rw [UnwindsAs, unwind_push, passes]
  exact below

/-! ### Stores in tandem -/

/-- Whether two stores resemble each other, and the second one has counted a number of iterations
of the repeat that makes the difference. -/
structure Alike (id : Nat) (direct : Bool) (count : Nat) (left right : Store) : Prop where
  resembles : left.Resembles id right
  counted : right.count? id direct = some count

/-- Whether two stores are alike, and stay alike when they are taken back, frame by frame, until
they are what the bases were, but for where bodies start. -/
inductive Tandem (id : Nat) (direct : Bool) (count : Nat) (base base' : Store) :
    Store → Store → Prop
  | floor {left right : Store} (same : left.forgetBodies = base.forgetBodies)
      (same' : right.forgetBodies = base'.forgetBodies) :
      Tandem id direct count base base' left right
  | frame {left right : Store} {top top' : Frame} (shape : top.shape = top'.shape)
      (alike : (left.push top).Alike id direct count (right.push top'))
      (rest : Tandem id direct count base base' (left.restore top) (right.restore top')) :
      Tandem id direct count base base' (left.push top) (right.push top')

variable {program : Program} {id count : Nat} {direct : Bool} {base base' left right : Store}

namespace Alike

theorem of_forgetBodies (alike : left.Alike id direct count right) {left' right' : Store}
    (same : left'.forgetBodies = left.forgetBodies)
    (same' : right'.forgetBodies = right.forgetBodies) :
    left'.Alike id direct count right' where
  resembles :=
    (Resembles.of_forgetBodies same).trans
      (alike.resembles.trans (Resembles.of_forgetBodies same').symm)
  counted := (count?_of_record (record_congr same')).trans alike.counted

theorem commit (alike : left.Alike id direct count right) {mark : Mark} (noCall : mark ≠ .call) :
    (left.commit mark).2.Alike id direct count (right.commit mark).2 where
  resembles :=
    (Resembles.commit left noCall).trans
      (alike.resembles.trans (Resembles.commit right noCall).symm)
  counted := by
    rw [← alike.counted]
    refine count?_of_record ?_
    simp only [record, Store.commit, Stack.record_commit]

/-- Effects that do the same count no iteration of the repeat. -/
theorem onStore (alike : left.Alike id direct count right) (orderly : left.Orderly program)
    (orderly' : right.Orderly program) {effect effect' : Effect}
    (isMatch : effect.Matches id left right effect') :
    (effect.onStore left).Alike id direct count (effect'.onStore right) where
  resembles := alike.resembles.onStore orderly orderly' isMatch
  counted := by
    rw [← alike.counted]
    cases isMatch with
    | push nothing | openGroup | closeGroup | clearGroup =>
        exact count?_of_push orderly'.anchored rfl rfl
    | enterRepeat apart =>
        exact count?_of_push orderly'.anchored rfl (repeatOf_setRepeat_of_ne _ apart)
    | count apart stands counts counts' =>
        exact count?_counting_of_ne orderly'.anchored apart counts'

end Alike

namespace Tandem

theorem alike (start : base.Alike id direct count base')
    (tandem : Tandem id direct count base base' left right) : left.Alike id direct count right := by
  cases tandem with
  | floor same same' => exact start.of_forgetBodies same same'
  | frame _ alike _ => exact alike

theorem depth (tandem : Tandem id direct count base base' left right) :
    base.depth ≤ left.depth ∧ base'.depth ≤ right.depth := by
  induction tandem with
  | floor same same' =>
      have deep := congrArg (fun store => store.stack.depth) same
      have deep' := congrArg (fun store => store.stack.depth) same'
      exact ⟨Nat.le_of_eq deep.symm, Nat.le_of_eq deep'.symm⟩
  | frame shape alike rest ih =>
      rw [depth_restore, depth_restore] at ih
      rw [depth_push, depth_push]
      exact ⟨Nat.le_succ_of_le ih.1, Nat.le_succ_of_le ih.2⟩

/-- Where bodies start does not matter. -/
theorem congr (tandem : Tandem id direct count base base' left right) {left' right' : Store}
    (same : left'.forgetBodies = left.forgetBodies)
    (same' : right'.forgetBodies = right.forgetBodies) :
    Tandem id direct count base base' left' right' := by
  -- The stacks are the same, so a frame on top is still there.
  have split : ∀ {store pushed : Store} {top : Frame},
      pushed.forgetBodies = (store.push top).forgetBodies →
        ∃ below : Store, pushed = below.push top ∧ below.forgetBodies = store.forgetBodies := by
    intro store pushed top same
    obtain ⟨stack, registers⟩ := pushed
    obtain rfl : stack = store.stack.push top := congrArg (fun store => store.stack) same
    refine ⟨⟨store.stack, registers⟩, rfl, ?_⟩
    simp only [forgetBodies, push, mk.injEq, true_and] at same ⊢
    exact same
  induction tandem generalizing left' right' with
  | floor floor floor' => exact .floor (same.trans floor) (same'.trans floor')
  | frame shape alike rest ih =>
      have alike' := alike.of_forgetBodies same same'
      obtain ⟨below, rfl, sameBelow⟩ := split same
      obtain ⟨below', rfl, sameBelow'⟩ := split same'
      refine .frame shape alike' (ih ?_ ?_)
      · rw [forgetBodies_restore, sameBelow, forgetBodies_restore]
      · rw [forgetBodies_restore, sameBelow', forgetBodies_restore]

/-- Effects that do the same keep stores in tandem. -/
theorem onStore (start : base.Alike id direct count base')
    (tandem : Tandem id direct count base base' left right) (orderly : left.Orderly program)
    (orderly' : right.Orderly program) {effect effect' : Effect}
    (isMatch : effect.Matches id left right effect') (regular : effect.Regular program)
    (regular' : effect'.Regular program) :
    Tandem id direct count base base' (effect.onStore left) (effect'.onStore right) := by
  have alike := (tandem.alike start).onStore orderly orderly' isMatch
  have undone := isMatch.undone
  have undone' := (isMatch.symm (tandem.alike start).resembles).undone
  obtain ⟨below, top, pushed, isTop, restored⟩ := Effect.exists_push regular undone.1 undone.2
  obtain ⟨below', top', pushed', isTop', restored'⟩ :=
    Effect.exists_push regular' undone'.1 undone'.2
  have shape := isMatch.shape
  rw [isTop, isTop'] at shape
  rw [pushed, pushed'] at alike ⊢
  exact .frame (Option.some.inj shape) alike (tandem.congr restored restored')

/-! ### Going back in tandem -/

/-- Stores in tandem go back to frames that show the same, and are in tandem there, or go back as
their bases do. -/
theorem unwind (tandem : Tandem id direct count base base' left right) {test : Frame → Bool}
    (plain : ∀ frame, test frame = true → frame.IsPlain)
    (seen : ∀ frame other : Frame, frame.shape = other.shape → test frame = test other) :
    (∃ top top' below below', left.unwind test = (some top, below) ∧
      right.unwind test = (some top', below') ∧ top.shape = top'.shape ∧ test top = true ∧
        Tandem id direct count base base' below below') ∨
      (left.UnwindsAs test base ∧ right.UnwindsAs test base' ∧
        ∀ index, left.stack.lastIndex? test = some index → index < base.depth) := by
  induction tandem with
  | @floor left right same same' =>
      refine .inr ⟨.of_forgetBodies same, .of_forgetBodies same', fun index found => ?_⟩
      have deep : left.depth = base.depth := congrArg (fun store => store.stack.depth) same
      rw [← deep]
      exact Stack.lt_depth_of_lastIndex? found
  | @frame left right top top' shape alike rest ih =>
      have sameTest := seen top top' shape
      cases passes : test top with
      | true =>
          left
          rw [passes] at sameTest
          refine ⟨top, top', left, right, ?_, ?_, shape, passes, ?_⟩
          · rw [unwind_push, if_pos passes]
          · rw [unwind_push, if_pos sameTest.symm]
          · rwa [plain top passes, plain top' sameTest.symm] at rest
      | false =>
          have fails : ¬ test top = true := by
            rw [passes]
            exact Bool.noConfusion
          have fails' : ¬ test top' = true := by
            rw [← sameTest]
            exact fails
          rcases ih with ⟨found, found', below, below', goesBack, goesBack', rest⟩ |
            ⟨asBase, asBase', lower⟩
          · left
            refine ⟨found, found', below, below', ?_, ?_, rest⟩
            · rw [unwind_push, if_neg fails, goesBack]
            · rw [unwind_push, if_neg fails', goesBack']
          · right
            rw [passes] at sameTest
            refine ⟨.of_push passes asBase, .of_push sameTest.symm asBase', fun index found => ?_⟩
            refine lower index ?_
            replace found : (left.stack.push top).lastIndex? test = some index := found
            rw [Stack.lastIndex?_push, if_neg fails] at found
            -- To write back what the frame saved changes at most counts.
            have blind : ∀ frame : Frame, test frame.outline = test frame := by
              intro frame
              refine seen _ _ ?_
              cases frame <;> rfl
            rw [← Stack.lastIndex?_outline _ _ blind] at found ⊢
            have same : (left.restore top).stack.outline = left.stack.outline := by
              cases top with
              | entryCount entry saved => exact Stack.outline_setEntryCount _ _ _
              | _ => rfl
            rw [same]
            exact found

/-- Stores in tandem go back to the same choice, and are in tandem there, or go back as their bases
do. -/
theorem backtrack (tandem : Tandem id direct count base base' left right) :
    (∃ point below below', left.backtrack = (some point, below) ∧
      right.backtrack = (some point, below') ∧ Tandem id direct count base base' below below') ∨
      (left.UnwindsAs Frame.isResumable base ∧ right.UnwindsAs Frame.isResumable base') := by
  rcases tandem.unwind (fun _ => Frame.IsPlain.of_isResumable)
      (fun _ _ => Frame.isResumable_of_shape) with
    ⟨top, top', below, below', goesBack, goesBack', shape, resumable, rest⟩ | ⟨asBase, asBase', _⟩
  · left
    obtain ⟨point, resumes⟩ := Option.isSome_iff_exists.1 resumable
    refine ⟨point, below, below', ?_, ?_, rest⟩
    · rw [Store.backtrack, goesBack]
      exact congrArg (·, below) resumes
    · rw [Store.backtrack, goesBack']
      exact congrArg (·, below') ((Frame.resume?_of_shape shape).symm.trans resumes)
  · exact .inr ⟨asBase, asBase'⟩

/-! ### Closing brackets in tandem -/

section

variable {mark : Mark} {index : Nat}

/-- Behind a frame that is taken off, the latest bracket is open where it was. -/
theorem lastIndex?_restore (store : Store) (frame : Frame) :
    (store.restore frame).stack.lastIndex? (Frame.isMark mark) =
      store.stack.lastIndex? (Frame.isMark mark) := by
  cases frame with
  | entryCount entry count => exact Stack.lastIndex?_setEntryCount _ _ _ _
  | _ => rfl

theorem lookCursor?_restore (store : Store) (frame : Frame) :
    (store.restore frame).stack.lookCursor? = store.stack.lookCursor? := by
  cases frame with
  | entryCount entry count =>
      rw [← Stack.lookCursor?_outline, ← store.stack.lookCursor?_outline]
      exact congrArg Stack.lookCursor? (Stack.outline_setEntryCount _ _ _)
  | _ => rfl

variable (tandem : Tandem id direct count base base' left right)
  (found : left.stack.lastIndex? (Frame.isMark mark) = some index) (above : base.depth ≤ index)

include tandem found above

/-- What holds of the bracket that was opened last, if it does so above the bases, is proved by
looking for it from the top. -/
theorem mark_induction {motive : Store → Store → Prop}
    (atMark : ∀ {left right : Store} {top top' : Frame}, top.shape = top'.shape →
      (left.push top).Alike id direct count (right.push top') →
        Tandem id direct count base base' left right → top.isMark mark = true →
          motive (left.push top) (right.push top'))
    (inside : ∀ {left right : Store} {top top' : Frame}, top.shape = top'.shape →
      (left.push top).Alike id direct count (right.push top') → top.isMark mark = false →
        motive (left.restore top) (right.restore top') →
          motive (left.push top) (right.push top')) :
    motive left right := by
  induction tandem with
  | @floor left right same same' =>
      have deep : left.depth = base.depth := congrArg (fun store => store.stack.depth) same
      have within : index < left.depth := Stack.lt_depth_of_lastIndex? found
      omega
  | @frame left right top top' shape alike rest ih =>
      replace found : (left.stack.push top).lastIndex? (Frame.isMark mark) = some index := found
      rw [Stack.lastIndex?_push] at found
      cases isMark : top.isMark mark with
      | true =>
          have isMark' : top'.isMark mark = true :=
            (Frame.isMark_of_shape shape mark).symm.trans isMark
          rw [Frame.IsPlain.of_isMark isMark, Frame.IsPlain.of_isMark isMark'] at rest
          exact atMark shape alike rest isMark
      | false =>
          rw [if_neg (by rw [isMark]; exact Bool.noConfusion)] at found
          exact inside shape alike isMark (ih ((lastIndex?_restore left top).trans found))

/-- A bracket that is open in one store is so in the other. -/
theorem hasMark : right.stack.hasMark mark = true := by
  refine tandem.mark_induction found above
    (motive := fun _ right => right.stack.hasMark mark = true) ?_ ?_
  · intro left right top top' shape alike rest isMark
    have isMark' := (Frame.isMark_of_shape shape mark).symm.trans isMark
    rw [push, Stack.hasMark_push, isMark', Bool.true_or]
  · intro left right top top' shape alike isMark below
    have unchanged : (right.restore top').stack.hasMark mark = right.stack.hasMark mark := by
      rw [Stack.hasMark, lastIndex?_restore, Stack.hasMark]
    rw [push, Stack.hasMark_push, ← unchanged, below, Bool.or_true]

/-- A bracket ends alike in stores in tandem. -/
theorem commit (noCall : mark ≠ .call) :
    Tandem id direct count base base' (left.commit mark).2 (right.commit mark).2 := by
  have settled : ∀ {store : Store} {top : Frame}, top.isMark mark = false →
      ((store.push top).commit mark).2 = (store.commit mark).2.push (Stack.settle top) := by
    intro store top isMark
    have committed := store.stack.commit_push top mark
    rw [if_neg (by rw [isMark]; exact Bool.noConfusion)] at committed
    simp only [Store.commit, push, committed]
  have ended : ∀ {store : Store} {top : Frame}, top.isMark mark = true →
      ((store.push top).commit mark).2 = store.push .void := by
    intro store top isMark
    have committed := store.stack.commit_push top mark
    rw [if_pos isMark] at committed
    simp only [Store.commit, push, committed]
  refine tandem.mark_induction found above
    (motive := fun left right =>
      Tandem id direct count base base' (left.commit mark).2 (right.commit mark).2) ?_ ?_
  · intro left right top top' shape alike rest isMark
    have isMark' := (Frame.isMark_of_shape shape mark).symm.trans isMark
    have alike' := alike.commit noCall
    rw [ended isMark, ended isMark'] at alike' ⊢
    exact .frame rfl alike' rest
  · intro left right top top' shape alike isMark below
    have isMark' := (Frame.isMark_of_shape shape mark).symm.trans isMark
    have alike' := alike.commit noCall
    rw [settled isMark, settled isMark'] at alike' ⊢
    refine .frame (Frame.settle_of_shape shape) alike' ?_
    rw [Stack.restore_settle, Stack.restore_settle, ← commit_restore, ← commit_restore]
    exact below

end

/-- A lookahead that was opened above the bases started at the same cursor. -/
theorem lookCursor? (tandem : Tandem id direct count base base' left right) {index : Nat}
    (found : left.stack.lastIndex? (Frame.isMark .look) = some index)
    (above : base.depth ≤ index) : left.stack.lookCursor? = right.stack.lookCursor? := by
  refine tandem.mark_induction found above
    (motive := fun left right => left.stack.lookCursor? = right.stack.lookCursor?) ?_ ?_
  · intro left right top top' shape alike rest isMark
    obtain ⟨cursor, rfl⟩ : ∃ cursor, top = .look cursor := by
      cases top with
      | look cursor => exact ⟨cursor, rfl⟩
      | _ => cases isMark
    obtain rfl : top' = .look cursor := by
      cases top' <;> cases shape
      rfl
    rw [push, Stack.lookCursor?_push, push, Stack.lookCursor?_push]
  · intro left right top top' shape alike isMark below
    have passed : ∀ {stack : Stack} {frame : Frame}, frame.isMark .look = false →
        (stack.push frame).lookCursor? = stack.lookCursor? := by
      intro stack frame noLook
      rw [Stack.lookCursor?_push]
      cases frame <;> first | rfl | cases noLook
    have isMark' := (Frame.isMark_of_shape shape .look).symm.trans isMark
    rw [lookCursor?_restore, lookCursor?_restore] at below
    rw [push, passed isMark, push, passed isMark', below]

end Tandem

end Store

end PatternMachine
