import PatternMachine.Proofs.Logging
import PatternMachine.Proofs.Record
import PatternMachine.Proofs.Trail

/-!
# The undo log is exact

When a search goes back to a choice, groups and repeats are what they were when the choice was left.
This holds for programs all of whose openings and closings of groups are logged, in runs that throw
away nothing but choices.  One move changes nothing of what going back to an older frame leads to
(`Move.Recovers`); a whole run therefore goes back to what it came from (`Documented`).
-/

namespace PatternMachine

/-- Whether a frame is a choice that a branch has left. -/
def Frame.isChoice : Frame → Bool
  | .choice _ => true
  | _ => false

/-- Whether the top frame is a choice. -/
def Store.topIsChoice (store : Store) : Bool :=
  store.stack.pop?.any fun (top, _) => top.isChoice

/-! ### Effects leave alone what lies below -/

namespace Store

variable (store : Store) {depth : Nat}

theorem repeatOf_setRepeat (id : Nat) (register : RepeatRegister) :
    (store.setRepeat id register).registers.repeatOf id = register ∨
      (store.setRepeat id register).registers.repeatOf id = store.registers.repeatOf id := by
  simp only [setRepeat, Registers.setRepeat, Registers.repeatOf, Array.getD_eq_getD_getElem?,
    Array.getElem?_setIfInBounds_self]
  split
  · exact .inl rfl
  · next outside =>
      right
      rw [Array.getElem?_eq_none (Nat.not_lt.1 outside)]

/-- To write the register that a repeat has had is to undo what was written since. -/
theorem setRepeat_repeatOf (id : Nat) (register : RepeatRegister) :
    (store.setRepeat id register).setRepeat id (store.registers.repeatOf id) = store := by
  simp only [setRepeat, Registers.setRepeat, Registers.repeatOf, Array.setIfInBounds_setIfInBounds,
    Registers.setIfInBounds_getD_self]

/-- A register is as before, but for the body, if its entry and its count are written back. -/
theorem forgetBodies_setRepeat_setRepeat (id : Nat) {register other : RepeatRegister}
    (same : other.record = (store.registers.repeatOf id).record) :
    ((store.setRepeat id register).setRepeat id other).forgetBodies = store.forgetBodies := by
  rw [forgetBodies_setRepeat, forgetBodies_setRepeat, same, ← repeatOf_forgetBodies]
  exact store.forgetBodies.setRepeat_repeatOf id register.record

theorem forgetBodies_rewind_enterRepeat (id body : Nat) (within : depth ≤ store.depth) :
    ((store.enterRepeat id body).rewind depth).forgetBodies =
      (store.rewind depth).forgetBodies := by
  let outer := store.registers.repeatOf id
  have pushed : store.enterRepeat id body =
      (store.setRepeat id ⟨some store.depth, 0, body⟩).push
        (.repeatEntry id 0 body outer.entry outer.count) := rfl
  rw [pushed, rewind_push (store.setRepeat id _) _ within, forgetBodies_rewind, restore,
    forgetBodies_setRepeat_setRepeat, forgetBodies_rewind]
  rfl

theorem forgetBodies_rewind_countInRegister (id : Nat) (within : depth ≤ store.depth) :
    ((store.countInRegister id).rewind depth).forgetBodies =
      (store.rewind depth).forgetBodies := by
  let register := store.registers.repeatOf id
  have pushed : store.countInRegister id =
      (store.setRepeat id { register with count := nextIteration register.count }).push
        (.registerCount id register.count) := rfl
  rw [pushed, rewind_push (store.setRepeat id _) _ within, forgetBodies_rewind, restore,
    forgetBodies_setRepeat_setRepeat, forgetBodies_rewind]
  rcases store.repeatOf_setRepeat id
    { register with count := nextIteration register.count } with same | same
  · rw [same]
  · rw [same]

theorem rewind_countInEntry (index : Nat) (within : depth ≤ store.depth) :
    (store.countInEntry index).rewind depth = store.rewind depth := by
  let count := (store.stack.entry? index).elim 0 Prod.fst
  let counted : Store :=
    { store with stack := store.stack.setEntryCount index (nextIteration count) }
  have pushed : store.countInEntry index = counted.push (.entryCount index count) := by
    unfold countInEntry
    cases found : store.stack.entry? index <;> simp only [counted, count, found] <;> rfl
  have deep : counted.depth = store.depth := Stack.depth_setEntryCount _ _ _
  -- The entry counts what it counted before, and a frame that counts nothing has not changed.
  have undone : counted.restore (.entryCount index count) = store := by
    simp only [restore, counted]
    congr 1
    apply Stack.ext_get?
    intro other
    simp only [Stack.setEntryCount, Stack.get?_modify]
    split
    · next same =>
        subst same
        simp only [count, Stack.entry?]
        cases store.stack.get? index with
        | none => rfl
        | some frame => cases frame <;> rfl
    · rfl
  rw [pushed, rewind_push counted _ (by rwa [deep]), undone]

variable {store} in
theorem exists_push_of_topIsChoice (onTop : store.topIsChoice = true) :
    ∃ (lowered : Store) (point : Point), store = lowered.push (.choice point) := by
  obtain ⟨⟨top, below⟩, popped, isChoice⟩ := (Option.any_eq_true _ _).1 onTop
  cases top with
  | choice point =>
      refine ⟨{ store with stack := below }, point, ?_⟩
      rw [Store.push, ← Stack.eq_push_of_pop? popped]
  | _ => cases isChoice

/-- To throw a choice away is to go back below it. -/
theorem rewind_discard (onTop : store.topIsChoice = true)
    (within : depth ≤ store.discard.2.depth) :
    store.discard.2.rewind depth = store.rewind depth := by
  obtain ⟨lowered, point, rfl⟩ := exists_push_of_topIsChoice onTop
  rw [discard_push] at within ⊢
  exact (rewind_push_plain _ (fun _ => rfl) within).symm

theorem rewind_unwind {test : Frame → Bool} (plain : ∀ frame, test frame = true → frame.IsPlain)
    (within : depth ≤ (store.unwind test).2.depth) :
    (store.unwind test).2.rewind depth = store.rewind depth := by
  obtain ⟨lower, same⟩ := unwind_eq_rewind plain store
  rw [same, rewind_rewind store lower within]

end Store

/-- Whether a visit throws away nothing but a choice. -/
def Visit.DiscardsChoice (visit : Visit) : Prop :=
  visit.move = .perform .discard → visit.before.store.topIsChoice = true

instance (visit : Visit) : Decidable visit.DiscardsChoice :=
  inferInstanceAs (Decidable (_ → _))

namespace Effect

variable {program : Program} {store : Store} {effect : Effect}

/-- Whether an effect leaves a frame that undoes it, or has nothing to undo, whatever was set. -/
def IsUndone : Effect → Prop
  | .push frame => frame.savesNothing = true
  | .setGroup .. | .discard | .commit _ => False
  | _ => True

/-- What going back below such an effect leads to is the same as before, but for where bodies
start. -/
theorem forgetBodies_rewind_onStore (undone : effect.IsUndone) {depth : Nat}
    (within : depth ≤ store.depth) (within' : depth ≤ (effect.onStore store).depth) :
    ((effect.onStore store).rewind depth).forgetBodies = (store.rewind depth).forgetBodies := by
  cases effect with
  | note event => rfl
  | push frame =>
      simp only [onStore]
      rw [store.rewind_push_plain (.of_savesNothing undone) within]
  | openGroup group position =>
      simp only [onStore]
      rw [store.rewind_openGroup group position within]
  | closeGroup group position =>
      simp only [onStore]
      rw [store.rewind_closeGroup group position within]
  | clearGroup group =>
      simp only [onStore]
      rw [store.rewind_clearGroup group within]
  | enterRepeat id body => exact store.forgetBodies_rewind_enterRepeat id body within
  | countInEntry index =>
      simp only [onStore]
      rw [store.rewind_countInEntry index within]
  | countInRegister id => exact store.forgetBodies_rewind_countInRegister id within
  | unwindTo mark =>
      simp only [onStore]
      rw [Store.unwindTo, store.rewind_unwind (fun _ => .of_isMark) within']
  | setGroup group bounds | discard | commit mark => exact undone.elim

/-- What going back below an effect leads to is recorded as before the effect, unless that writes
the bounds of a group for good. -/
theorem record_rewind_of_ne_setGroup (unset : ∀ group bounds, effect ≠ .setGroup group bounds)
    (pushes : ∀ frame, effect = .push frame → frame.savesNothing = true)
    (discards : effect = .discard → store.topIsChoice = true) {depth : Nat}
    (within : depth ≤ store.depth) (within' : depth ≤ (effect.onStore store).depth) :
    ((effect.onStore store).rewind depth).record = (store.rewind depth).record := by
  have of_isUndone : effect.IsUndone →
      ((effect.onStore store).rewind depth).record = (store.rewind depth).record := fun undone =>
    Store.record_congr (forgetBodies_rewind_onStore undone within within')
  cases effect with
  | setGroup group bounds => exact absurd rfl (unset group bounds)
  | discard =>
      simp only [onStore]
      rw [store.rewind_discard (discards rfl) within']
  | commit mark =>
      have same : (store.commit mark).2.record = store.record := by
        simp only [Store.record, Store.commit, Stack.record_commit]
      simp only [onStore]
      rw [Store.record_rewind, same, ← Store.record_rewind]
  | push frame => exact of_isUndone (pushes frame rfl)
  | _ => exact of_isUndone trivial

/-- What going back below a recoverable effect leads to is recorded as before the effect. -/
theorem record_rewind_onStore (recoverable : effect.Recoverable program)
    (logged : store.Logged program) (discards : effect = .discard → store.topIsChoice = true)
    {depth : Nat}
    (within : depth ≤ store.depth) (within' : depth ≤ (effect.onStore store).depth) :
    ((effect.onStore store).rewind depth).record = (store.rewind depth).record := by
  by_cases unset : ∀ group bounds, effect ≠ .setGroup group bounds
  · refine record_rewind_of_ne_setGroup unset ?_ discards within within'
    rintro frame rfl
    exact recoverable
  · simp only [not_forall, not_not] at unset
    obtain ⟨group, bounds, rfl⟩ := unset
    obtain ⟨direct, rfl⟩ := recoverable
    simp only [onStore]
    rw [← logged.unset group direct, store.setGroup_self]

end Effect

/-! ### Choices that are left -/

/-- Whether a frame stands at an index and can be gone back to. -/
def Store.Offers (store : Store) (index : Nat) (frame : Frame) : Prop :=
  store.stack.get? index = some frame ∧ frame.isResumable = true

namespace Store.Offers

variable {store : Store} {index : Nat} {frame : Frame}

theorem of_push {top : Frame} (offers : (store.push top).Offers index frame) :
    store.Offers index frame ∨ index = store.depth ∧ top = frame := by
  obtain ⟨read, resumable⟩ := offers
  replace read : (store.stack.push top).get? index = some frame := read
  rw [Stack.get?_push] at read
  split at read
  · next atTop => exact .inr ⟨atTop, Option.some.inj read⟩
  · exact .inl ⟨read, resumable⟩

/-- Frames that save something offer nothing. -/
theorem of_push_saved {top : Frame} (offers : (store.push top).Offers index frame)
    (saved : top.isResumable = false) : store.Offers index frame := by
  rcases offers.of_push with lower | ⟨_, rfl⟩
  · exact lower
  · exact absurd offers.2 (by rw [saved]; exact Bool.noConfusion)

theorem of_setEntryCount {entry count : Nat}
    (offers : { store with stack := store.stack.setEntryCount entry count : Store }.Offers index
      frame) : store.Offers index frame := by
  obtain ⟨read, resumable⟩ := offers
  simp only [Stack.setEntryCount, Stack.get?_modify] at read
  split at read
  · obtain ⟨original, readOriginal, rfl⟩ := Option.map_eq_some_iff.1 read
    refine ⟨?_, resumable⟩
    rw [Frame.eq_of_withCount (fun _ _ _ _ _ => rfl) resumable]
    exact readOriginal
  · exact ⟨read, resumable⟩

theorem of_restore {top : Frame} (offers : (store.restore top).Offers index frame) :
    store.Offers index frame := by
  cases top with
  | entryCount entry count => exact offers.of_setEntryCount
  | _ => exact offers

theorem of_discard (offers : store.discard.2.Offers index frame) : store.Offers index frame := by
  unfold discard at offers
  split at offers
  · cases offers.1
  · next top below popped =>
      refine ⟨?_, offers.2⟩
      rw [Stack.eq_push_of_pop? popped, Stack.get?_push_of_lt _ _ (Stack.lt_depth_of_get? offers.1)]
      exact offers.1

/-- When a bracket ends, only choices below its mark are left. -/
theorem lt_of_commit {mark : Mark} (offers : (store.commit mark).2.Offers index frame) :
    ∃ last, store.stack.lastIndex? (Frame.isMark mark) = some last ∧ index < last := by
  obtain ⟨read, resumable⟩ := offers
  replace read : (store.stack.commit mark).2.get? index = some frame := read
  have given_up : (store.stack.get? index).map Stack.settle ≠ some frame := by
    intro settled
    obtain ⟨original, _, rfl⟩ := Option.map_eq_some_iff.1 settled
    rw [Frame.isResumable_settle] at resumable
    cases resumable
  cases found : store.stack.lastIndex? (Frame.isMark mark) with
  | some last =>
      rw [Stack.get?_commit found] at read
      split at read
      · next below => exact ⟨last, rfl, below⟩
      split at read
      · cases read
        cases resumable
      · exact absurd read given_up
  | none =>
      rw [Stack.commit, found] at read
      dsimp only at read
      rw [Stack.get?_settleFrom, if_pos (Nat.zero_le index)] at read
      exact absurd read given_up

theorem of_commit {mark : Mark} (offers : (store.commit mark).2.Offers index frame) :
    store.Offers index frame := by
  obtain ⟨last, found, below⟩ := offers.lt_of_commit
  refine ⟨?_, offers.2⟩
  exact ((Stack.get?_commit found index).trans (if_pos below)).symm.trans offers.1

theorem of_unwind {test : Frame → Bool} (offers : (store.unwind test).2.Offers index frame) :
    store.Offers index frame := by
  induction store using push_induction with
  | empty registers =>
      rw [unwind_blank] at offers
      exact offers
  | push store top ih =>
      have lower : store.Offers index frame := by
        rw [unwind_push] at offers
        split at offers
        · exact offers
        · exact (ih _ (store.depth_restore top) offers).of_restore
      refine ⟨?_, lower.2⟩
      exact (store.stack.get?_push_of_lt top (Stack.lt_depth_of_get? lower.1)).trans lower.1

/-- An effect leaves a choice only by pushing it. -/
theorem of_onStore {effect : Effect} (offers : (effect.onStore store).Offers index frame) :
    store.Offers index frame ∨ index = store.depth ∧ effect = .push frame := by
  cases effect with
  | push top => exact offers.of_push.imp_right fun atTop => ⟨atTop.1, congrArg _ atTop.2⟩
  | note event | setGroup group bounds => exact .inl offers
  | openGroup group position | closeGroup group position | clearGroup group
  | enterRepeat id body | countInRegister id =>
      left
      replace offers : (store.push _).Offers index frame := offers
      exact offers.of_push_saved rfl
  | countInEntry entry =>
      left
      replace offers : (Store.push { store with stack := _ } _).Offers index frame := offers
      exact (offers.of_push_saved rfl).of_setEntryCount
  | discard => exact .inl offers.of_discard
  | commit mark => exact .inl offers.of_commit
  | unwindTo mark => exact .inl offers.of_unwind

end Store.Offers

/-- What a search goes back to was offered at the depth that it goes back to. -/
theorem Store.offers_of_unwind {store : Store} {frame : Frame}
    (found : (store.unwind Frame.isResumable).1 = some frame) :
    store.Offers (store.unwind Frame.isResumable).2.depth frame := by
  induction store using push_induction with
  | empty registers =>
      rw [unwind_blank] at found
      cases found
  | push store top ih =>
      rw [unwind_push] at found ⊢
      by_cases resumable : top.isResumable = true
      · rw [if_pos resumable] at found ⊢
        cases found
        exact ⟨store.stack.get?_depth_push frame, resumable⟩
      · rw [if_neg resumable] at found ⊢
        have lower := (ih _ (store.depth_restore top) found).of_restore
        refine ⟨?_, lower.2⟩
        exact (store.stack.get?_push_of_lt top (Stack.lt_depth_of_get? lower.1)).trans lower.1

/-! ### Runs leave a history -/

/-- Whether every choice that a store offers was left at its index by one of the visits so far, with
more than what lay below ever since, and going back to it leads to the record of that time. -/
def Store.Documented (store : Store) (history : List Visit) : Prop :=
  ∀ index frame, store.Offers index frame → ∃ before push between,
    history = before ++ push :: between ∧ push.move = .perform (.push frame) ∧
      push.before.store.depth = index ∧ (∀ visit ∈ between, index < visit.after.store.depth) ∧
      (store.rewind index).record = push.before.store.record

namespace Move

variable {program : Program} {store : Store} {move : Move}

theorem record_rewind_onStore (recoverable : move.Recoverable program)
    (logged : store.Logged program)
    (discards : move = .perform .discard → store.topIsChoice = true) {depth : Nat}
    (within : depth ≤ store.depth) (within' : depth ≤ (move.onStore store).depth) :
    ((move.onStore store).rewind depth).record = (store.rewind depth).record := by
  cases move with
  | perform effect =>
      exact effect.record_rewind_onStore recoverable logged (fun same => discards (congrArg _ same))
        within within'
  | backtrack =>
      simp only [onStore]
      rw [Store.backtrack, store.rewind_unwind (fun _ => .of_isResumable) within']
  | _ => rfl

theorem offers_of_onStore {index : Nat} {frame : Frame}
    (offers : (move.onStore store).Offers index frame) :
    store.Offers index frame ∨ index = store.depth ∧ move = .perform (.push frame) := by
  cases move with
  | perform effect =>
      exact offers.of_onStore.imp_right fun pushed => ⟨pushed.1, congrArg _ pushed.2⟩
  | backtrack => exact .inl offers.of_unwind
  | _ => exact .inl offers

theorem logged_onStore (logged : store.Logged program) (recoverable : move.Recoverable program) :
    (move.onStore store).Logged program := by
  cases move with
  | perform effect => exact logged.onStore recoverable
  | backtrack => exact logged.unwind _
  | _ => exact logged

end Move

namespace Store.Documented

variable {program : Program} {history : List Visit}

/-- A visit goes into the history. -/
theorem visit {visit : Visit} (documented : visit.before.store.Documented history)
    (made : visit.after.store = visit.move.onStore visit.before.store)
    (recoverable : visit.move.Recoverable program) (logged : visit.before.store.Logged program)
    (discards : visit.DiscardsChoice) :
    visit.after.store.Documented (history ++ [visit]) := by
  intro index frame offers
  have inside : index < visit.after.store.depth := Stack.lt_depth_of_get? offers.1
  have same : index ≤ visit.before.store.depth →
      (visit.after.store.rewind index).record = (visit.before.store.rewind index).record := by
    intro within
    rw [made] at inside ⊢
    exact Move.record_rewind_onStore recoverable logged discards within (Nat.le_of_lt inside)
  rw [made] at offers
  rcases Move.offers_of_onStore offers with older | ⟨rfl, pushed⟩
  · obtain ⟨before, push, between, rfl, pushes, atIndex, above, recorded⟩ :=
      documented index frame older
    refine ⟨before, push, between ++ [visit], by simp, pushes, atIndex, ?_, ?_⟩
    · intro other mem
      rcases List.mem_append.1 mem with mem | mem
      · exact above other mem
      · obtain rfl := List.mem_singleton.1 mem
        exact inside
    · rw [same (Nat.le_of_lt (Stack.lt_depth_of_get? older.1)), recorded]
  · refine ⟨history, visit, [], rfl, pushed, rfl, by simp, ?_⟩
    rw [same (Nat.le_refl _), Store.rewind_depth]

/-- What every visit of a list has is enough for the list to go into the history. -/
theorem visits {first last : Search} {visits : List Visit}
    (documented : first.store.Documented history) (leads : Visit.Leads first last visits)
    (made : ∀ visit ∈ visits, visit.after.store = visit.move.onStore visit.before.store ∧
      visit.move.Recoverable program ∧ visit.before.store.Logged program ∧
        visit.DiscardsChoice) :
    last.store.Documented (history ++ visits) := by
  induction visits generalizing first history with
  | nil =>
      cases leads
      rw [List.append_nil]
      exact documented
  | cons visit visits ih =>
      obtain ⟨rfl, leads⟩ := leads
      obtain ⟨stored, recoverable, logged, discards⟩ := made visit List.mem_cons_self
      have one := documented.visit stored recoverable logged discards
      rw [List.append_cons]
      exact ih one leads fun other mem => made other (List.mem_cons_of_mem visit mem)

/-- A choice that was gone back to has its place in the history. -/
theorem backtrack {store : Store} (documented : store.Documented history) {point : Point}
    (resumed : store.backtrack.1 = some point) :
    ∃ before push between frame, history = before ++ push :: between ∧
      push.move = .perform (.push frame) ∧ frame.resume? = some point ∧
        push.before.store.depth = store.backtrack.2.depth ∧
        (∀ visit ∈ between, store.backtrack.2.depth < visit.after.store.depth) ∧
          store.backtrack.2.record = push.before.store.record := by
  obtain ⟨frame, found, resumes⟩ := Option.bind_eq_some_iff.1 resumed
  obtain ⟨before, push, between, split, pushes, atIndex, above, recorded⟩ :=
    documented _ frame (Store.offers_of_unwind found)
  refine ⟨before, push, between, frame, split, pushes, resumes, atIndex, above, ?_⟩
  rw [← recorded]
  exact congrArg Store.record (Store.unwind_eq_rewind (fun _ => .of_isResumable) store).2

end Store.Documented

namespace Search

/-- Every state of a run of such a program sets only groups that are logged, and all its moves can
be undone. -/
theorem trail_logged {setting : Setting} (knows : setting.program.KnowsLogged)
    (logsAll : setting.program.LogsAll) (store : Store) (dispatches : Nat) :
    ∀ visit ∈ trail setting dispatches (.start setting store),
      visit.before.store.Logged setting.program ∧ visit.move.Recoverable setting.program ∧
        visit.after.store.Logged setting.program := by
  have start : (Search.start setting store).store.Logged setting.program := .reset store
  refine @trail_invariant setting dispatches _ (fun search => search.store.Logged setting.program)
    (Move.Recoverable setting.program) start ?_ ?_
  · intro search _ move mem
    exact Attempt.recoverable_of_mem_moves knows logsAll mem
  · intro visit mem logged recoverable
    rw [Move.store_of_attempt (attempt_of_mem_trail mem)]
    exact Move.logged_onStore logged recoverable

/-- Whenever a search goes back to a choice, all groups lie where they lay when the choice was left,
and all repeats are active in the entries in which they were active then.  This holds for programs
that log all their groups, as long as nothing but choices was thrown away on the way. -/
theorem backtracking_restores_captures_and_repeats {setting : Setting} {encoding : Encoding}
    {calls : List Builder.Call}
    (built : ((Builder.new encoding).afterCalls calls).build.1 = .ok setting.program)
    (logsAll : setting.program.LogsAll) (store : Store) (dispatches : Nat)
    {earlier later : List Visit} {resume : Visit}
    (parts : trail setting dispatches (.start setting store) = earlier ++ resume :: later)
    (discards : ∀ visit ∈ earlier, visit.DiscardsChoice)
    (resumes : resume.move = .backtrack) :
    ∃ before push between frame,
      earlier = before ++ push :: between ∧ push.move = .perform (.push frame) ∧
        frame.resume? = some resume.after.point ∧
        push.before.store.depth = resume.after.store.depth ∧
        (∀ visit ∈ between, push.before.store.depth < visit.after.store.depth) ∧
        (∀ group, resume.after.store.captures group = push.before.store.captures group) ∧
        ∀ id, (resume.after.store.registers.repeatOf id).entry =
          (push.before.store.registers.repeatOf id).entry := by
  have logged := trail_logged (Builder.knowsLogged_of_calls built) logsAll store dispatches
  have made : ∀ visit ∈ earlier ++ resume :: later,
      visit.move.attempt setting visit.before = .ok visit.after := by
    intro visit mem
    rw [← parts] at mem
    exact attempt_of_mem_trail mem
  obtain ⟨last, leads⟩ := leads_trail setting dispatches (.start setting store)
  rw [parts] at leads logged
  obtain ⟨middle, leads, ⟨rfl, _⟩⟩ := leads.split
  have documented : resume.before.store.Documented earlier := by
    have blank : (Search.start setting store).store.Documented [] := by
      intro index frame offers
      cases offers.1
    refine @Store.Documented.visits setting.program _ _ _ _ blank leads ?_
    intro visit mem
    have inTrail := List.mem_append_left (resume :: later) mem
    exact ⟨Move.store_of_attempt (made visit inTrail), (logged visit inTrail).2.1,
      (logged visit inTrail).1, discards visit mem⟩
  -- The run has gone on, so there was a choice to go back to.
  have resumed := made resume (List.mem_append_right _ List.mem_cons_self)
  rw [resumes, Move.attempt] at resumed
  split at resumed
  · next point store' back =>
      have found : resume.before.store.backtrack.1 = some point := by rw [back]
      have after : resume.after = { resume.before with point, store := store' } :=
        (Except.ok.inj resumed).symm
      obtain ⟨before, push, between, frame, split, pushes, resumesAt, atIndex, above, recorded⟩ :=
        documented.backtrack found
      rw [back] at recorded atIndex above
      refine ⟨before, push, between, frame, split, pushes, ?_, ?_, ?_, ?_, ?_⟩
      · rw [after]
        exact resumesAt
      · rw [after]
        exact atIndex
      · rw [atIndex]
        exact above
      · intro group
        rw [after, ← Store.captures_record, ← push.before.store.captures_record, recorded]
      · intro id
        have same := congrArg (fun store => (store.registers.repeatOf id).entry) recorded
        simp only [Store.repeatOf_record] at same
        rw [after]
        exact same
  · cases resumed

/-- A group beyond the thirty-second is set again after it was cleared, in a run that also throws a
choice away. -/
theorem backtracking_restores_captures_of_cleared_group :
    let calls : List Builder.Call :=
      [.setGroups 33, .newLabel, .emit (.openGroup 33 true), .emit (.closeGroup 33 true), .push ⟨0⟩,
        .push ⟨0⟩, .emit .pop, .emit (.clearGroups 33 34), .emit .atomicStart, .emit .atomicEnd,
        .emit .fail, .bind ⟨0⟩, .emit .accept]
    ∃ setting : Setting,
      ((Builder.new .utf8).afterCalls calls).build.1 = .ok setting.program ∧
        setting.program.LogsAll ∧
        ∃ earlier resume later,
          trail setting 9 (.start setting (.blank 34 0)) = earlier ++ resume :: later ∧
            (∀ visit ∈ earlier, visit.DiscardsChoice) ∧
            resume.move = .backtrack ∧ resume.before.store.captures 33 = (none, none) ∧
            ∃ push ∈ earlier, push.before.store.captures 33 = (some 0, some 0) ∧
              resume.after.store.captures 33 = push.before.store.captures 33 := by
  intro calls
  let program : Program :=
    { code := #[.openGroup 33 true, .closeGroup 33 true, .push 7, .push 6, .pop,
        .clearGroups 33 34, .atomicStart, .atomicEnd, .fail, .accept]
      templates := #[], classes := #[], repeatRanges := #[], groupCount := 33, emptyCheckCount := 0
      loggedStarts := GroupMask.empty.insert 33, loggedEnds := GroupMask.empty.insert 33
      options := .none, encoding := .utf8 }
  let setting : Setting :=
    ⟨⟨program, .none, .whole ⟨#[]⟩⟩, .unlimited, .patient⟩
  have built : ((Builder.new .utf8).afterCalls calls).build.1 = .ok setting.program := by
    rfl
  have logsAll : setting.program.LogsAll := by decide +kernel
  have discards : ∀ visit ∈ trail setting 9 (.start setting (.blank 34 0)),
      visit.DiscardsChoice := by decide +kernel
  obtain ⟨resume, mem, resumes, cleared, restored⟩ :
      ∃ visit ∈ trail setting 9 (.start setting (.blank 34 0)), visit.move = .backtrack ∧
        visit.before.store.captures 33 = (none, none) ∧
        visit.after.store.captures 33 = (some 0, some 0) := by decide +kernel
  obtain ⟨earlier, later, parts⟩ := List.append_of_mem mem
  have discards' : ∀ visit ∈ earlier, visit.DiscardsChoice := by
    intro visit within
    apply discards
    rw [parts]
    exact List.mem_append_left _ within
  obtain ⟨before, push, between, _, split, _, _, _, _, captures, _⟩ :=
    backtracking_restores_captures_and_repeats built logsAll (.blank 34 0) 9 parts discards' resumes
  refine ⟨setting, built, logsAll, earlier, resume, later, parts, discards', resumes, cleared, push,
    ?_, ?_, captures 33⟩
  · rw [split]
    exact List.mem_append_right _ List.mem_cons_self
  · rw [← captures 33, restored]

end Search

end PatternMachine
