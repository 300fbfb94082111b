import PatternMachine.Proofs.Entries

/-!
# Bounds kept in frames

A bound of a group that is kept in a frame is kept in one that opened or closed the group, and what
a frame saves is kept below it (`Store.Rooted`).  So no bound refers to a frame that is not there,
as long as nothing but choices is thrown away.
-/

namespace PatternMachine

namespace Stack

/-- Whether the frame at an index opened a group. -/
def OpenedAt (stack : Stack) (group index : Nat) : Prop :=
  ∃ position saved, stack.get? index = some (.groupStart group (some position) saved)

/-- Whether the frame at an index closed a group. -/
def ClosedAt (stack : Stack) (group index : Nat) : Prop :=
  ∃ position saved, stack.get? index = some (.groupEnd group (some position) saved)

end Stack

/-- Whether the bounds of a group are kept, if in frames, in its own ones below a limit. -/
structure Bounds.RootedIn (stack : Stack) (group limit : Nat) (bounds : Bounds) : Prop where
  start : ∀ index, bounds.start = .inFrame index → index < limit ∧ stack.OpenedAt group index
  stop : ∀ index, bounds.stop = .inFrame index → index < limit ∧ stack.ClosedAt group index

/-- Whether all bounds that are kept in frames are kept in frames of their groups, and those that a
frame saves below it. -/
structure Store.Rooted (store : Store) : Prop where
  groups : ∀ group, (store.registers.boundsOf group).RootedIn store.stack group store.depth
  saved : ∀ index frame group bounds, store.stack.get? index = some frame →
    frame.savedBounds? group = some bounds → bounds.RootedIn store.stack group index

/-- A frame of a group stays what it is. -/
theorem Frame.Becomes.eq_of_group? {frame later : Frame} (becomes : frame.Becomes later)
    {group : Nat} (own : frame.group? = some group) : later = frame := by
  cases becomes with
  | same => rfl
  | counted => cases own
  | givenUp nothing =>
      cases frame with
      | groupStart | groupEnd => cases nothing
      | _ => cases own

theorem Frame.group?_of_savedBounds? {frame : Frame} {group : Nat} {bounds : Bounds}
    (saves : frame.savedBounds? group = some bounds) : frame.group? = some group := by
  cases frame with
  | groupStart number position saved | groupEnd number position saved =>
      rw [savedBounds?] at saves
      split at saves
      · next own => exact congrArg some own
      · cases saves
  | _ => cases saves

namespace Bounds.RootedIn

variable {stack stack' : Stack} {group limit : Nat} {bounds : Bounds}

theorem unset (stack : Stack) (group limit : Nat) : Bounds.unset.RootedIn stack group limit := by
  constructor
  · rintro index ⟨⟩
  · rintro index ⟨⟩

/-- Bounds stay rooted while the frames of their group stay. -/
theorem of_stays (rooted : bounds.RootedIn stack group limit) {limit' : Nat}
    (higher : limit ≤ limit')
    (stays : ∀ index frame, index < limit → frame.group? = some group →
      stack.get? index = some frame → stack'.get? index = some frame) :
    bounds.RootedIn stack' group limit' where
  start := by
    intro index same
    obtain ⟨below, position, saved, read⟩ := rooted.start index same
    exact ⟨Nat.lt_of_lt_of_le below higher, position, saved, stays index _ below rfl read⟩
  stop := by
    intro index same
    obtain ⟨below, position, saved, read⟩ := rooted.stop index same
    exact ⟨Nat.lt_of_lt_of_le below higher, position, saved, stays index _ below rfl read⟩

theorem push (rooted : bounds.RootedIn stack group limit) {limit' : Nat} (higher : limit ≤ limit')
    (frame : Frame) : bounds.RootedIn (stack.push frame) group limit' := by
  refine rooted.of_stays higher fun index found _ _ read => ?_
  exact (stack.get?_push_of_lt frame (Stack.lt_depth_of_get? read)).trans read

/-- Bounds that are kept below a frame do without it. -/
theorem lower {frame : Frame} (rooted : bounds.RootedIn (stack.push frame) group limit)
    (within : limit ≤ stack.depth) : bounds.RootedIn stack group limit := by
  refine rooted.of_stays (Nat.le_refl _) fun index found below _ read => ?_
  exact (stack.get?_push_of_lt frame (Nat.lt_of_lt_of_le below within)).symm.trans read

/-- Bounds of a group that the frame on top is not one of do without it. -/
theorem lower_of_ne {frame : Frame} (rooted : bounds.RootedIn (stack.push frame) group limit)
    (other : frame.group? ≠ some group) : bounds.RootedIn stack group stack.depth := by
  have apart : ∀ index found, found.group? = some group →
      (stack.push frame).get? index = some found → stack.get? index = some found := by
    intro index found own read
    rw [Stack.get?_push] at read
    split at read
    · cases read
      exact absurd own other
    · exact read
  constructor
  · intro index same
    obtain ⟨-, position, saved, read⟩ := rooted.start index same
    have read' := apart index _ rfl read
    exact ⟨Stack.lt_depth_of_get? read', position, saved, read'⟩
  · intro index same
    obtain ⟨-, position, saved, read⟩ := rooted.stop index same
    have read' := apart index _ rfl read
    exact ⟨Stack.lt_depth_of_get? read', position, saved, read'⟩

end Bounds.RootedIn

namespace Store.Rooted

variable {store : Store} {frame : Frame}

theorem reset (store : Store) : store.reset.Rooted where
  groups := by
    intro group
    rw [boundsOf_reset]
    exact .unset ..
  saved := by
    intro index frame group bounds read
    cases read

/-- Registers refer to no frame that is not there. -/
theorem grounded (rooted : store.Rooted) : store.Grounded := by
  rintro group index (same | same)
  · exact ((rooted.groups group).start index same).1
  · exact ((rooted.groups group).stop index same).1

theorem setGroup (rooted : store.Rooted) {group : Nat} {bounds : Bounds}
    (own : bounds.RootedIn store.stack group store.depth) : (store.setGroup group bounds).Rooted where
  groups := by
    intro other
    rcases store.boundsOf_setGroup_or group bounds other with same | ⟨rfl, same⟩
    · rw [same]
      exact rooted.groups other
    · rw [same]
      exact own
  saved := rooted.saved

theorem setRepeat (rooted : store.Rooted) (id : Nat) (register : RepeatRegister) :
    (store.setRepeat id register).Rooted :=
  ⟨rooted.groups, rooted.saved⟩

/-- Frames may become what they do, as long as none is taken off. -/
theorem of_becomes (rooted : store.Rooted) {stack : Stack} (depth : stack.depth = store.depth)
    (becomes : ∀ index frame, stack.get? index = some frame →
      ∃ before, store.stack.get? index = some before ∧ before.Becomes frame) :
    ({ store with stack } : Store).Rooted := by
  have stays : ∀ group index frame, frame.group? = some group →
      store.stack.get? index = some frame → stack.get? index = some frame := by
    intro group index frame own read
    have inside : index < stack.depth := by
      rw [depth]
      exact Stack.lt_depth_of_get? read
    have readLater : stack.get? index = some stack.frames[index] := Array.getElem?_eq_getElem inside
    obtain ⟨before, readBefore, later⟩ := becomes index _ readLater
    obtain rfl := Option.some.inj (read.symm.trans readBefore)
    rw [readLater, later.eq_of_group? own]
  constructor
  · intro group
    exact (rooted.groups group).of_stays (Nat.le_of_eq depth.symm) fun index frame _ own read =>
      stays group index frame own read
  · intro index frame group bounds read saves
    obtain ⟨before, readBefore, later⟩ := becomes index frame read
    rw [later.savedBounds?_eq] at saves
    exact (rooted.saved index before group bounds readBefore saves).of_stays (Nat.le_refl _)
      fun other frame _ own read => stays group other frame own read

theorem setEntryCount (rooted : store.Rooted) (index count : Nat) :
    ({ store with stack := store.stack.setEntryCount index count } : Store).Rooted := by
  refine rooted.of_becomes (Stack.depth_setEntryCount ..) fun other frame read => ?_
  simp only [Stack.setEntryCount, Stack.get?_modify] at read
  split at read
  · obtain ⟨before, readBefore, rfl⟩ := Option.map_eq_some_iff.1 read
    exact ⟨before, readBefore, .withCount before count⟩
  · exact ⟨frame, read, .same⟩

theorem commit (rooted : store.Rooted) {mark : Mark} (noCall : mark ≠ .call) :
    (store.commit mark).2.Rooted :=
  rooted.of_becomes (Stack.depth_commit ..) fun _ _ read => get?_commit noCall read

theorem push (rooted : store.Rooted)
    (own : ∀ group bounds, frame.savedBounds? group = some bounds →
      bounds.RootedIn store.stack group store.depth) : (store.push frame).Rooted where
  groups := fun group => (rooted.groups group).push (by rw [depth_push]; exact Nat.le_succ _) frame
  saved := by
    intro index found group bounds read saves
    rw [Store.push, Stack.get?_push] at read
    split at read
    · next onTop =>
      cases read
      exact (own group bounds saves).push (Nat.le_of_eq onTop.symm) frame
    · exact (rooted.saved index found group bounds read saves).push (Nat.le_refl _) frame

/-- A frame that is of no group may be pushed. -/
theorem push_of_no_group (rooted : store.Rooted) (ofNoGroup : frame.group? = none) :
    (store.push frame).Rooted := by
  refine rooted.push fun group bounds saves => ?_
  rw [Frame.group?_of_savedBounds? saves] at ofNoGroup
  cases ofNoGroup

/-- A frame that opens or closes a group saves what its register holds. -/
theorem push_own (rooted : store.Rooted) {group : Nat}
    (saves : ∀ other, frame.savedBounds? other =
      if group = other then some (store.registers.boundsOf group) else none) :
    (store.push frame).Rooted := by
  refine rooted.push fun other bounds isSaved => ?_
  rw [saves] at isSaved
  split at isSaved
  · next same =>
    cases isSaved
    subst same
    exact rooted.groups _
  · cases isSaved

theorem lower_saved (rooted : (store.push frame).Rooted) (index : Nat) (found : Frame) (group : Nat)
    (bounds : Bounds) (read : store.stack.get? index = some found)
    (saves : found.savedBounds? group = some bounds) :
    bounds.RootedIn store.stack group index := by
  have inside := Stack.lt_depth_of_get? read
  have read' : (store.push frame).stack.get? index = some found :=
    (store.stack.get?_push_of_lt frame inside).trans read
  exact (rooted.saved index found group bounds read' saves).lower (Nat.le_of_lt inside)

/-- A frame that is of no group may be taken off. -/
theorem lower (rooted : (store.push frame).Rooted) (ofNoGroup : frame.group? = none) :
    store.Rooted where
  groups := by
    intro group
    refine (rooted.groups group).lower_of_ne ?_
    rw [ofNoGroup]
    exact Option.some_ne_none group |>.symm
  saved := rooted.lower_saved

/-- What a frame on top saves is kept below it, and no other group refers to it. -/
theorem restore_group (rooted : (store.push frame).Rooted) {group : Nat} {saved : Bounds}
    (saves : frame.savedBounds? group = some saved) : (store.setGroup group saved).Rooted where
  groups := by
    intro other
    by_cases own : other = group
    · subst own
      by_cases inside : other < store.registers.groups.size
      · rw [boundsOf_setGroup store saved other inside, if_pos rfl]
        exact (rooted.saved _ frame other saved (store.stack.get?_depth_push frame) saves).lower
          (Nat.le_refl _)
      · -- A group without a register is never set.
        have unset : (store.setGroup other saved).registers.boundsOf other = .unset := by
          simp only [Store.setGroup, Registers.setGroup, Registers.boundsOf,
            Array.getD_eq_getD_getElem?, Array.getElem?_setIfInBounds_self, if_neg inside,
            Option.getD_none]
        rw [unset]
        exact .unset ..
    · have same := (store.boundsOf_setGroup_or group saved other).resolve_right fun this =>
        own this.1
      rw [same]
      refine (rooted.groups other).lower_of_ne ?_
      rw [Frame.group?_of_savedBounds? saves]
      exact fun same => own (Option.some.inj same).symm
  saved := rooted.lower_saved

/-- Going back over a frame leaves no bound behind that is kept in it. -/
theorem restore (store : Store) (frame : Frame) (rooted : (store.push frame).Rooted) :
    (store.restore frame).Rooted := by
  cases frame with
  | groupStart group position saved => exact rooted.restore_group (if_pos rfl)
  | groupEnd group position saved => exact rooted.restore_group (if_pos rfl)
  | repeatEntry id count body outer savedCount => exact (rooted.lower rfl).setRepeat ..
  | entryCount index savedCount => exact (rooted.lower rfl).setEntryCount ..
  | registerCount id savedCount => exact (rooted.lower rfl).setRepeat ..
  | _ => exact rooted.lower rfl

theorem unwind (rooted : store.Rooted) {test : Frame → Bool}
    (ofNoGroup : ∀ frame, test frame = true → frame.group? = none) : (store.unwind test).2.Rooted :=
  unwind_invariant test (fun _ frame passes rooted => rooted.lower (ofNoGroup frame passes)) restore
    rooted

/-- Every move but one that throws away something else than a choice keeps bounds in frames of their
groups, if what it writes for good is kept so. -/
theorem onStore {program : Program} (rooted : store.Rooted) {move : Move}
    (regular : move.Regular program)
    (written : ∀ group bounds, move = .perform (.setGroup group bounds) →
      bounds.RootedIn store.stack group store.depth)
    (discards : move = .perform .discard → store.topIsChoice = true) :
    (move.onStore store).Rooted := by
  cases move with
  | perform effect =>
      cases effect with
      | note event => exact rooted
      | push frame =>
          refine rooted.push_of_no_group ?_
          cases frame <;> first | rfl | cases regular
      | openGroup group position =>
          refine (rooted.push_own fun other => rfl).setGroup ⟨?_, nofun⟩
          rintro index ⟨⟩
          exact ⟨by rw [depth_push]; exact Nat.lt_succ_self _, _, _, Stack.get?_depth_push ..⟩
      | closeGroup group position =>
          refine (rooted.push_own fun other => rfl).setGroup ⟨?_, ?_⟩
          · intro index same
            exact ((rooted.groups group).push (by rw [depth_push]; exact Nat.le_succ _) _).start
              index same
          · rintro index ⟨⟩
            exact ⟨by rw [depth_push]; exact Nat.lt_succ_self _, _, _, Stack.get?_depth_push ..⟩
      | clearGroup group => exact (rooted.push_own fun other => rfl).setGroup (.unset ..)
      | setGroup group bounds => exact rooted.setGroup (written group bounds rfl)
      | enterRepeat id body => exact (rooted.push_of_no_group rfl).setRepeat ..
      | countInEntry index => exact (rooted.setEntryCount index _).push_of_no_group rfl
      | countInRegister id => exact (rooted.push_of_no_group rfl).setRepeat ..
      | discard =>
          obtain ⟨lowered, point, rfl⟩ := exists_push_of_topIsChoice (discards rfl)
          rw [Move.onStore, Effect.onStore, discard_push]
          exact rooted.lower rfl
      | commit mark => exact rooted.commit regular
      | unwindTo mark =>
          refine rooted.unwind fun frame isMark => ?_
          cases frame <;> first | rfl | cases isMark
  | backtrack =>
      refine rooted.unwind fun frame resumable => ?_
      cases frame <;> first | rfl | cases resumable
  | _ => exact rooted

end Store.Rooted

end PatternMachine
