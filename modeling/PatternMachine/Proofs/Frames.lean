import PatternMachine.Proofs.Growth

/-!
# What holds of all frames

An invariant of a store says something about each of its frames.  Such a statement survives every
operation on the stack if it survives what that operation does to a frame: another count, or giving
the frame up.  A change of all frames at once (`Stack.map`) does not matter to what only looks at
what the change leaves alone.
-/

namespace PatternMachine

namespace Stack

/-- Whether every frame is good. -/
def All (Good : Frame → Prop) (stack : Stack) : Prop :=
  ∀ index frame, stack.get? index = some frame → Good frame

namespace All

variable {Good : Frame → Prop} {stack : Stack} {frame : Frame}

theorem empty : Stack.empty.All Good := by
  intro index frame read
  cases read

theorem push (all : stack.All Good) (good : Good frame) : (stack.push frame).All Good := by
  intro index found read
  rw [get?_push] at read
  split at read
  · cases read
    exact good
  · exact all index found read

theorem top (all : (stack.push frame).All Good) : Good frame :=
  all stack.depth frame (stack.get?_depth_push frame)

theorem lower (all : (stack.push frame).All Good) : stack.All Good := by
  intro index found read
  refine all index found ?_
  exact (stack.get?_push_of_lt frame (lt_depth_of_get? read)).trans read

theorem setEntryCount (all : stack.All Good)
    (counts : ∀ frame count, Good frame → Good (frame.withCount count)) (index count : Nat) :
    (stack.setEntryCount index count).All Good := by
  intro other found read
  simp only [Stack.setEntryCount, get?_modify] at read
  split at read
  · obtain ⟨original, readOriginal, rfl⟩ := Option.map_eq_some_iff.1 read
    exact counts original count (all other original readOriginal)
  · exact all other found read

theorem commit (all : stack.All Good) (settles : ∀ frame, Good frame → Good (settle frame))
    (void : Good .void) (mark : Mark) : (stack.commit mark).2.All Good := by
  induction stack using push_induction with
  | empty => exact all
  | push stack frame ih =>
      rw [commit_push]
      split
      · exact all.lower.push void
      · exact (ih all.lower).push (settles frame all.top)

end All

/-! ### Changing all frames -/

/-- A stack with all frames changed. -/
def map (change : Frame → Frame) (stack : Stack) : Stack :=
  ⟨stack.frames.map change⟩

section Map

variable (change : Frame → Frame) (stack : Stack)

@[simp] theorem map_empty : empty.map change = empty :=
  congrArg mk Array.map_empty

@[simp] theorem depth_map : (stack.map change).depth = stack.depth :=
  Array.size_map

@[simp] theorem get?_map (index : Nat) :
    (stack.map change).get? index = (stack.get? index).map change :=
  Array.getElem?_map

theorem map_push (frame : Frame) :
    (stack.push frame).map change = (stack.map change).push (change frame) :=
  congrArg mk Array.map_push

theorem map_setEntryCount
    (counts : ∀ frame count, change (frame.withCount count) = (change frame).withCount count)
    (index count : Nat) :
    (stack.setEntryCount index count).map change =
      (stack.map change).setEntryCount index count := by
  apply ext_get?
  intro other
  simp only [get?_map, setEntryCount, get?_modify]
  split
  · cases stack.get? other with
    | none => rfl
    | some frame => exact congrArg some (counts frame count)
  · rfl

/-- What is looked for in the changed frames may be looked for in the frames themselves. -/
theorem seek_map {State Answer : Type} (visit : Frame → State → Except Answer State)
    (start : State) :
    (stack.map change).seek visit start =
      stack.seek (fun frame state => visit (change frame) state) start := by
  induction stack using push_induction generalizing start with
  | empty => rw [map_empty, seek_empty, seek_empty]
  | push stack frame ih =>
      rw [map_push, seek_push, seek_push]
      cases visit (change frame) start with
      | error answer => rfl
      | ok next => exact ih next

variable {change}

theorem lastIndex?_map {test test' : Frame → Bool}
    (same : ∀ frame, test' (change frame) = test frame) :
    (stack.map change).lastIndex? test' = stack.lastIndex? test := by
  induction stack using push_induction with
  | empty => rw [map_empty, lastIndex?_empty, lastIndex?_empty]
  | push stack frame ih => rw [map_push, lastIndex?_push, lastIndex?_push, same, depth_map, ih]

theorem firstFrom?_map {Answer : Type} {ask : Frame → Option Answer}
    (same : ∀ frame, ask (change frame) = ask frame) (index count : Nat) :
    (stack.map change).firstFrom? ask index count = stack.firstFrom? ask index count := by
  induction count generalizing index with
  | zero => rfl
  | succ count ih =>
      rw [firstFrom?, firstFrom?, ih, get?_map]
      cases stack.get? index with
      | none => rfl
      | some frame => simp only [Option.map_some, Option.bind_some, same]

theorem map_commit (marks : ∀ frame mark, (change frame).isMark mark = frame.isMark mark)
    (settles : ∀ frame, change (settle frame) = settle (change frame))
    (void : change .void = .void) (mark : Mark) :
    (stack.commit mark).2.map change = ((stack.map change).commit mark).2 := by
  induction stack using push_induction with
  | empty => rw [commit_empty, map_empty, commit_empty]
  | push stack frame ih =>
      rw [map_push, commit_push, commit_push, marks]
      split
      · rw [map_push, void]
      · rw [map_push, ih, settles]

end Map

end Stack

namespace Store

/-- What survives taking off a frame that passes a test, and writing back what another one saved,
survives going back to such a frame. -/
theorem unwind_invariant {Inv : Store → Prop} (test : Frame → Bool)
    (lower : ∀ (store : Store) (frame : Frame), test frame = true → Inv (store.push frame) →
      Inv store)
    (restore : ∀ (store : Store) (frame : Frame),
      Inv (store.push frame) → Inv (store.restore frame))
    {store : Store} (start : Inv store) : Inv (store.unwind test).2 := by
  induction store using push_induction with
  | empty registers =>
      rw [unwind_blank]
      exact start
  | push store frame ih =>
      rw [unwind_push]
      split
      · next passes => exact lower store frame passes start
      · exact ih _ (store.depth_restore frame) (restore store frame start)

/-- The frame that is found is good, if that holds of the top frame as long as an invariant does. -/
theorem unwind_found {Inv : Store → Prop} {Good : Frame → Prop}
    (top : ∀ (store : Store) (frame : Frame), Inv (store.push frame) → Good frame)
    (restore : ∀ (store : Store) (frame : Frame),
      Inv (store.push frame) → Inv (store.restore frame))
    {test : Frame → Bool} {store : Store} (start : Inv store) {found : Frame}
    (isFound : (store.unwind test).1 = some found) : Good found := by
  induction store using push_induction with
  | empty registers =>
      rw [unwind_blank] at isFound
      cases isFound
  | push store frame ih =>
      rw [unwind_push] at isFound
      split at isFound
      · cases isFound
        exact top store _ start
      · exact ih _ (store.depth_restore frame) (restore store frame start) isFound

/-- What survives taking a frame off survives throwing it away. -/
theorem discard_invariant {Inv : Store → Prop}
    (lower : ∀ (store : Store) (frame : Frame), Inv (store.push frame) → Inv store)
    {store : Store} (start : Inv store) : Inv store.discard.2 := by
  induction store using push_induction with
  | empty registers => exact start
  | push store frame _ =>
      rw [discard_push]
      exact lower store frame start

end Store

end PatternMachine
