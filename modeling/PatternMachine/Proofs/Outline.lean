import PatternMachine.Proofs.Frames
import PatternMachine.Proofs.References
import PatternMachine.Search.Plan.OfInstruction

/-!
# Stores without repeats

Only the instructions that count look at what repeats have counted; to all others a frame of a
repeat is as good as one that was given up.  `Store.outline` is a store without its repeats.  Every
effect on a store is an effect on its outline, and two stores with the same outline make an
instruction that does not count do the same.
-/

namespace PatternMachine

/-- A frame without what it saves of a repeat. -/
def Frame.outline : Frame → Frame
  | .repeatEntry .. | .entryCount .. | .registerCount .. => .void
  | other => other

/-- The frames of a stack without what they save of repeats. -/
def Stack.outline (stack : Stack) : Stack :=
  ⟨stack.frames.map Frame.outline⟩

/-- A store without its repeats. -/
def Store.outline (store : Store) : Store :=
  ⟨store.stack.outline, { store.registers with repeats := #[] }⟩

/-! ### Looking at outlines -/

namespace Frame

@[simp] theorem outline_withCount (frame : Frame) (count : Nat) :
    (frame.withCount count).outline = frame.outline := by
  cases frame <;> rfl

@[simp] theorem isMark_outline (frame : Frame) (mark : Mark) :
    frame.outline.isMark mark = frame.isMark mark := by
  cases frame <;> rfl

@[simp] theorem resume?_outline (frame : Frame) : frame.outline.resume? = frame.resume? := by
  cases frame <;> rfl

@[simp] theorem isResumable_outline (frame : Frame) :
    frame.outline.isResumable = frame.isResumable := by
  cases frame <;> rfl

@[simp] theorem position?_outline (frame : Frame) : frame.outline.position? = frame.position? := by
  cases frame <;> rfl

@[simp] theorem savedBounds?_outline (frame : Frame) (group : Nat) :
    frame.outline.savedBounds? group = frame.savedBounds? group := by
  cases frame <;> rfl

theorem outline_settle (frame : Frame) :
    (Stack.settle frame).outline = Stack.settle frame.outline := by
  cases frame <;> rfl

end Frame

namespace Stack

variable (stack : Stack)

@[simp] theorem outline_empty : empty.outline = empty :=
  map_empty Frame.outline

@[simp] theorem depth_outline : stack.outline.depth = stack.depth :=
  stack.depth_map Frame.outline

@[simp] theorem get?_outline (index : Nat) :
    stack.outline.get? index = (stack.get? index).map Frame.outline :=
  stack.get?_map Frame.outline index

theorem outline_push (frame : Frame) :
    (stack.push frame).outline = stack.outline.push frame.outline :=
  stack.map_push Frame.outline frame

theorem outline_setEntryCount (index count : Nat) :
    (stack.setEntryCount index count).outline = stack.outline := by
  apply ext_get?
  intro other
  simp only [get?_outline, setEntryCount, get?_modify]
  split
  · cases stack.get? other with
    | none => rfl
    | some frame => exact congrArg some (frame.outline_withCount count)
  · rfl

/-- What looks at outlines only finds the same in the outline of a stack. -/
theorem seek_outline {State Answer : Type} (visit : Frame → State → Except Answer State)
    (same : ∀ frame state, visit frame.outline state = visit frame state) (start : State) :
    stack.outline.seek visit start = stack.seek visit start :=
  (stack.seek_map Frame.outline visit start).trans
    (congrArg (stack.seek · start) (funext fun frame => funext (same frame)))

theorem lastIndex?_outline (test : Frame → Bool)
    (same : ∀ frame : Frame, test frame.outline = test frame) :
    stack.outline.lastIndex? test = stack.lastIndex? test :=
  stack.lastIndex?_map same

@[simp] theorem hasMark_outline (mark : Mark) :
    stack.outline.hasMark mark = stack.hasMark mark := by
  rw [hasMark, hasMark, lastIndex?_outline _ _ fun frame => frame.isMark_outline mark]

@[simp] theorem lookCursor?_outline : stack.outline.lookCursor? = stack.lookCursor? :=
  stack.seek_outline _ (fun frame _ => by cases frame <;> rfl) _

@[simp] theorem returnAddress?_outline : stack.outline.returnAddress? = stack.returnAddress? :=
  stack.seek_outline _ (fun frame _ => by cases frame <;> rfl) _

@[simp] theorem emptyCheck?_outline (id : Nat) :
    stack.outline.emptyCheck? id = stack.emptyCheck? id :=
  stack.lastIndex?_outline _ fun frame => by cases frame <;> rfl

@[simp] theorem spanAtLevel?_outline (groups : List Nat) (wanted : Int) :
    stack.outline.spanAtLevel? groups wanted = stack.spanAtLevel? groups wanted :=
  stack.seek_outline _ (fun frame _ => by cases frame <;> rfl) _

theorem firstFrom?_outline {Answer : Type} (ask : Frame → Option Answer)
    (same : ∀ frame : Frame, ask frame.outline = ask frame) (index count : Nat) :
    stack.outline.firstFrom? ask index count = stack.firstFrom? ask index count :=
  stack.firstFrom?_map same index count

theorem outline_commit (mark : Mark) :
    (stack.commit mark).2.outline = (stack.outline.commit mark).2 :=
  stack.map_commit Frame.isMark_outline Frame.outline_settle rfl mark

end Stack

namespace Store

variable (store : Store)

@[simp] theorem depth_outline : store.outline.depth = store.depth :=
  store.stack.depth_outline

theorem outline_push (frame : Frame) :
    (store.push frame).outline = store.outline.push frame.outline := by
  rw [outline, push, Stack.outline_push]
  rfl

theorem outline_restore (frame : Frame) :
    (store.restore frame).outline = store.outline.restore frame.outline := by
  cases frame with
  | entryCount index count =>
      simp only [restore, outline, Stack.outline_setEntryCount]
      rfl
  | _ => rfl

/-- Taking frames off comes to the same in the outline of a store. -/
theorem outline_unwind {test : Frame → Bool}
    (same : ∀ frame : Frame, test frame.outline = test frame) :
    store.outline.unwind test =
      ((store.unwind test).1.map Frame.outline, (store.unwind test).2.outline) := by
  induction store using push_induction with
  | empty registers =>
      simp only [outline, Stack.outline_empty, unwind_blank, Option.map_none]
  | push store frame ih =>
      rw [outline_push, unwind_push, unwind_push, same]
      split
      · rfl
      · rw [← outline_restore]
        exact ih _ (store.depth_restore frame)

theorem outline_backtrack :
    store.outline.backtrack = (store.backtrack.1, store.backtrack.2.outline) := by
  have resumed : ∀ found : Option Frame,
      (found.map Frame.outline).bind Frame.resume? = found.bind Frame.resume? := by
    intro found
    cases found with
    | none => rfl
    | some frame => exact frame.resume?_outline
  rw [backtrack, backtrack, store.outline_unwind Frame.isResumable_outline]
  exact congrArg (·, _) (resumed _)

theorem outline_discard : store.discard.2.outline = store.outline.discard.2 := by
  obtain ⟨stack, registers⟩ := store
  induction stack using Stack.push_induction with
  | empty => simp only [discard, outline, Stack.outline_empty, Stack.pop?_empty]
  | push stack frame _ =>
      have split : (⟨stack.push frame, registers⟩ : Store) = push ⟨stack, registers⟩ frame := rfl
      rw [split, outline_push, discard_push, discard_push]

/-! ### Groups in outlines -/

theorem resolve?_outline (bound : Bound) : store.outline.resolve? bound = store.resolve? bound := by
  cases bound with
  | unset | direct position => rfl
  | inFrame index =>
      simp only [resolve?, outline, Stack.get?_outline]
      cases store.stack.get? index with
      | none => rfl
      | some frame => exact frame.position?_outline

@[simp] theorem resolveBounds_outline (bounds : Bounds) :
    store.outline.resolveBounds bounds = store.resolveBounds bounds :=
  Prod.ext (store.resolve?_outline _) (store.resolve?_outline _)

@[simp] theorem boundsOf_outline (group : Nat) :
    store.outline.registers.boundsOf group = store.registers.boundsOf group := rfl

@[simp] theorem span?_outline (group : Nat) : store.outline.span? group = store.span? group := by
  rw [span?, span?, resolveBounds_outline, boundsOf_outline]

theorem region_outline (slots start stop : Nat) :
    store.outline.region slots start stop = store.region slots start stop :=
  region_congr store.span?_outline slots start stop

theorem groupsUnchanged_outline (index : Nat) (groups : List Nat) :
    store.outline.groupsUnchanged index groups = store.groupsUnchanged index groups := by
  have before : ∀ group, store.outline.boundsBefore? index group =
      store.boundsBefore? index group := by
    intro group
    rw [boundsBefore?, boundsBefore?, Stack.firstAbove?, Stack.firstAbove?]
    simp only [outline, Stack.depth_outline]
    exact store.stack.firstFrom?_outline _ (fun frame => frame.savedBounds?_outline group) _ _
  simp only [groupsUnchanged, before, resolveBounds_outline, boundsOf_outline]

end Store

/-! ### Effects on outlines -/

/-- What an effect does besides what concerns repeats. -/
def Effect.outline : Effect → Effect
  | .push frame => .push frame.outline
  | .enterRepeat .. | .countInEntry _ | .countInRegister _ => .push .void
  | other => other

/-- An effect on a store is its outline's effect on the store's outline. -/
theorem Effect.outline_onStore (effect : Effect) (store : Store) :
    (effect.onStore store).outline = effect.outline.onStore store.outline := by
  cases effect with
  | note event | setGroup group bounds => rfl
  | push frame => exact store.outline_push frame
  | openGroup group position | closeGroup group position | clearGroup group =>
      simp only [onStore, outline, Store.openGroup, Store.closeGroup, Store.clearGroup,
        Store.depth_outline, Store.boundsOf_outline]
      exact congrArg (Store.setGroup · group _) (store.outline_push _)
  | enterRepeat id body | countInRegister id => exact store.outline_push _
  | countInEntry index =>
      simp only [onStore, outline, Store.countInEntry, Store.outline]
      rw [Stack.outline_push, Stack.outline_setEntryCount]
      rfl
  | discard => exact store.outline_discard
  | commit mark =>
      simp only [onStore, outline, Store.commit, Store.outline]
      rw [Stack.outline_commit]
  | unwindTo mark =>
      simp only [onStore, outline, Store.unwindTo]
      rw [store.outline_unwind fun frame => frame.isMark_outline mark]

/-! ### Instructions on outlines -/

/-- Whether an instruction looks at what a repeat has counted. -/
def Instruction.isCount : Instruction → Bool
  | .repeatNext .. => true
  | _ => false

namespace Attempt

variable (attempt : Attempt) (store : Store)

theorem repeat?_outline (position : Nat) (reference : BackReference) :
    reference.repeat? attempt store.outline position =
      reference.repeat? attempt store position :=
  BackReference.repeat?_congr rfl (fun _ => rfl) store.span?_outline rfl
    store.stack.spanAtLevel?_outline position reference

end Attempt

/-- An instruction that does not count does the same on the outline of a store. -/
theorem Plan.ofInstruction_outline (attempt : Attempt) (point : Point) (store : Store)
    {instruction : Instruction} (noCount : instruction.isCount = false) :
    ofInstruction attempt point store.outline instruction =
      ofInstruction attempt point store instruction := by
  have stack : store.outline.stack = store.stack.outline := rfl
  cases instruction with
  | openGroup group logged | closeGroup group logged =>
      simp only [ofInstruction, openGroup, closeGroup, Store.boundsOf_outline]
  | backReference reference =>
      simp only [ofInstruction, backReference, attempt.repeat?_outline]
  | emptyCheckEnd id watched =>
      have empty : ∀ index, iterationEmpty point store.outline index watched =
          iterationEmpty point store index watched := by
        intro index
        simp only [iterationEmpty, store.groupsUnchanged_outline, stack, Stack.get?_outline]
        cases store.stack.get? index with
        | none => rfl
        | some frame => cases frame <;> rfl
      simp only [ofInstruction, emptyCheckEnd, stack, Stack.emptyCheck?_outline, empty]
  | pop => simp only [ofInstruction, pop, Store.depth_outline]
  | lookEnd => simp only [ofInstruction, lookEnd, stack, Stack.lookCursor?_outline]
  | lookNotFail | atomicEnd | lookBehindNotFail =>
      simp only [ofInstruction, excluded, atomicEnd, stack, Stack.hasMark_outline]
  | callReturn => simp only [ofInstruction, callReturn, stack, Stack.returnAddress?_outline]
  | repeatNext id greedy direct => cases noCount
  | _ => rfl

end PatternMachine
