import PatternMachine.Proofs.UndoLog

/-!
# Brackets that are open

A closing instruction looks for the frame that its opening instruction has pushed, and the end of
an iteration for the entry of its repeat.  `Store.Nests` says that a list of such brackets is open,
each of them in a frame below the one before.  Other frames may lie in between, so what code inside
the brackets has left on the stack does not matter.  Brackets stay open as long as control is inside
them, and those that were open when a choice was left are open again when the search goes back to it
(`Store.Resumes`).
-/

namespace PatternMachine

/-- A bracket that one instruction opens and another one needs to be open. -/
inductive Bracket where
  /-- A lookaround or an atomic group. -/
  | mark (mark : Mark)
  /-- An iteration under an empty-iteration check. -/
  | check (id : Nat)
  /-- A bounded repeat. -/
  | loop (id : Nat)
  deriving DecidableEq, Repr

namespace Bracket

/-- Whether a frame opens a bracket. -/
def opens : Bracket → Frame → Bool
  | .mark kind, frame => frame.isMark kind
  | .check id, .emptyCheck started _ => started == id
  | .loop id, .repeatEntry entered .. => entered == id
  | _, _ => false

@[simp] theorem opens_withCount (bracket : Bracket) (frame : Frame) (count : Nat) :
    bracket.opens (frame.withCount count) = bracket.opens frame := by
  cases bracket with
  | mark kind => exact frame.isMark_withCount count kind
  | check id | loop id => cases frame <;> rfl

/-- The frame that opens a repeat is one of its entries. -/
theorem eq_of_opens_loop {id : Nat} {frame : Frame} (opens : (loop id).opens frame = true) :
    ∃ count body outer savedCount, frame = .repeatEntry id count body outer savedCount := by
  cases frame with
  | repeatEntry entered count body outer savedCount =>
      obtain rfl : entered = id := eq_of_beq opens
      exact ⟨count, body, outer, savedCount, rfl⟩
  | _ => cases opens

/-- A frame that saves nothing opens no repeat. -/
theorem ne_loop_of_savesNothing {bracket : Bracket} {frame : Frame}
    (nothing : frame.savesNothing = true) (opens : bracket.opens frame = true) (id : Nat) :
    bracket ≠ .loop id := by
  rintro rfl
  obtain ⟨_, _, _, _, rfl⟩ := eq_of_opens_loop opens
  cases nothing

end Bracket

/-! ### Open brackets -/

/-- Whether frames below a height open the brackets of a list, the innermost first.  A repeat must
be active in the frame that opens it. -/
inductive Stack.Nests (stack : Stack) (active : Nat → Option Nat) : Nat → List Bracket → Prop
  | nil {height : Nat} : Nests stack active height []
  | cons {height index : Nat} {frame : Frame} {bracket : Bracket} {context : List Bracket}
      (below : index < height) (read : stack.get? index = some frame)
      (opens : bracket.opens frame = true)
      (isActive : ∀ id, bracket = .loop id → active id = some index)
      (outer : Nests stack active index context) : Nests stack active height (bracket :: context)

namespace Stack

namespace Nests

variable {stack : Stack} {active : Nat → Option Nat} {height : Nat} {context : List Bracket}

theorem higher (nests : stack.Nests active height context) {height' : Nat}
    (more : height ≤ height') : stack.Nests active height' context := by
  cases nests with
  | nil => exact .nil
  | cons below read opens isActive outer =>
      exact .cons (Nat.lt_of_lt_of_le below more) read opens isActive outer

/-- When brackets are open, so are those around the innermost of them. -/
theorem suffix (nests : stack.Nests active height context) {inner : List Bracket}
    (within : inner <:+ context) : stack.Nests active height inner := by
  induction nests with
  | nil =>
      obtain rfl := List.suffix_nil.1 within
      exact .nil
  | cons below read opens isActive outer ih =>
      rcases List.suffix_cons_iff.1 within with rfl | within
      · exact .cons below read opens isActive outer
      · exact (ih within).higher (Nat.le_of_lt below)

/-- Brackets stay open as long as the frames that open them do so, and their repeats are active in
the same frames. -/
theorem transport (nests : stack.Nests active height context) {stack' : Stack}
    {active' : Nat → Option Nat}
    (frames : ∀ index frame, index < height → stack.get? index = some frame →
      ∃ frame', stack'.get? index = some frame' ∧
        ∀ bracket : Bracket, bracket.opens frame = true → bracket.opens frame' = true)
    (same : ∀ id, .loop id ∈ context → active' id = active id) :
    stack'.Nests active' height context := by
  induction nests with
  | nil => exact .nil
  | cons below read opens isActive outer ih =>
      obtain ⟨frame', read', opens'⟩ := frames _ _ below read
      refine .cons below read' (opens' _ opens) ?_ ?_
      · rintro id rfl
        rw [same id List.mem_cons_self]
        exact isActive id rfl
      · apply ih
        · intro index frame lower
          exact frames index frame (Nat.lt_trans lower below)
        · intro id mem
          exact same id (List.mem_cons_of_mem _ mem)

end Nests

end Stack

/-- The frame in which a repeat is active, if it is. -/
def Store.active (store : Store) (id : Nat) : Option Nat :=
  (store.registers.repeatOf id).entry

/-- Whether brackets are open, the innermost first. -/
def Store.Nests (store : Store) (context : List Bracket) : Prop :=
  store.stack.Nests store.active store.depth context

namespace Store

variable {store : Store} {context : List Bracket}

@[simp] theorem active_forgetBodies (store : Store) : store.forgetBodies.active = store.active := by
  funext id
  simp only [active, repeatOf_forgetBodies]
  rfl

/-- Where bodies start does not matter to what is open. -/
theorem Nests.of_forgetBodies (nests : store.Nests context) {other : Store}
    (same : other.forgetBodies = store.forgetBodies) : other.Nests context := by
  have sameStack : other.stack = store.stack := congrArg (fun store => store.stack) same
  unfold Nests depth
  rw [sameStack, ← other.active_forgetBodies, same, active_forgetBodies]
  exact nests

theorem repeatOf_setRepeat_of_ne {id other : Nat} (register : RepeatRegister)
    (apart : id ≠ other) :
    (store.setRepeat id register).registers.repeatOf other = store.registers.repeatOf other := by
  simp only [setRepeat, Registers.setRepeat, Registers.repeatOf, Array.getD_eq_getD_getElem?,
    Array.getElem?_setIfInBounds_ne apart]

theorem repeatOf_setRepeat_self {id : Nat} {register : RepeatRegister}
    (known : id < store.registers.repeats.size) :
    (store.setRepeat id register).registers.repeatOf id = register := by
  simp only [setRepeat, Registers.setRepeat, Registers.repeatOf, Array.getD_eq_getD_getElem?,
    Array.getElem?_setIfInBounds_self_of_lt known, Option.getD_some]

/-- To write a register without changing its entry leaves all repeats active as they are. -/
theorem active_setRepeat_of_entry {id : Nat} {register : RepeatRegister}
    (same : register.entry = store.active id) :
    (store.setRepeat id register).active = store.active := by
  funext other
  by_cases own : id = other
  · subst own
    rcases store.repeatOf_setRepeat id register with written | unwritten
    · rw [active, written, same]
    · rw [active, unwritten, active]
  · exact congrArg RepeatRegister.entry (repeatOf_setRepeat_of_ne register own)

/-! ### Frames that are pushed -/

namespace Nests

/-- What is pushed on top closes nothing below. -/
theorem below_push (nests : store.Nests context) {frame : Frame} {other : Store}
    (stack : other.stack = store.stack.push frame)
    (same : ∀ id, .loop id ∈ context → other.active id = store.active id) :
    other.stack.Nests other.active store.depth context := by
  apply Stack.Nests.transport nests _ same
  intro index found below read
  refine ⟨found, ?_, fun _ opens => opens⟩
  rw [stack, Stack.get?_push_of_lt _ _ below]
  exact read

theorem of_stack_eq_push (nests : store.Nests context) {frame : Frame} {other : Store}
    (stack : other.stack = store.stack.push frame) (same : other.active = store.active) :
    other.Nests context := by
  refine Stack.Nests.higher (nests.below_push stack fun id _ => congrFun same id) ?_
  unfold depth
  rw [stack, Stack.depth_push]
  exact Nat.le_succ _

theorem push (nests : store.Nests context) (frame : Frame) : (store.push frame).Nests context :=
  nests.of_stack_eq_push rfl rfl

/-- A frame that opens a bracket opens it inside all others. -/
theorem push_bracket (nests : store.Nests context) {frame : Frame} {bracket : Bracket}
    (nothing : frame.savesNothing = true) (opens : bracket.opens frame = true) :
    (store.push frame).Nests (bracket :: context) := by
  refine .cons ?_ (store.stack.get?_depth_push frame) opens ?_ ?_
  · exact Nat.lt_of_lt_of_eq (Nat.lt_succ_self _) (store.depth_push _).symm
  · intro id isLoop
    exact absurd isLoop (Bracket.ne_loop_of_savesNothing nothing opens id)
  · exact nests.below_push rfl fun _ _ => rfl

/-- A repeat that is entered is open inside all others, none of which is the same. -/
theorem enterRepeat (nests : store.Nests context) {id : Nat} (body : Nat)
    (known : id < store.registers.repeats.size) (fresh : .loop id ∉ context) :
    (store.enterRepeat id body).Nests (.loop id :: context) := by
  refine .cons ?_ (store.stack.get?_depth_push _) (beq_self_eq_true id) ?_ ?_
  · exact Nat.lt_of_lt_of_eq (Nat.lt_succ_self _) (store.depth_push _).symm
  · intro other same
    cases same
    exact congrArg RepeatRegister.entry (repeatOf_setRepeat_self known)
  · apply nests.below_push rfl
    intro other mem
    refine congrArg RepeatRegister.entry (repeatOf_setRepeat_of_ne _ ?_)
    rintro rfl
    exact fresh mem

theorem countInRegister (nests : store.Nests context) (id : Nat) :
    (store.countInRegister id).Nests context :=
  nests.of_stack_eq_push rfl (active_setRepeat_of_entry rfl)

theorem countInEntry (nests : store.Nests context) (index : Nat) :
    (store.countInEntry index).Nests context := by
  have counted : ∀ count, ({ store with
      stack := store.stack.setEntryCount index count : Store }).Nests context := by
    intro count
    unfold Nests depth
    rw [Stack.depth_setEntryCount]
    apply Stack.Nests.transport nests _ fun _ _ => rfl
    intro other frame _ read
    simp only [Stack.setEntryCount, Stack.get?_modify, read]
    split
    · refine ⟨frame.withCount count, rfl, ?_⟩
      intro bracket opens
      rw [Bracket.opens_withCount]
      exact opens
    · exact ⟨frame, rfl, fun _ opens => opens⟩
  exact (counted _).push _

/-! ### Brackets that are closed -/

/-- An open bracket is found from the top. -/
theorem exists_lastIndex? {bracket : Bracket} (nests : store.Nests (bracket :: context)) :
    ∃ last, store.stack.lastIndex? bracket.opens = some last ∧
      store.stack.Nests store.active last context := by
  cases nests with
  | cons below read opens isActive outer =>
      obtain ⟨last, higher, found⟩ := Stack.exists_lastIndex? read opens
      exact ⟨last, found, outer.higher higher⟩

theorem hasMark {mark : Mark} (nests : store.Nests (.mark mark :: context)) :
    store.stack.hasMark mark = true := by
  obtain ⟨last, found, _⟩ := nests.exists_lastIndex?
  exact Option.isSome_of_eq_some found

theorem emptyCheck? {id : Nat} (nests : store.Nests (.check id :: context)) :
    ∃ index, store.stack.emptyCheck? id = some index := by
  obtain ⟨last, found, _⟩ := nests.exists_lastIndex?
  refine ⟨last, ?_⟩
  rw [← found, Stack.emptyCheck?]
  congr 1
  funext frame
  cases frame <;> rfl

theorem lookCursor? (nests : store.Nests (.mark .look :: context)) :
    ∃ cursor, store.stack.lookCursor? = some cursor := by
  obtain ⟨last, found, _⟩ := nests.exists_lastIndex?
  obtain ⟨frame, read, isLook⟩ := Stack.get?_of_lastIndex? found
  cases frame with
  | look cursor => exact ⟨cursor, Stack.lookCursor?_eq_some found read⟩
  | _ => cases isLook

/-- An open repeat is active in one of its entries. -/
theorem entry {id : Nat} (nests : store.Nests (.loop id :: context)) :
    ∃ index count body outer savedCount, store.active id = some index ∧
      store.stack.get? index = some (.repeatEntry id count body outer savedCount) := by
  cases nests with
  | cons below read opens isActive outer =>
      obtain ⟨count, body, outer, savedCount, rfl⟩ := Bracket.eq_of_opens_loop opens
      exact ⟨_, count, body, outer, savedCount, isActive id rfl, read⟩

/-- The end of a bracket gives up what was pushed inside of it, and nothing that is around it. -/
theorem commit {mark : Mark} (nests : store.Nests (.mark mark :: context)) :
    (store.commit mark).2.Nests context := by
  obtain ⟨last, found, outer⟩ := nests.exists_lastIndex?
  have inside : last < store.depth := Stack.lt_depth_of_lastIndex? found
  unfold Nests
  rw [depth_commit]
  refine Stack.Nests.higher ?_ (Nat.le_of_lt inside)
  apply outer.transport _ fun _ _ => rfl
  intro index frame below read
  refine ⟨frame, ?_, fun _ opens => opens⟩
  exact ((Stack.get?_commit found index).trans (if_pos below)).trans read

end Nests

/-! ### Choices -/

/-- Whether every choice resumes at an address where the brackets may be open that are open again by
then. -/
def Resumes (admits : Nat → List Bracket → Prop) (store : Store) : Prop :=
  ∀ index frame point, store.Offers index frame → frame.resume? = some point →
    ∃ context, admits point.address context ∧ (store.rewind index).Nests context

/-- What a choice that is still offered after an effect leads to has not changed, but for where
bodies start. -/
theorem Offers.forgetBodies_rewind_onStore {effect : Effect} {index : Nat} {frame : Frame}
    (undone : effect.IsUndone ∨ ∃ mark, effect = .commit mark)
    (still : (effect.onStore store).Offers index frame) (older : store.Offers index frame) :
    ((effect.onStore store).rewind index).forgetBodies = (store.rewind index).forgetBodies := by
  have within : index ≤ store.depth := Nat.le_of_lt (Stack.lt_depth_of_get? older.1)
  rcases undone with undone | ⟨mark, rfl⟩
  · apply Effect.forgetBodies_rewind_onStore undone within
    exact Nat.le_of_lt (Stack.lt_depth_of_get? still.1)
  · obtain ⟨last, found, below⟩ := still.lt_of_commit
    simp only [Effect.onStore]
    rw [rewind_commit store found (Nat.le_of_lt below)]

namespace Resumes

variable {admits : Nat → List Bracket → Prop}

/-- The choices of a store resume as they should after an effect, if one that it pushes does. -/
theorem onStore (resumes : store.Resumes admits) {effect : Effect}
    (undone : effect.IsUndone ∨ ∃ mark, effect = .commit mark)
    (own : ∀ frame point, effect = .push frame → frame.resume? = some point →
      ∃ context, admits point.address context ∧ store.Nests context) :
    (effect.onStore store).Resumes admits := by
  intro index frame point offers resumesAt
  rcases offers.of_onStore with older | ⟨rfl, rfl⟩
  · obtain ⟨context, admitted, nests⟩ := resumes index frame point older resumesAt
    exact ⟨context, admitted,
      nests.of_forgetBodies (offers.forgetBodies_rewind_onStore undone older)⟩
  · obtain ⟨context, admitted, nests⟩ := own frame point rfl resumesAt
    refine ⟨context, admitted, ?_⟩
    simp only [Effect.onStore]
    rw [rewind_push_plain store (.of_isResumable offers.2) (Nat.le_refl _), rewind_depth]
    exact nests

theorem unwind (resumes : store.Resumes admits) {test : Frame → Bool}
    (plain : ∀ frame, test frame = true → frame.IsPlain) :
    (store.unwind test).2.Resumes admits := by
  intro index frame point offers resumesAt
  rw [store.rewind_unwind plain (Nat.le_of_lt (Stack.lt_depth_of_get? offers.1))]
  exact resumes index frame point offers.of_unwind resumesAt

/-- Going back to a choice opens the brackets again that were open when it was left. -/
theorem backtrack (resumes : store.Resumes admits) {point : Point}
    (resumed : store.backtrack.1 = some point) :
    ∃ context, admits point.address context ∧ store.backtrack.2.Nests context := by
  obtain ⟨frame, found, resumesAt⟩ := Option.bind_eq_some_iff.1 resumed
  obtain ⟨context, admitted, nests⟩ := resumes _ frame point (offers_of_unwind found) resumesAt
  refine ⟨context, admitted, ?_⟩
  rw [← (unwind_eq_rewind (fun _ => .of_isResumable) store).2] at nests
  exact nests

end Resumes

end Store

/-! ### Where bodies start -/

/-- Whether a body of a repeat starts at an address, right behind where the repeat is entered. -/
def Program.HasBody (program : Program) (id body : Nat) : Prop :=
  ∃ address offset greedy, program.code[address]? = some (.repeatStart id offset greedy) ∧
    body = address + 1

/-- Whether an entry of a repeat and the repeat's register agree with the program on where a body
starts. -/
def Frame.Enters (program : Program) (registers : Registers) : Frame → Prop
  | .repeatEntry id _ body _ _ =>
      program.HasBody id body ∧ program.HasBody id (registers.repeatOf id).body
  | _ => True

/-- Whether a store has a register for each repeat, and knows where the bodies start of those that
were entered. -/
structure Store.Enters (program : Program) (store : Store) : Prop where
  slots : store.registers.repeats.size = program.repeatRanges.size
  entries : store.stack.All (Frame.Enters program store.registers)

namespace Store.Enters

variable {program : Program} {store : Store}

theorem reset (slots : store.registers.repeats.size = program.repeatRanges.size) :
    store.reset.Enters program where
  slots := by
    rw [← slots]
    exact Array.size_replicate
  entries := .empty

theorem push (enters : store.Enters program) {frame : Frame}
    (own : frame.Enters program store.registers) : (store.push frame).Enters program where
  slots := enters.slots
  entries := enters.entries.push own

theorem setGroup (enters : store.Enters program) (group : Nat) (bounds : Bounds) :
    (store.setGroup group bounds).Enters program where
  slots := enters.slots
  entries := enters.entries

/-- A register may be written if it still tells where a body starts. -/
theorem setRepeat (enters : store.Enters program) {id : Nat} {register : RepeatRegister}
    (own : program.HasBody id (store.registers.repeatOf id).body →
      program.HasBody id register.body) : (store.setRepeat id register).Enters program where
  slots := by
    rw [← enters.slots]
    exact Array.size_setIfInBounds
  entries := by
    intro index frame read
    have before := enters.entries index frame read
    cases frame with
    | repeatEntry entered count body outer savedCount =>
        refine ⟨before.1, ?_⟩
        by_cases same : id = entered
        · subst same
          rcases store.repeatOf_setRepeat id register with written | unwritten
          · rw [written]
            exact own before.2
          · rw [unwritten]
            exact before.2
        · rw [repeatOf_setRepeat_of_ne register same]
          exact before.2
    | _ => trivial

theorem setEntryCount (enters : store.Enters program) (index count : Nat) :
    { store with stack := store.stack.setEntryCount index count : Store }.Enters program where
  slots := enters.slots
  entries := by
    refine enters.entries.setEntryCount (fun frame count good => ?_) index count
    cases frame <;> exact good

theorem lower (store : Store) (frame : Frame) (enters : (store.push frame).Enters program) :
    store.Enters program where
  slots := enters.slots
  entries := enters.entries.lower

theorem restore (store : Store) (frame : Frame) (enters : (store.push frame).Enters program) :
    (store.restore frame).Enters program := by
  have below := enters.lower
  cases frame with
  | groupStart group position saved | groupEnd group position saved =>
      exact below.setGroup group saved
  | entryCount index savedCount => exact below.setEntryCount index savedCount
  | repeatEntry id count body outer savedCount => exact below.setRepeat fun own => own
  | registerCount id savedCount => exact below.setRepeat fun own => own
  | _ => exact below

theorem unwind (enters : store.Enters program) (test : Frame → Bool) :
    (store.unwind test).2.Enters program :=
  unwind_invariant test (fun store frame _ => lower store frame) restore enters

theorem commit (enters : store.Enters program) (mark : Mark) :
    (store.commit mark).2.Enters program where
  slots := enters.slots
  entries := by
    refine enters.entries.commit (fun frame good => ?_) trivial mark
    cases frame <;> exact good

/-- Stores know where bodies start as long as repeats are entered where the program enters them. -/
theorem onStore (enters : store.Enters program) {effect : Effect}
    (undone : effect.IsUndone ∨ ∃ mark, effect = .commit mark)
    (own : ∀ id body, effect = .enterRepeat id body →
      id < program.repeatRanges.size ∧ program.HasBody id body) :
    (effect.onStore store).Enters program := by
  cases effect with
  | note event => exact enters
  | push frame =>
      apply enters.push
      cases frame with
      | repeatEntry => rcases undone with undone | ⟨_, same⟩ <;> contradiction
      | _ => exact trivial
  | openGroup group position | closeGroup group position | clearGroup group =>
      refine Store.Enters.setGroup (enters.push ?_) group _
      exact trivial
  | setGroup group bounds => exact enters.setGroup group bounds
  | enterRepeat id body =>
      obtain ⟨known, hasBody⟩ := own id body rfl
      rw [← enters.slots] at known
      -- The register is written first, so that the entry finds the body in it.
      have written : (store.setRepeat id ⟨some store.depth, 0, body⟩).Enters program :=
        enters.setRepeat fun _ => hasBody
      refine written.push ⟨hasBody, ?_⟩
      rw [repeatOf_setRepeat_self known]
      exact hasBody
  | countInEntry index => exact (enters.setEntryCount index _).push trivial
  | countInRegister id =>
      refine Store.Enters.setRepeat (enters.push ?_) fun own => own
      exact trivial
  | discard => exact discard_invariant lower enters
  | commit mark => exact enters.commit mark
  | unwindTo mark => exact enters.unwind _

end Store.Enters

end PatternMachine
