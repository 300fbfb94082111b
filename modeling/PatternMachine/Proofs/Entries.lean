import PatternMachine.Proofs.Nesting.Brackets

/-!
# Entries of repeats

A frame that stays on the stack keeps what it saves (`Frame.Becomes`).  So the entry in which a
repeat is active is an entry of that repeat, as long as nothing but choices is thrown away
(`Store.Anchored`).
-/

namespace PatternMachine

/-! ### What becomes of frames -/

/-- What may become of a frame that stays where it is.  A call is never given up. -/
inductive Frame.Becomes : Frame → Frame → Prop
  | same {frame : Frame} : Becomes frame frame
  /-- Iterations were counted in the entry of a repeat. -/
  | counted {id before after body : Nat} {outer : Option Nat} {savedCount : Nat} :
      Becomes (.repeatEntry id before body outer savedCount)
        (.repeatEntry id after body outer savedCount)
  /-- A choice or a mark was given up. -/
  | givenUp {frame : Frame} (nothing : frame.savesNothing = true)
      (noCall : frame.isMark .call = false) : Becomes frame .void

namespace Frame.Becomes

variable {frame later last : Frame}

theorem withCount (frame : Frame) (count : Nat) : frame.Becomes (frame.withCount count) := by
  cases frame with
  | repeatEntry id before body outer savedCount => exact .counted
  | _ => exact .same

theorem trans (becomes : frame.Becomes later) (becomes' : later.Becomes last) :
    frame.Becomes last := by
  cases becomes with
  | same => exact becomes'
  | counted =>
      cases becomes' with
      | same | counted => exact .counted
      | givenUp nothing => cases nothing
  | givenUp nothing noCall =>
      cases becomes' with
      | same | givenUp => exact .givenUp nothing noCall

theorem settle (frame : Frame) : frame.Becomes (Stack.settle frame) := by
  cases frame with
  | choice point | emptyCheck id position | lookNot point | behindNot point =>
      exact .givenUp rfl rfl
  | _ => exact .same

theorem void {mark : Mark} (isMark : frame.isMark mark = true) (noCall : mark ≠ .call) :
    frame.Becomes .void := by
  have nothing : frame.savesNothing = true := by
    cases frame <;> first | rfl | cases isMark
  refine .givenUp nothing ?_
  have kind : frame.mark? = some mark := eq_of_beq isMark
  rw [Frame.isMark, kind]
  exact beq_eq_false_iff_ne.2 fun same => noCall (Option.some.inj same)

theorem eq_of_call {returnAddress : Nat}
    (becomes : (Frame.call returnAddress).Becomes later) : later = .call returnAddress := by
  cases becomes with
  | same => rfl
  | givenUp nothing noCall => cases noCall

/-- A frame keeps what it is looked at for, unless that is void in frames that save nothing. -/
theorem eq_of_void {Answer : Type} (becomes : frame.Becomes later) {ask : Frame → Answer}
    (nothing : Answer) (plain : ∀ frame : Frame, frame.savesNothing = true → ask frame = nothing)
    (counts : ∀ id count body outer savedCount,
      ask (.repeatEntry id count body outer savedCount) = nothing) : ask later = ask frame := by
  cases becomes with
  | same => rfl
  | counted => rw [counts, counts]
  | givenUp savesNothing => rw [plain _ savesNothing, plain _ rfl]

theorem position?_eq (becomes : frame.Becomes later) : later.position? = frame.position? := by
  refine becomes.eq_of_void none (fun frame nothing => ?_) fun _ _ _ _ _ => rfl
  cases frame <;> first | rfl | cases nothing

theorem group?_eq (becomes : frame.Becomes later) : later.group? = frame.group? := by
  refine becomes.eq_of_void none (fun frame nothing => ?_) fun _ _ _ _ _ => rfl
  cases frame <;> first | rfl | cases nothing

theorem savedBounds?_eq (becomes : frame.Becomes later) (group : Nat) :
    later.savedBounds? group = frame.savedBounds? group := by
  refine becomes.eq_of_void none (fun frame nothing => ?_) fun _ _ _ _ _ => rfl
  cases frame <;> first | rfl | cases nothing

/-- Only a choice becomes a choice. -/
theorem isChoice_eq_false (becomes : frame.Becomes later) (noChoice : frame.isChoice = false) :
    later.isChoice = false := by
  cases becomes with
  | same => exact noChoice
  | counted | givenUp => rfl

end Frame.Becomes

namespace Effect

/-- The frame that an effect pushes on a store. -/
def frame? (store : Store) : Effect → Option Frame
  | .push frame => some frame
  | .openGroup group position =>
      some (.groupStart group position (store.registers.boundsOf group))
  | .closeGroup group position => some (.groupEnd group position (store.registers.boundsOf group))
  | .clearGroup group => some (.groupStart group none (store.registers.boundsOf group))
  | .enterRepeat id body =>
      some (.repeatEntry id 0 body (store.registers.repeatOf id).entry
        (store.registers.repeatOf id).count)
  | .countInEntry index => some (.entryCount index ((store.stack.entry? index).elim 0 Prod.fst))
  | .countInRegister id => some (.registerCount id (store.registers.repeatOf id).count)
  | .note _ | .setGroup .. | .discard | .commit _ | .unwindTo _ => none

/-- What all effects of instructions have in common. -/
def Regular (program : Program) : Effect → Prop
  | .push frame => frame.savesNothing = true
  | .enterRepeat id _ => id < program.repeatRanges.size
  | .commit mark => mark ≠ .call
  | _ => True

end Effect

/-- Moves whose effects are regular. -/
def Move.Regular (program : Program) : Move → Prop
  | .perform effect => effect.Regular program
  | _ => True

theorem Attempt.Causes.regular {attempt : Attempt} {point : Point} {store : Store}
    {instruction : Instruction} {effect : Effect}
    (causes : attempt.Causes point store instruction effect) : effect.Regular attempt.program := by
  cases causes with
  | enterRepeat known => exact known
  | lookEnd | atomicEnd => exact Mark.noConfusion
  | _ => first | rfl | trivial

theorem Attempt.regular_of_mem_moves {attempt : Attempt} {point : Point} {store : Store}
    {move : Move} (mem : move ∈ attempt.moves point store) : move.Regular attempt.program := by
  rcases Attempt.of_mem_moves mem with rfl | ⟨instruction, fetched, made⟩
  · trivial
  rcases made with rfl | ⟨event, rfl⟩ | ⟨effect, effectMem, rfl⟩ | exitMem
  · trivial
  · trivial
  · exact (Attempt.causes_of_mem_effects effectMem).regular
  · cases move with
    | perform effect =>
        obtain ⟨point', rfl⟩ := Attempt.choice_of_mem_exitMoves exitMem
        exact rfl
    | _ => trivial

namespace Store

variable {store : Store} {index : Nat} {found : Frame}

/-- Taking frames off leaves the others where they are. -/
theorem get?_unwind {test : Frame → Bool}
    (read : (store.unwind test).2.stack.get? index = some found) :
    ∃ frame, store.stack.get? index = some frame ∧ frame.Becomes found := by
  induction store using push_induction with
  | empty registers =>
      rw [unwind_blank] at read
      cases read
  | push store top ih =>
      have lower : ∃ frame, store.stack.get? index = some frame ∧ frame.Becomes found := by
        rw [unwind_push] at read
        split at read
        · exact ⟨found, read, .same⟩
        · obtain ⟨middle, readMiddle, becomes⟩ := ih _ (store.depth_restore top) read
          obtain ⟨frame, readFrame, rfl | ⟨count, rfl⟩⟩ := get?_restore readMiddle
          · exact ⟨_, readFrame, becomes⟩
          · exact ⟨frame, readFrame, (Frame.Becomes.withCount frame count).trans becomes⟩
      obtain ⟨frame, readFrame, becomes⟩ := lower
      refine ⟨frame, ?_, becomes⟩
      exact (store.stack.get?_push_of_lt top (Stack.lt_depth_of_get? readFrame)).trans readFrame

theorem get?_commit {mark : Mark} (noCall : mark ≠ .call)
    (read : (store.commit mark).2.stack.get? index = some found) :
    ∃ frame, store.stack.get? index = some frame ∧ frame.Becomes found := by
  have settled : (store.stack.get? index).map Stack.settle = some found →
      ∃ frame, store.stack.get? index = some frame ∧ frame.Becomes found := by
    intro settled
    obtain ⟨frame, readFrame, rfl⟩ := Option.map_eq_some_iff.1 settled
    exact ⟨frame, readFrame, .settle frame⟩
  replace read : (store.stack.commit mark).2.get? index = some found := read
  cases bracket : store.stack.lastIndex? (Frame.isMark mark) with
  | some last =>
      rw [Stack.get?_commit bracket] at read
      split at read
      · exact ⟨found, read, .same⟩
      split at read
      · next atMark =>
          subst atMark
          cases read
          obtain ⟨frame, readFrame, isMark⟩ := Stack.get?_of_lastIndex? bracket
          exact ⟨frame, readFrame, .void isMark noCall⟩
      · exact settled read
  | none =>
      rw [Stack.commit, bracket] at read
      dsimp only at read
      rw [Stack.get?_settleFrom, if_pos (Nat.zero_le index)] at read
      exact settled read

/-- A frame on the stack was there before, or was pushed. -/
theorem get?_onStore {program : Program} {effect : Effect} (regular : effect.Regular program)
    (read : (effect.onStore store).stack.get? index = some found) :
    (∃ frame, store.stack.get? index = some frame ∧ frame.Becomes found) ∨
      index = store.depth ∧ effect.frame? store = some found := by
  have of_push : ∀ {below : Stack} {top : Frame}, (below.push top).get? index = some found →
      below.get? index = some found ∨ index = below.depth ∧ top = found := by
    intro below top read
    rw [Stack.get?_push] at read
    split at read
    · next atTop => exact .inr ⟨atTop, Option.some.inj read⟩
    · exact .inl read
  cases effect with
  | note event | setGroup group bounds => exact .inl ⟨found, read, .same⟩
  | push frame | openGroup group position | closeGroup group position | clearGroup group
  | enterRepeat id body | countInRegister id =>
      rcases of_push read with lower | ⟨atTop, rfl⟩
      · exact .inl ⟨found, lower, .same⟩
      · exact .inr ⟨atTop, rfl⟩
  | countInEntry entry =>
      rcases of_push read with lower | ⟨atTop, rfl⟩
      · simp only [Stack.setEntryCount, Stack.get?_modify] at lower
        split at lower
        · obtain ⟨frame, readFrame, rfl⟩ := Option.map_eq_some_iff.1 lower
          exact .inl ⟨frame, readFrame, .withCount frame _⟩
        · exact .inl ⟨found, lower, .same⟩
      · rw [Stack.depth_setEntryCount] at atTop
        refine .inr ⟨atTop, ?_⟩
        simp only [Effect.frame?]
        cases store.stack.entry? entry <;> rfl
  | discard =>
      refine .inl ⟨found, ?_, .same⟩
      simp only [Effect.onStore, Store.discard] at read
      split at read
      · cases read
      · next top below popped =>
          rw [Stack.eq_push_of_pop? popped, Stack.get?_push_of_lt _ _ (Stack.lt_depth_of_get? read)]
          exact read
  | commit mark => exact .inl (get?_commit regular read)
  | unwindTo mark => exact .inl (get?_unwind read)

end Store

namespace Move

variable {program : Program} {store : Store} {move : Move} {index : Nat}

theorem get?_onStore (regular : move.Regular program) {found : Frame}
    (read : (move.onStore store).stack.get? index = some found) :
    (∃ frame, store.stack.get? index = some frame ∧ frame.Becomes found) ∨
      index = store.depth ∧
        ∃ effect, move = .perform effect ∧ effect.frame? store = some found := by
  cases move with
  | perform effect =>
      refine (Store.get?_onStore regular read).imp_right ?_
      intro pushed
      exact ⟨pushed.1, effect, rfl, pushed.2⟩
  | backtrack => exact .inl (Store.get?_unwind read)
  | _ => exact .inl ⟨found, read, .same⟩

/-- A frame stays on the stack as long as that is deep enough. -/
theorem exists_get?_onStore (regular : move.Regular program) {frame : Frame}
    (read : store.stack.get? index = some frame) (deep : index < (move.onStore store).depth) :
    ∃ later, (move.onStore store).stack.get? index = some later ∧ frame.Becomes later := by
  have readLater := Array.getElem?_eq_getElem deep
  refine ⟨_, readLater, ?_⟩
  rcases get?_onStore regular readLater with ⟨original, readOriginal, becomes⟩ | ⟨atTop, _⟩
  · rw [read] at readOriginal
    cases readOriginal
    exact becomes
  · exact absurd (Stack.lt_depth_of_get? read) (by rw [atTop]; exact Nat.lt_irrefl _)

end Move

/-! ### Entries of active repeats -/

/-- Whether a frame is an entry of a repeat. -/
def Frame.isEntry : Frame → Bool
  | .repeatEntry .. => true
  | _ => false

/-- Whether the frame at an index is an entry of a given repeat. -/
def Stack.EntersAt (stack : Stack) (id index : Nat) : Prop :=
  ∃ count body outer savedCount,
    stack.get? index = some (.repeatEntry id count body outer savedCount)

/-- Whether every entry is of a repeat that the program has, and saves the index of an older entry
of the same repeat, if any. -/
structure Stack.Anchored (program : Program) (stack : Stack) : Prop where
  known : ∀ id index, stack.EntersAt id index → id < program.repeatRanges.size
  outer : ∀ index id count body outer savedCount,
    stack.get? index = some (.repeatEntry id count body (some outer) savedCount) →
      outer < index ∧ stack.EntersAt id outer

/-- Whether, besides, every repeat that is active is so in an entry of its own. -/
structure Store.Anchored (program : Program) (store : Store) : Prop where
  frames : store.stack.Anchored program
  active : ∀ id index, store.active id = some index → store.stack.EntersAt id index

namespace Stack

variable {program : Program} {stack : Stack} {frame : Frame} {id index : Nat}

namespace EntersAt

theorem lt_depth (enters : stack.EntersAt id index) : index < stack.depth := by
  obtain ⟨_, _, _, _, read⟩ := enters
  exact lt_depth_of_get? read

theorem push (enters : stack.EntersAt id index) (frame : Frame) :
    (stack.push frame).EntersAt id index := by
  have below := enters.lt_depth
  obtain ⟨count, body, outer, savedCount, read⟩ := enters
  exact ⟨count, body, outer, savedCount, (stack.get?_push_of_lt frame below).trans read⟩

theorem lower_of_ne (enters : (stack.push frame).EntersAt id index) (apart : index ≠ stack.depth) :
    stack.EntersAt id index := by
  obtain ⟨count, body, outer, savedCount, read⟩ := enters
  rw [get?_push, if_neg apart] at read
  exact ⟨count, body, outer, savedCount, read⟩

/-- There is one repeat that an entry is of. -/
theorem unique {other : Nat} (enters : stack.EntersAt id index)
    (enters' : stack.EntersAt other index) : other = id := by
  obtain ⟨_, _, _, _, read⟩ := enters
  obtain ⟨_, _, _, _, read'⟩ := enters'
  rw [read] at read'
  cases read'
  rfl

/-- An entry stays an entry whatever becomes of its frame. -/
theorem becomes (enters : stack.EntersAt id index) {stack' : Stack}
    (same : ∀ frame, stack.get? index = some frame →
      ∃ later, stack'.get? index = some later ∧ frame.Becomes later) :
    stack'.EntersAt id index := by
  obtain ⟨count, body, outer, savedCount, read⟩ := enters
  obtain ⟨later, readLater, becomes⟩ := same _ read
  cases becomes with
  | same => exact ⟨count, body, outer, savedCount, readLater⟩
  | counted => exact ⟨_, body, outer, savedCount, readLater⟩
  | givenUp nothing => cases nothing

/-- What has become an entry was one. -/
theorem of_becomes {frame : Frame} {count body savedCount : Nat} {outer : Option Nat}
    (becomes : frame.Becomes (.repeatEntry id count body outer savedCount)) :
    ∃ before, frame = .repeatEntry id before body outer savedCount := by
  cases becomes with
  | same => exact ⟨count, rfl⟩
  | counted => exact ⟨_, rfl⟩

end EntersAt

/-- Entries that stay are anchored if they were. -/
theorem Anchored.of_becomes (anchored : stack.Anchored program) {stack' : Stack}
    (same : ∀ index found, stack'.get? index = some found →
      ∃ frame, stack.get? index = some frame ∧ frame.Becomes found) :
    stack'.Anchored program := by
  have forth : ∀ id index, index < stack'.depth → stack.EntersAt id index →
      stack'.EntersAt id index := by
    intro id index inside enters
    refine enters.becomes fun frame read => ?_
    have readLater : stack'.get? index = some stack'.frames[index] :=
      Array.getElem?_eq_getElem inside
    obtain ⟨original, readOriginal, becomes⟩ := same index _ readLater
    rw [read] at readOriginal
    cases readOriginal
    exact ⟨_, readLater, becomes⟩
  constructor
  · intro id index enters
    obtain ⟨count, body, outer, savedCount, read⟩ := enters
    obtain ⟨frame, readFrame, becomes⟩ := same index _ read
    obtain ⟨before, rfl⟩ := EntersAt.of_becomes becomes
    exact anchored.known id index ⟨before, body, outer, savedCount, readFrame⟩
  · intro index id count body outer savedCount read
    obtain ⟨frame, readFrame, becomes⟩ := same index _ read
    obtain ⟨before, rfl⟩ := EntersAt.of_becomes becomes
    obtain ⟨below, enters⟩ := anchored.outer index id before body outer savedCount readFrame
    exact ⟨below, forth id outer (Nat.lt_trans below (lt_depth_of_get? read)) enters⟩

end Stack

namespace Store

variable {program : Program} {store : Store}

/-- Behind a write to a register, a repeat is active where it was written to be, or it is another
one and active as before. -/
theorem active_of_active_setRepeat {id other index : Nat} {register : RepeatRegister}
    (isActive : (store.setRepeat id register).active other = some index) :
    id = other ∧ register.entry = some index ∨ id ≠ other ∧ store.active other = some index := by
  by_cases own : id = other
  · subst own
    refine .inl ⟨rfl, ?_⟩
    by_cases known : id < store.registers.repeats.size
    · rw [active, repeatOf_setRepeat_self known] at isActive
      exact isActive
    · -- A repeat without a register is never active.
      have idle : (store.setRepeat id register).registers.repeatOf id = .idle := by
        simp only [setRepeat, Registers.setRepeat, Registers.repeatOf, Array.getD_eq_getD_getElem?,
          Array.getElem?_setIfInBounds_self, if_neg known, Option.getD_none]
      rw [active, idle] at isActive
      cases isActive
  · rw [active, repeatOf_setRepeat_of_ne register own] at isActive
    exact .inr ⟨own, isActive⟩

namespace Anchored

theorem reset (store : Store) : store.reset.Anchored program where
  frames := by
    constructor
    · rintro id index ⟨_, _, _, _, read⟩
      cases read
    · intro index id count body outer savedCount read
      cases read
  active := by
    intro id index isActive
    have idle : store.reset.registers.repeatOf id = .idle := by
      simp only [Store.reset, Registers.reset, Registers.blank, Registers.repeatOf,
        Array.getD_eq_getD_getElem?, Array.getElem?_replicate]
      split <;> rfl
    rw [Store.active, idle] at isActive
    cases isActive

variable {frame : Frame}

/-- A frame that is no entry may be taken off. -/
theorem lower (anchored : (store.push frame).Anchored program) (noEntry : frame.isEntry = false) :
    store.Anchored program where
  frames := by
    refine anchored.frames.of_becomes fun index found read => ⟨found, ?_, .same⟩
    exact (store.stack.get?_push_of_lt frame (Stack.lt_depth_of_get? read)).trans read
  active := by
    intro id index isActive
    have enters := anchored.active id index isActive
    refine enters.lower_of_ne ?_
    rintro rfl
    obtain ⟨_, _, _, _, read⟩ := enters
    rw [Store.push, Stack.get?_depth_push] at read
    cases read
    cases noEntry

theorem setGroup (anchored : store.Anchored program) (group : Nat) (bounds : Bounds) :
    (store.setGroup group bounds).Anchored program :=
  ⟨anchored.frames, anchored.active⟩

/-- A register may be written if it is written to be active in an entry. -/
theorem setRepeat (frames : store.stack.Anchored program) {id : Nat} {register : RepeatRegister}
    (own : ∀ index, register.entry = some index → store.stack.EntersAt id index)
    (others : ∀ other index, id ≠ other → store.active other = some index →
      store.stack.EntersAt other index) : (store.setRepeat id register).Anchored program where
  frames := frames
  active := by
    intro other index isActive
    rcases active_of_active_setRepeat isActive with ⟨rfl, written⟩ | ⟨apart, older⟩
    · exact own index written
    · exact others other index apart older

theorem setEntryCount (anchored : store.Anchored program) (index count : Nat) :
    { store with stack := store.stack.setEntryCount index count : Store }.Anchored program where
  frames := by
    refine anchored.frames.of_becomes fun other found read => ?_
    simp only [Stack.setEntryCount, Stack.get?_modify] at read
    split at read
    · obtain ⟨frame, readFrame, rfl⟩ := Option.map_eq_some_iff.1 read
      exact ⟨frame, readFrame, .withCount frame count⟩
    · exact ⟨found, read, .same⟩
  active := by
    intro id other isActive
    refine (anchored.active id other isActive).becomes fun frame read => ?_
    simp only [Stack.setEntryCount, Stack.get?_modify, read, Option.map_some]
    split
    · exact ⟨_, rfl, .withCount frame count⟩
    · exact ⟨frame, rfl, .same⟩

/-- The index that an entry on top saves is that of an entry below. -/
theorem restore (store : Store) (frame : Frame) (anchored : (store.push frame).Anchored program) :
    (store.restore frame).Anchored program := by
  cases frame with
  | repeatEntry id count body outer savedCount =>
      have read := store.stack.get?_depth_push (.repeatEntry id count body outer savedCount)
      have frames : store.stack.Anchored program := by
        refine anchored.frames.of_becomes fun index found read => ⟨found, ?_, .same⟩
        exact (store.stack.get?_push_of_lt _ (Stack.lt_depth_of_get? read)).trans read
      refine .setRepeat frames ?_ ?_
      · intro index saved
        obtain rfl : outer = some index := saved
        obtain ⟨below, enters⟩ := anchored.frames.outer _ id count body index savedCount read
        exact enters.lower_of_ne (Nat.ne_of_lt below)
      · intro other index apart older
        have enters := anchored.active other index older
        refine enters.lower_of_ne ?_
        rintro rfl
        exact apart (enters.unique ⟨count, body, outer, savedCount, read⟩)
  | groupStart group position saved => exact (anchored.lower rfl).setGroup group saved
  | groupEnd group position saved => exact (anchored.lower rfl).setGroup group saved
  | entryCount index savedCount => exact (anchored.lower rfl).setEntryCount index savedCount
  | registerCount id savedCount =>
      have below := anchored.lower rfl
      exact .setRepeat below.frames (fun index same => below.active id index same)
        fun other index _ => below.active other index
  | _ => exact anchored.lower rfl

/-- Going back to a frame that is no entry undoes all entries above. -/
theorem unwind (anchored : store.Anchored program) {test : Frame → Bool}
    (noEntry : ∀ frame, test frame = true → frame.isEntry = false) :
    (store.unwind test).2.Anchored program :=
  unwind_invariant test (fun _ frame passes anchored => anchored.lower (noEntry frame passes))
    restore anchored

theorem push (anchored : store.Anchored program) (noEntry : frame.isEntry = false) :
    (store.push frame).Anchored program where
  frames := by
    have of_push : ∀ {id index}, (store.stack.push frame).EntersAt id index →
        store.stack.EntersAt id index := by
      intro id index enters
      refine enters.lower_of_ne ?_
      rintro rfl
      obtain ⟨_, _, _, _, read⟩ := enters
      rw [Stack.get?_depth_push] at read
      cases read
      cases noEntry
    constructor
    · intro id index enters
      exact anchored.frames.known id index (of_push enters)
    · intro index id count body outer savedCount read
      have below := (of_push ⟨count, body, some outer, savedCount, read⟩).lt_depth
      obtain ⟨lower, enters⟩ := anchored.frames.outer index id count body outer savedCount
        ((store.stack.get?_push_of_lt frame below).symm.trans read)
      exact ⟨lower, enters.push frame⟩
  active := fun id index isActive => (anchored.active id index isActive).push frame

/-- An entry saves where its repeat was active before. -/
theorem enterRepeat (anchored : store.Anchored program) {id : Nat} (body : Nat)
    (known : id < program.repeatRanges.size) : (store.enterRepeat id body).Anchored program := by
  let entry : Frame := .repeatEntry id 0 body (store.active id) (store.registers.repeatOf id).count
  have enters : (store.stack.push entry).EntersAt id store.stack.depth :=
    ⟨0, body, store.active id, _, store.stack.get?_depth_push entry⟩
  have frames : (store.stack.push entry).Anchored program := by
    constructor
    · intro other index enters'
      by_cases atTop : index = store.stack.depth
      · subst atTop
        rw [enters.unique enters']
        exact known
      · exact anchored.frames.known other index (enters'.lower_of_ne atTop)
    · intro index other count body' outer savedCount read
      by_cases atTop : index = store.stack.depth
      · subst atTop
        rw [Stack.get?_depth_push] at read
        injection read with same
        injection same with sameId _ _ isActive
        have older := anchored.active id outer isActive
        exact ⟨older.lt_depth, sameId ▸ older.push entry⟩
      · rw [Stack.get?_push, if_neg atTop] at read
        obtain ⟨lower, older⟩ := anchored.frames.outer index other count body' outer savedCount read
        exact ⟨lower, older.push entry⟩
  show ((store.push entry).setRepeat id ⟨some store.depth, 0, body⟩).Anchored program
  refine .setRepeat frames ?_ ?_
  · intro index isIndex
    cases isIndex
    exact enters
  · intro other index _ isActive
    exact (anchored.active other index isActive).push entry

theorem commit (anchored : store.Anchored program) {mark : Mark} (noCall : mark ≠ .call) :
    (store.commit mark).2.Anchored program where
  frames := anchored.frames.of_becomes fun _ _ read => get?_commit noCall read
  active := by
    intro id index isActive
    have enters := anchored.active id index isActive
    have regular : (Move.perform (.commit mark)).Regular program := noCall
    have inside : index < ((Move.perform (.commit mark)).onStore store).depth := by
      rw [Move.onStore, Effect.onStore, depth_commit]
      exact enters.lt_depth
    exact enters.becomes fun frame read => Move.exists_get?_onStore regular read inside

/-- Every move but one that throws away something else than a choice keeps active repeats in entries
of their own. -/
theorem onStore (anchored : store.Anchored program) {move : Move} (regular : move.Regular program)
    (discards : move = .perform .discard → store.topIsChoice = true) :
    (move.onStore store).Anchored program := by
  have of_nothing : ∀ frame : Frame, frame.savesNothing = true → frame.isEntry = false := by
    intro frame nothing
    cases frame <;> first | rfl | cases nothing
  cases move with
  | perform effect =>
      cases effect with
      | note event => exact anchored
      | push frame => exact anchored.push (of_nothing frame regular)
      | openGroup group position | closeGroup group position | clearGroup group =>
          exact (anchored.push rfl).setGroup group _
      | setGroup group bounds => exact anchored.setGroup group bounds
      | enterRepeat id body => exact anchored.enterRepeat body regular
      | countInEntry index => exact (anchored.setEntryCount index _).push rfl
      | countInRegister id =>
          let saved : Frame := .registerCount id (store.registers.repeatOf id).count
          have pushed : (store.push saved).Anchored program := anchored.push rfl
          exact .setRepeat pushed.frames (fun index same => pushed.active id index same)
            fun other index _ => pushed.active other index
      | discard =>
          obtain ⟨lowered, point, rfl⟩ := exists_push_of_topIsChoice (discards rfl)
          rw [Move.onStore, Effect.onStore, discard_push]
          exact anchored.lower rfl
      | commit mark => exact anchored.commit regular
      | unwindTo mark =>
          refine anchored.unwind fun frame isMark => ?_
          cases frame <;> first | rfl | cases isMark
  | backtrack =>
      refine anchored.unwind fun frame resumable => ?_
      cases frame <;> first | rfl | cases resumable
  | _ => exact anchored

end Anchored

end Store

namespace Search

variable {setting : Setting} {dispatches : Nat} {first last : Search}

theorem regular_of_mem_trail {visit : Visit} (mem : visit ∈ trail setting dispatches first) :
    visit.move.Regular setting.program := by
  have along := @trail_invariant setting dispatches first (fun _ => True)
    (Move.Regular setting.program) trivial
    (fun _ _ _ mem => Attempt.regular_of_mem_moves mem) (fun _ _ _ _ => trivial)
  exact (along visit mem).2.1

/-- In a run that throws away nothing but choices, every repeat that is active is so in an entry of
its own. -/
theorem anchored_of_advance (anchored : first.store.Anchored setting.program)
    (discards : ∀ visit ∈ trail setting dispatches first, visit.DiscardsChoice)
    (reaches : first.advance setting dispatches = .ok last) :
    last.store.Anchored setting.program := by
  refine @store_invariant setting dispatches first (Store.Anchored setting.program) last reaches
    anchored ?_
  intro visit mem before
  exact before.onStore (regular_of_mem_trail mem) (discards visit mem)

end Search

end PatternMachine
