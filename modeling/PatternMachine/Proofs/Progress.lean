import PatternMachine.Proofs.Path

/-!
# What repeats continue from

A repeat continues from what it has counted and from where its body is (`Store.progress?`).  That
stays the same on a path that does not come by its instructions, whatever is tried and given up
meanwhile (`Search.Spares.progress?_eq`).
-/

namespace PatternMachine

/-! ### Stores without groups -/

namespace Store

/-- A store that does not tell where groups lie. -/
def forgetGroups (store : Store) : Store :=
  ⟨store.stack, { store.registers with groups := #[] }⟩

theorem forgetGroups_restore (store : Store) (frame : Frame) :
    (store.restore frame).forgetGroups = store.forgetGroups.restore frame := by
  cases frame <;> rfl

theorem forgetGroups_rewind (store : Store) (depth : Nat) :
    (store.rewind depth).forgetGroups = store.forgetGroups.rewind depth :=
  undo_map (fun _ => rfl) (fun _ _ => rfl) forgetGroups_restore store (store.depth - depth)

end Store

/-- What going back below an effect leads to has the same repeats as before the effect. -/
theorem Effect.record_forgetGroups_rewind_onStore {program : Program} {store : Store}
    {effect : Effect} (regular : effect.Regular program)
    (discards : effect = .discard → store.topIsChoice = true) {depth : Nat}
    (within : depth ≤ store.depth) (within' : depth ≤ (effect.onStore store).depth) :
    ((effect.onStore store).rewind depth).record.forgetGroups =
      (store.rewind depth).record.forgetGroups := by
  by_cases unset : ∀ group bounds, effect ≠ .setGroup group bounds
  · rw [record_rewind_of_ne_setGroup unset ?_ discards within within']
    rintro frame rfl
    exact regular
  · simp only [not_forall, not_not] at unset
    obtain ⟨group, bounds, rfl⟩ := unset
    rw [Store.record_rewind, Store.record_rewind, Store.forgetGroups_rewind,
      Store.forgetGroups_rewind]
    rfl

/-- What going back below a move leads to has the same repeats as before the move. -/
theorem Move.record_forgetGroups_rewind_onStore {program : Program} {store : Store} {move : Move}
    (regular : move.Regular program)
    (discards : move = .perform .discard → store.topIsChoice = true) {depth : Nat}
    (within : depth ≤ store.depth) (within' : depth ≤ (move.onStore store).depth) :
    ((move.onStore store).rewind depth).record.forgetGroups =
      (store.rewind depth).record.forgetGroups := by
  cases move with
  | perform effect =>
      exact effect.record_forgetGroups_rewind_onStore regular
        (fun same => discards (congrArg _ same)) within within'
  | backtrack =>
      simp only [onStore]
      rw [Store.backtrack, store.rewind_unwind (fun _ => .of_isResumable) within']
  | _ => rfl

/-! ### What a repeat continues from -/

namespace Stack

variable {stack : Stack} {entry count body : Nat}

theorem get?_top (stack : Stack) (frame : Frame) :
    (stack.push frame).get? ((stack.push frame).depth - 1) = some frame := by
  rw [depth_push, Nat.add_sub_cancel, get?_depth_push]

theorem entry?_push (read : stack.entry? entry = some (count, body)) (frame : Frame) :
    Stack.entry? (stack.push frame) entry = some (count, body) := by
  have below : entry < stack.depth := by
    by_contra outside
    rw [ entry?, get?_eq_none (Nat.not_lt.1 outside)] at read
    cases read
  rw [ entry?, stack.get?_push_of_lt frame below]
  exact read

theorem entry?_setEntryCount (read : stack.entry? entry = some (count, body)) (later : Nat) :
    Stack.entry? (stack.setEntryCount entry later) entry = some (later, body) := by
  unfold entry? at read
  split at read
  · next id found outer savedCount frame =>
      cases read
      simp only [ entry?, setEntryCount, get?_modify, frame, Option.map_some, if_pos]
      rfl
  · cases read

end Stack

namespace Store

variable {store : Store} {id entry depth count body : Nat} {direct : Bool}

/-- What a repeat continues from, if it is active: the iterations that it has counted since it was
entered, and the address of its body.  The direct forms keep both in the register, the others in the
entry. -/
def progress? (store : Store) (id : Nat) (direct : Bool) : Option (Nat × Nat) :=
  (store.active id).bind fun entry =>
    if direct then
      some ((store.registers.repeatOf id).count, (store.registers.repeatOf id).body)
    else store.stack.entry? entry

/-- A repeat that is active has counted something, be it nothing yet. -/
theorem Anchored.exists_progress? {program : Program} (anchored : store.Anchored program)
    (active : store.active id = some entry) (direct : Bool) :
    ∃ count body, store.progress? id direct = some (count, body) := by
  obtain ⟨count, body, outer, savedCount, read⟩ := anchored.active id entry active
  rw [progress?, active]
  cases direct with
  | true => exact ⟨_, _, rfl⟩
  | false =>
      refine ⟨count, body, ?_⟩
      simp [Stack.entry?, read]

/-- Stores in which a repeat is active in the same entry, with the same counts and the same body,
agree on what it continues from. -/
theorem progress?_congr {other : Store} (active : store.active id = some entry)
    (register : (other.registers.repeatOf id).record = (store.registers.repeatOf id).record)
    (sameBody : direct = true →
      (other.registers.repeatOf id).body = (store.registers.repeatOf id).body)
    (counts : other.stack.entry? entry = store.stack.entry? entry) :
    other.progress? id direct = store.progress? id direct := by
  have sameActive : other.active id = store.active id := by
    have same := congrArg RepeatRegister.entry register
    exact same
  have sameCount : (other.registers.repeatOf id).count = (store.registers.repeatOf id).count := by
    have same := congrArg RepeatRegister.count register
    exact same
  rw [progress?, progress?, sameActive, active]
  cases direct with
  | true => rw [Option.bind_some, Option.bind_some, if_pos rfl, if_pos rfl, sameCount, sameBody rfl]
  | false => exact counts

theorem progress?_push (continues : store.progress? id direct = some (count, body))
    (frame : Frame) : (store.push frame).progress? id direct = some (count, body) := by
  obtain ⟨entry, active, found⟩ := Option.bind_eq_some_iff.1 continues
  refine Option.bind_eq_some_iff.2 ⟨entry, active, ?_⟩
  cases direct with
  | true => exact found
  | false => exact Stack.entry?_push found frame

/-- A repeat without a register is never active. -/
theorem lt_size_of_active (active : store.active id = some entry) :
    id < store.registers.repeats.size := by
  by_contra outside
  rw [Store.active, Registers.repeatOf, Array.getD_eq_getD_getElem?,
    Array.getElem?_eq_none (Nat.not_lt.1 outside)] at active
  cases active

theorem progress?_enterRepeat (known : id < store.registers.repeats.size) (body : Nat) :
    (store.enterRepeat id body).progress? id direct = some (0, body) := by
  let entry : Frame :=
    .repeatEntry id 0 body (store.active id) (store.registers.repeatOf id).count
  have written : (store.enterRepeat id body).registers.repeatOf id = ⟨some store.depth, 0, body⟩ :=
    @repeatOf_setRepeat_self (store.push entry) _ _ known
  rw [progress?, active, written]
  cases direct with
  | true => rfl
  | false =>
      have read : (store.enterRepeat id body).stack.get? store.depth = some entry :=
        store.stack.get?_depth_push entry
      simp only [Option.bind_some, Bool.false_eq_true, if_false, Stack.entry?, read, entry]

/-- The effect with which an active repeat counts an iteration. -/
def counting? (store : Store) (id : Nat) (direct : Bool) : Option Effect :=
  if direct then some (.countInRegister id) else (store.active id).map .countInEntry

theorem progress?_counting (continues : store.progress? id direct = some (count, body))
    {record : Effect} (counts : store.counting? id direct = some record) :
    (record.onStore store).progress? id direct = some (nextIteration count, body) := by
  obtain ⟨entry, active, found⟩ := Option.bind_eq_some_iff.1 continues
  cases direct with
  | true =>
      cases counts
      cases found
      have written : (store.countInRegister id).registers.repeatOf id =
          { store.registers.repeatOf id with
            count := nextIteration (store.registers.repeatOf id).count } :=
        @repeatOf_setRepeat_self (store.push (.registerCount id _)) _ _ (lt_size_of_active active)
      refine Option.bind_eq_some_iff.2 ⟨entry, ?_, ?_⟩
      · rw [Store.active, Effect.onStore, written]
        exact active
      · rw [Effect.onStore, written]
        rfl
  | false =>
      rw [counting?, active] at counts
      cases counts
      replace found : store.stack.entry? entry = some (count, body) := found
      refine Option.bind_eq_some_iff.2 ⟨entry, active, ?_⟩
      simp only [Bool.false_eq_true, if_false, Effect.onStore, countInEntry, found]
      exact Stack.entry?_push (Stack.entry?_setEntryCount found _) _

/-- What is on top once an iteration was counted is no choice. -/
theorem top_counting {record : Effect} (counts : store.counting? id direct = some record)
    (point : Point) :
    (record.onStore store).stack.get? ((record.onStore store).depth - 1) ≠
      some (.choice point) := by
  have atTop : ∀ (below : Stack) (frame : Frame), frame ≠ .choice point →
      (below.push frame).get? ((below.push frame).depth - 1) ≠ some (.choice point) := by
    intro below frame other read
    rw [below.get?_top] at read
    exact other (Option.some.inj read)
  cases direct with
  | true =>
      cases counts
      exact atTop store.stack _ Frame.noConfusion
  | false =>
      obtain ⟨entry, _, rfl⟩ := Option.map_eq_some_iff.1 counts
      exact atTop _ _ Frame.noConfusion

theorem restore_of_not_counts {frame : Frame} (apart : ¬ frame.Counts id entry) :
    (store.restore frame).registers.repeatOf id = store.registers.repeatOf id ∧
      (store.restore frame).stack.get? entry = store.stack.get? entry := by
  cases frame with
  | repeatEntry other count body outer savedCount =>
      exact ⟨repeatOf_setRepeat_of_ne _ apart, rfl⟩
  | registerCount other savedCount => exact ⟨repeatOf_setRepeat_of_ne _ apart, rfl⟩
  | entryCount index savedCount =>
      refine ⟨rfl, ?_⟩
      simp only [restore, Stack.setEntryCount, Stack.get?_modify]
      exact if_neg apart
  | _ => exact ⟨rfl, rfl⟩

/-- To go back below frames none of which has counted changes neither the register of a repeat nor
its entry. -/
theorem rewind_of_not_counts (within : depth ≤ store.depth) (below : entry < depth)
    (apart : ∀ index frame, depth ≤ index → store.stack.get? index = some frame →
      ¬ frame.Counts id entry) :
    (store.rewind depth).registers.repeatOf id = store.registers.repeatOf id ∧
      (store.rewind depth).stack.get? entry = store.stack.get? entry := by
  induction store using push_induction with
  | empty registers => exact absurd below (by rw [Nat.le_zero.1 within]; exact Nat.not_lt_zero _)
  | push store frame ih =>
      by_cases whole : depth = (store.push frame).depth
      · rw [whole, rewind_depth]
        exact ⟨rfl, rfl⟩
      · rw [depth_push] at within whole
        have lower : depth ≤ store.depth := by omega
        have top : ¬ frame.Counts id entry :=
          apart store.depth frame lower (store.stack.get?_depth_push frame)
        have others : ∀ index found, depth ≤ index →
            (store.restore frame).stack.get? index = some found → ¬ found.Counts id entry := by
          intro index found above read counts
          obtain ⟨original, readOriginal, same⟩ := get?_restore read
          refine apart index original above ?_ ?_
          · exact (store.stack.get?_push_of_lt frame (Stack.lt_depth_of_get? readOriginal)).trans
              readOriginal
          · rcases same with rfl | ⟨count, rfl⟩
            · exact counts
            · exact (Frame.Becomes.withCount original count).counts counts
        rw [rewind_push store frame lower]
        obtain ⟨sameRegister, sameEntry⟩ :=
          ih _ (store.depth_restore frame) (by rwa [depth_restore]) others
        obtain ⟨sameRegister', sameEntry'⟩ := restore_of_not_counts top
        refine ⟨sameRegister.trans sameRegister', sameEntry.trans (sameEntry'.trans ?_)⟩
        exact (store.stack.get?_push_of_lt frame (Nat.lt_of_lt_of_le below lower)).symm

end Store

/-! ### What moves leave of a register -/

/-- The repeat that an instruction starts. -/
def Instruction.started? : Instruction → Option Nat
  | .repeatStart id _ _ => some id
  | _ => none

/-- The repeat that the instruction at an address starts. -/
def Program.startedAt? (program : Program) (address : Nat) : Option Nat :=
  program.code[address]?.bind Instruction.started?

theorem Attempt.startedAt?_of_enterRepeat {attempt : Attempt} {point : Point} {store : Store}
    {id body : Nat} (mem : .perform (.enterRepeat id body) ∈ attempt.moves point store) :
    attempt.program.startedAt? point.address = some id := by
  obtain ⟨instruction, fetched, causes | ⟨point', isChoice⟩⟩ := exists_causes_of_mem_moves mem
  · refine Option.bind_eq_some_iff.2 ⟨instruction, fetched, ?_⟩
    cases causes with
    | enterRepeat => rfl
  · cases isChoice

namespace Store

variable {store : Store} {id other : Nat}

theorem body_setRepeat {register : RepeatRegister}
    (same : register.body = (store.registers.repeatOf other).body) :
    ((store.setRepeat other register).registers.repeatOf id).body =
      (store.registers.repeatOf id).body := by
  by_cases own : other = id
  · subst own
    rcases store.repeatOf_setRepeat other register with written | unwritten
    · rw [written, same]
    · rw [unwritten]
  · rw [repeatOf_setRepeat_of_ne register own]

/-- Going back does not write where bodies start. -/
theorem body_restore (store : Store) (frame : Frame) (id : Nat) :
    ((store.restore frame).registers.repeatOf id).body = (store.registers.repeatOf id).body := by
  cases frame with
  | repeatEntry | registerCount => exact body_setRepeat rfl
  | _ => rfl

theorem body_unwind (test : Frame → Bool) (store : Store) (id : Nat) :
    ((store.unwind test).2.registers.repeatOf id).body = (store.registers.repeatOf id).body := by
  refine @unwind_invariant
    (fun other => (other.registers.repeatOf id).body = (store.registers.repeatOf id).body)
    test (fun _ _ _ same => same) ?_ store rfl
  intro other frame same
  rw [body_restore]
  exact same

theorem reset_restore (store : Store) (frame : Frame) :
    (store.restore frame).registers.reset = store.registers.reset := by
  cases frame with
  | groupStart | groupEnd => exact Registers.reset_setGroup ..
  | repeatEntry | registerCount => exact Registers.reset_setRepeat ..
  | _ => rfl

theorem reset_unwind (test : Frame → Bool) (store : Store) :
    (store.unwind test).2.registers.reset = store.registers.reset := by
  refine @unwind_invariant (fun other => other.registers.reset = store.registers.reset)
    test (fun _ _ _ same => same) ?_ store rfl
  intro other frame same
  rw [reset_restore]
  exact same

end Store

namespace Move

variable {store : Store} {move : Move} {id : Nat}

/-- Only the start of a repeat writes where its body starts. -/
theorem body_onStore (other : ∀ body, move ≠ .perform (.enterRepeat id body)) :
    ((move.onStore store).registers.repeatOf id).body = (store.registers.repeatOf id).body := by
  cases move with
  | perform effect =>
      cases effect with
      | enterRepeat started body =>
          have apart : started ≠ id := by
            rintro rfl
            exact other body rfl
          rw [onStore, Effect.onStore, Store.enterRepeat, Store.repeatOf_setRepeat_of_ne _ apart]
          rfl
      | countInRegister counted => exact Store.body_setRepeat rfl
      | discard =>
          simp only [onStore, Effect.onStore, Store.discard]
          split <;> rfl
      | unwindTo mark => exact Store.body_unwind _ store id
      | _ => rfl
  | backtrack => exact Store.body_unwind _ store id
  | _ => rfl

/-- No move makes more or fewer registers. -/
theorem reset_onStore (store : Store) (move : Move) :
    (move.onStore store).registers.reset = store.registers.reset := by
  cases move with
  | perform effect =>
      cases effect with
      | openGroup | closeGroup | clearGroup | setGroup => exact Registers.reset_setGroup ..
      | enterRepeat | countInRegister => exact Registers.reset_setRepeat ..
      | discard =>
          simp only [onStore, Effect.onStore, Store.discard]
          split <;> rfl
      | unwindTo mark => exact Store.reset_unwind _ store
      | _ => rfl
  | backtrack => exact Store.reset_unwind _ store
  | _ => rfl

end Move

/-! ### Stretches of a run -/

namespace Search

variable {setting : Setting} {dispatches floor id : Nat} {direct : Bool}
  {first middle last : Search}

/-- Whether a run leads from one state to another and throws away nothing but choices. -/
def Comes (setting : Setting) (first last : Search) : Prop :=
  ∃ dispatches, first.advance setting dispatches = .ok last ∧
    ∀ visit ∈ trail setting dispatches first, visit.DiscardsChoice

namespace Comes

theorem refl (search : Search) : search.Comes setting search :=
  ⟨0, rfl, List.forall_mem_nil _⟩

theorem trans (comes : first.Comes setting middle) (comes' : middle.Comes setting last) :
    first.Comes setting last := by
  obtain ⟨few, reaches, discards⟩ := comes
  obtain ⟨more, reaches', discards'⟩ := comes'
  refine ⟨few + more, ?_, ?_⟩
  · rw [advance_add, reaches]
    exact reaches'
  · intro visit mem
    rw [trail_add reaches, List.mem_append] at mem
    exact mem.elim (discards visit) (discards' visit)

theorem anchored (comes : first.Comes setting last)
    (start : first.store.Anchored setting.program) : last.store.Anchored setting.program := by
  obtain ⟨dispatches, reaches, discards⟩ := comes
  exact anchored_of_advance start discards reaches

theorem size_repeats (comes : first.Comes setting last) :
    last.store.registers.repeats.size = first.store.registers.repeats.size := by
  obtain ⟨dispatches, reaches, _⟩ := comes
  have same : last.store.registers.reset = first.store.registers.reset := by
    refine @store_invariant setting dispatches first
      (fun store => store.registers.reset = first.store.registers.reset) last reaches rfl ?_
    intro visit _ before
    rw [Move.reset_onStore, before]
  have sizes := congrArg (fun registers => registers.repeats.size) same
  simpa [Registers.reset, Registers.blank] using sizes

/-- The instructions of a repeat throw nothing away. -/
theorem of_repeat (isRepeat : setting.program.repeatAt? first.point.address = some id)
    (stepped : first.step setting = .ok last) : first.Comes setting last := by
  refine ⟨1, ?_, ?_⟩
  · rw [advance, stepped]
    rfl
  · intro visit mem isDiscard
    obtain ⟨state, stateMem, made⟩ := exists_mem_dispatched mem
    have here : state = first := by
      rw [dispatched, stepped] at stateMem
      exact List.mem_singleton.1 stateMem
    subst here
    rw [isDiscard] at made
    have raises := Attempt.raises_of_repeat isRepeat made (Store.push (.blank 0 0) .void)
    exact absurd raises (by decide)

end Comes

/-- A stretch of a run that takes no frame off below a floor and throws away nothing but choices.
The start of a repeat whose register is read is not even tried. -/
structure Stretch (setting : Setting) (id : Nat) (direct : Bool) (dispatches floor : Nat)
    (first last : Search) : Prop where
  reaches : first.advance setting dispatches = .ok last
  above : ∀ visit ∈ trail setting dispatches first, floor ≤ visit.after.store.depth
  discards : ∀ visit ∈ trail setting dispatches first, visit.DiscardsChoice
  unstarted : direct = true → ∀ state ∈ dispatched setting dispatches first,
    setting.program.startedAt? state.point.address ≠ some id

theorem Stretch.comes (stretch : Stretch setting id direct dispatches floor first last) :
    first.Comes setting last :=
  ⟨dispatches, stretch.reaches, stretch.discards⟩

/-- An entry stays one as long as the run does not go back behind it. -/
theorem entersAt_of_onPath (reaches : first.advance setting dispatches = .ok last) {id entry : Nat}
    (enters : first.store.stack.EntersAt id entry)
    (above : ∀ visit ∈ trail setting dispatches first, entry < visit.after.store.depth) :
    last.store.stack.EntersAt id entry := by
  refine @store_invariant setting dispatches first (fun store => store.stack.EntersAt id entry) last
    reaches enters ?_
  intro visit mem before
  have inside := above visit mem
  rw [store_of_mem_trail mem] at inside
  exact before.becomes fun frame read =>
    Move.exists_get?_onStore (regular_of_mem_trail mem) read inside

/-- On a stretch, going back to the floor would find the same repeats all along. -/
theorem Stretch.record_rewind (stretch : Stretch setting id direct dispatches floor first last)
    (within : floor ≤ first.store.depth) :
    floor ≤ last.store.depth ∧
      (last.store.rewind floor).record.forgetGroups =
        (first.store.rewind floor).record.forgetGroups := by
  refine @store_invariant setting dispatches first (fun store => floor ≤ store.depth ∧
    (store.rewind floor).record.forgetGroups = (first.store.rewind floor).record.forgetGroups) last
      stretch.reaches ⟨within, rfl⟩ ?_
  rintro visit mem ⟨within, same⟩
  have within' := stretch.above visit mem
  rw [store_of_mem_trail mem] at within'
  refine ⟨within', ?_⟩
  rw [Move.record_forgetGroups_rewind_onStore (regular_of_mem_trail mem)
    (stretch.discards visit mem) within within', same]

theorem Stretch.body_eq (stretch : Stretch setting id true dispatches floor first last) :
    (last.store.registers.repeatOf id).body = (first.store.registers.repeatOf id).body := by
  refine @store_invariant setting dispatches first (fun store =>
    (store.registers.repeatOf id).body = (first.store.registers.repeatOf id).body) last
      stretch.reaches rfl ?_
  intro visit mem before
  obtain ⟨state, stateMem, made⟩ := exists_mem_dispatched mem
  rw [Move.body_onStore, before]
  intro body isStart
  rw [isStart] at made
  exact stretch.unstarted rfl state stateMem (Attempt.startedAt?_of_enterRepeat made)

/-- A repeat continues as before a stretch, if no frame above the floor counts for it at either
end. -/
theorem Stretch.progress?_eq (stretch : Stretch setting id direct dispatches floor first last)
    (within : floor ≤ first.store.depth) {entry : Nat} (active : first.store.active id = some entry)
    (below : entry < floor)
    (apart : ∀ index frame, floor ≤ index → first.store.stack.get? index = some frame →
      ¬ frame.Counts id entry)
    (apart' : ∀ index frame, floor ≤ index → last.store.stack.get? index = some frame →
      ¬ frame.Counts id entry) :
    last.store.progress? id direct = first.store.progress? id direct := by
  obtain ⟨within', same⟩ := stretch.record_rewind within
  obtain ⟨sameRegister, sameEntry⟩ := Store.rewind_of_not_counts within below apart
  obtain ⟨sameRegister', sameEntry'⟩ := Store.rewind_of_not_counts within' below apart'
  have repeatOf_forget : ∀ store : Store,
      store.record.forgetGroups.registers.repeatOf id = (store.registers.repeatOf id).record :=
    fun store => store.repeatOf_record id
  have entry?_forget : ∀ store : Store,
      store.record.forgetGroups.stack.entry? entry = store.stack.entry? entry := by
    intro store
    simp only [Store.forgetGroups, Store.record, Stack.entry?, Stack.get?_record]
    cases store.stack.get? entry with
    | none => rfl
    | some frame => cases frame <;> rfl
  refine Store.progress?_congr active ?_ ?_ ?_
  · rw [← sameRegister, ← sameRegister', ← repeatOf_forget, same, repeatOf_forget]
  · rintro rfl
    exact stretch.body_eq
  · have rewound := entry?_forget (last.store.rewind floor)
    rw [same, entry?_forget] at rewound
    simp only [Stack.entry?, sameEntry, sameEntry'] at rewound ⊢
    exact rewound.symm

/-- A stretch of a run that does not go back behind its start, and on whose path no instruction
enters or counts a repeat. -/
structure Spares (setting : Setting) (id : Nat) (direct : Bool) (dispatches : Nat)
    (first last : Search) : Prop where
  stretch : Stretch setting id direct dispatches first.store.depth first last
  unused : ∀ state ∈ path setting dispatches first,
    setting.program.repeatAt? state.point.address ≠ some id

/-- No frame above the start of a path counts for a repeat that is active there and that no
instruction on the path enters or counts. -/
theorem not_counts_of_path (reaches : first.advance setting dispatches = .ok last)
    (anchored : first.store.Anchored setting.program)
    (discards : ∀ visit ∈ trail setting dispatches first, visit.DiscardsChoice)
    (onPath : first.OnPath setting dispatches) {id entry : Nat}
    (active : first.store.active id = some entry)
    (unused : ∀ state ∈ path setting dispatches first,
      setting.program.repeatAt? state.point.address ≠ some id) :
    ∀ index frame, first.store.depth ≤ index → last.store.stack.get? index = some frame →
      ¬ frame.Counts id entry := by
  intro index frame above read counts
  rcases exists_mem_path_of_counts reaches read counts with
    ⟨original, readOriginal, _, _⟩ | ⟨passed, state, less, reached, mem, other, atAddress, concerns⟩
  · exact absurd (Stack.lt_depth_of_get? readOriginal) (Nat.not_lt.2 above)
  · -- Another repeat would have to be active in the entry, which is of this one.
    have trailed := trail_add reached (dispatches - passed)
    rw [Nat.add_sub_cancel' (Nat.le_of_lt less)] at trailed
    have earlier : trail setting passed first ⊆ trail setting dispatches first := by
      rw [trailed]
      exact List.subset_append_left _ _
    have enters := anchored.active id entry active
    have here : state.store.stack.EntersAt id entry :=
      entersAt_of_onPath reached enters fun visit within =>
        Nat.lt_of_lt_of_le enters.lt_depth (onPath visit (earlier within))
    have own : other = id := by
      rcases concerns with same | isActive
      · exact same
      · have anchoredHere := anchored_of_advance anchored
          (fun visit within => discards visit (earlier within)) reached
        exact here.unique (anchoredHere.active other entry isActive)
    exact unused state mem (own ▸ atAddress)

theorem Spares.refl (search : Search) : Spares setting id direct 0 search search :=
  ⟨⟨rfl, List.forall_mem_nil _, List.forall_mem_nil _, fun _ => List.forall_mem_nil _⟩,
    List.forall_mem_nil _⟩

/-- A repeat that is active continues as before, if no instruction on the path enters or counts
it. -/
theorem Spares.progress?_eq (spares : Spares setting id direct dispatches first last)
    (anchored : first.store.Anchored setting.program) {progress : Nat × Nat}
    (continues : first.store.progress? id direct = some progress) :
    last.store.progress? id direct = some progress := by
  obtain ⟨entry, active, _⟩ := Option.bind_eq_some_iff.1 continues
  rw [← continues]
  have below := (anchored.active id entry active).lt_depth
  refine spares.stretch.progress?_eq (Nat.le_refl _) active below ?_ ?_
  · intro index frame above read
    exact absurd (Stack.lt_depth_of_get? read) (Nat.not_lt.2 above)
  · exact not_counts_of_path spares.stretch.reaches anchored spares.stretch.discards
      spares.stretch.above active spares.unused

end Search

end PatternMachine
