import PatternMachine.Proofs.Iterations
import PatternMachine.Proofs.Outline

/-!
# Counting in frames and in registers

A repeat may be counted in frames or in a register.  Two stores that count a repeat in different
places are twins if they agree on everything else and on every count, now and however far they are
taken back (`Store.Twin`).  Where bodies start is not taken back, so twins need every repeat that is
counted in frames to have one body only.
-/

namespace PatternMachine

/-! ### What a program says of its repeats -/

namespace Program

/-- Whether no iteration of a repeat is counted in a frame. -/
def countsDirectly (program : Program) (id : Nat) : Bool :=
  program.code.all fun
    | .repeatNext other _ false => other != id
    | _ => true

/-- Whether a repeat is started right before an address. -/
def BodyAt (program : Program) (id body : Nat) : Prop :=
  ∃ address, program.startedAt? address = some id ∧ body = address + 1

end Program

/-! ### Bodies -/

/-- Whether every entry of a repeat, and the register of every repeat that has entries, tells where
a body of that repeat starts. -/
structure Store.Bodied (program : Program) (store : Store) : Prop where
  entries : ∀ index id count body outer savedCount,
    store.stack.get? index = some (.repeatEntry id count body outer savedCount) →
      program.BodyAt id body
  registers : ∀ id index, id < store.registers.repeats.size → store.stack.EntersAt id index →
    program.BodyAt id (store.registers.repeatOf id).body

namespace Store

variable {program : Program} {store : Store}

theorem Bodied.reset (store : Store) : store.reset.Bodied program where
  entries := fun _ _ _ _ _ _ read => by cases read
  registers := fun _ _ _ enters => by
    obtain ⟨_, _, _, _, read⟩ := enters
    cases read

theorem repeatOf_of_unknown {id : Nat} (unknown : store.registers.repeats.size ≤ id) :
    store.registers.repeatOf id = .idle := by
  rw [Registers.repeatOf, Array.getD_eq_getD_getElem?, Array.getElem?_eq_none unknown]
  rfl

theorem repeatOf_enterRepeat {id : Nat} (known : id < store.registers.repeats.size) (body : Nat) :
    (store.enterRepeat id body).registers.repeatOf id = ⟨some store.depth, 0, body⟩ :=
  @repeatOf_setRepeat_self (store.push (.repeatEntry id 0 body _ _)) _ _ known

theorem size_repeats_onStore (store : Store) (move : Move) :
    (move.onStore store).registers.repeats.size = store.registers.repeats.size := by
  have sizes := congrArg (fun registers => registers.repeats.size) (move.reset_onStore store)
  simpa [Registers.reset, Registers.blank] using sizes

/-- A repeat without a register is not active even when it is entered. -/
theorem active_enterRepeat_of_unknown {id : Nat} (unknown : store.registers.repeats.size ≤ id)
    (body : Nat) : (store.enterRepeat id body).active id = none := by
  have sizes : (store.enterRepeat id body).registers.repeats.size = store.registers.repeats.size :=
    store.size_repeats_onStore (.perform (.enterRepeat id body))
  rw [active, repeatOf_of_unknown (sizes ▸ unknown)]
  rfl

/-- The start of a repeat writes where its body starts, and no other move does. -/
theorem Bodied.onStore (bodied : store.Bodied program) {move : Move}
    (regular : move.Regular program)
    (starts : ∀ id body, move = .perform (.enterRepeat id body) → program.BodyAt id body) :
    (move.onStore store).Bodied program where
  entries := by
    intro index id count body outer savedCount read
    rcases Move.get?_onStore regular read with
      ⟨frame, readFrame, becomes⟩ | ⟨_, effect, rfl, pushes⟩
    · obtain ⟨before, rfl⟩ := Stack.EntersAt.of_becomes becomes
      exact bodied.entries index id before body outer savedCount readFrame
    · cases effect with
      | enterRepeat started body' =>
          cases pushes
          exact starts id body rfl
      | push frame =>
          cases pushes
          cases regular
      | _ => cases pushes
  registers := by
    intro id index known enters
    rw [size_repeats_onStore] at known
    by_cases isStart : ∃ body, move = .perform (.enterRepeat id body)
    · obtain ⟨body, rfl⟩ := isStart
      rw [Move.onStore, Effect.onStore, repeatOf_enterRepeat known]
      exact starts id body rfl
    · rw [Move.body_onStore fun body same => isStart ⟨body, same⟩]
      obtain ⟨count, body, outer, savedCount, read⟩ := enters
      rcases Move.get?_onStore regular read with
        ⟨frame, readFrame, becomes⟩ | ⟨_, effect, rfl, pushes⟩
      · obtain ⟨before, rfl⟩ := Stack.EntersAt.of_becomes becomes
        exact bodied.registers id index known ⟨before, body, outer, savedCount, readFrame⟩
      · cases effect with
        | enterRepeat started body' =>
            cases pushes
            exact absurd ⟨body, rfl⟩ isStart
        | push frame =>
            cases pushes
            cases regular
        | _ => cases pushes

/-- An active repeat continues from where a body of it starts. -/
theorem Bodied.bodyAt (bodied : store.Bodied program) (anchored : store.Anchored program)
    {id count body : Nat} {direct : Bool}
    (continues : store.progress? id direct = some (count, body)) : program.BodyAt id body := by
  obtain ⟨entry, active, found⟩ := Option.bind_eq_some_iff.1 continues
  have enters := anchored.active id entry active
  cases direct with
  | true =>
      cases found
      exact bodied.registers id entry (lt_size_of_active active) enters
  | false =>
      obtain ⟨_, _, outer, savedCount, read⟩ := enters
      simp only [Stack.entry?, read, Bool.false_eq_true, if_false, Option.some.injEq,
        Prod.mk.injEq] at found
      obtain ⟨_, rfl⟩ := found
      exact bodied.entries entry id _ _ outer savedCount read

/-! ### Counts -/

/-- The iterations that a repeat has counted since it was entered, if it is active. -/
def count? (store : Store) (id : Nat) (direct : Bool) : Option Nat :=
  (store.progress? id direct).map Prod.fst

variable {id : Nat} {direct : Bool}

/-- A repeat has the same count in stores in which it is active in the same entry, with the same
counts. -/
theorem count?_congr {other : Store}
    (register : (other.registers.repeatOf id).record = (store.registers.repeatOf id).record)
    (entry : ∀ index, store.active id = some index →
      other.stack.entry? index = store.stack.entry? index) :
    other.count? id direct = store.count? id direct := by
  have sameActive : other.active id = store.active id := by
    have same := congrArg RepeatRegister.entry register
    exact same
  have sameCount : (other.registers.repeatOf id).count = (store.registers.repeatOf id).count := by
    have same := congrArg RepeatRegister.count register
    exact same
  rw [count?, count?, progress?, progress?, sameActive]
  cases isActive : store.active id with
  | none => rfl
  | some index =>
      cases direct with
      | true => exact congrArg some sameCount
      | false => exact congrArg (Option.map Prod.fst) (entry index isActive)

/-- Counts are recorded. -/
theorem count?_record (store : Store) (id : Nat) (direct : Bool) :
    store.record.forgetGroups.count? id direct = store.count? id direct := by
  refine count?_congr ?_ fun index _ => ?_
  · have recorded : store.record.forgetGroups.registers.repeatOf id =
        (store.registers.repeatOf id).record := store.repeatOf_record id
    rw [recorded]
    rfl
  · simp only [forgetGroups, record, Stack.entry?, Stack.get?_record]
    cases store.stack.get? index with
    | none => rfl
    | some frame => cases frame <;> rfl

/-- A frame on top changes no count. -/
theorem count?_of_push (anchored : store.Anchored program) {pushed : Store} {frame : Frame}
    (stack : pushed.stack = store.stack.push frame)
    (register : pushed.registers.repeatOf id = store.registers.repeatOf id) :
    pushed.count? id direct = store.count? id direct := by
  refine count?_congr (congrArg _ register) fun index isActive => ?_
  have below := (anchored.active id index isActive).lt_depth
  rw [Stack.entry?, Stack.entry?, stack, Stack.get?_push_of_lt _ _ below]

theorem count?_push (anchored : store.Anchored program) (frame : Frame) :
    (store.push frame).count? id direct = store.count? id direct :=
  count?_of_push anchored rfl rfl

theorem count?_enterRepeat (known : id < store.registers.repeats.size) (body : Nat) :
    (store.enterRepeat id body).count? id direct = some 0 := by
  rw [count?, progress?_enterRepeat known]
  rfl

theorem count?_of_inactive (inactive : store.active id = none) : store.count? id direct = none := by
  rw [count?, progress?, inactive]
  rfl

/-- An iteration that is counted raises the count. -/
theorem count?_counting (anchored : store.Anchored program) {record : Effect}
    (counts : store.counting? id direct = some record) :
    (record.onStore store).count? id direct = (store.count? id direct).map nextIteration := by
  cases isActive : store.active id with
  | none =>
      cases direct with
      | true =>
          cases counts
          let saved : Frame := .registerCount id (store.registers.repeatOf id).count
          have unchanged : (store.countInRegister id).active = (store.push saved).active :=
            @active_setRepeat_of_entry (store.push saved) _ _ rfl
          have inactive : (store.countInRegister id).active id = none := by
            rw [unchanged]
            exact isActive
          rw [count?_of_inactive isActive, Effect.onStore, count?_of_inactive inactive]
          rfl
      | false =>
          rw [counting?, isActive] at counts
          cases counts
  | some entry =>
      obtain ⟨count, body, continues⟩ := anchored.exists_progress? isActive direct
      rw [count?, count?, progress?_counting continues counts, continues]
      rfl

/-- An iteration that is counted in an entry leaves the entries of other repeats alone. -/
theorem entry?_countInEntry_of_ne (anchored : store.Anchored program) {counting index entry : Nat}
    (apart : counting ≠ id) (isIndex : store.active counting = some index)
    (isActive : store.active id = some entry) :
    (store.countInEntry index).stack.entry? entry = store.stack.entry? entry := by
  have enters := anchored.active id entry isActive
  have other : index ≠ entry := by
    rintro rfl
    exact apart (enters.unique (anchored.active counting index isIndex))
  simp only [countInEntry, Stack.entry?]
  rw [Stack.get?_push_of_lt _ _ (by rw [Stack.depth_setEntryCount]; exact enters.lt_depth),
    Stack.setEntryCount, Stack.get?_modify, if_neg other]

/-- An iteration that is counted raises no other count. -/
theorem count?_counting_of_ne (anchored : store.Anchored program) {counting : Nat} {form : Bool}
    (apart : counting ≠ id) {record : Effect}
    (counts : store.counting? counting form = some record) :
    (record.onStore store).count? id direct = store.count? id direct := by
  cases form with
  | true =>
      cases counts
      exact count?_of_push anchored rfl (repeatOf_setRepeat_of_ne _ apart)
  | false =>
      obtain ⟨index, isIndex, rfl⟩ := Option.map_eq_some_iff.1 counts
      exact count?_congr rfl fun entry isActive =>
        entry?_countInEntry_of_ne anchored apart isIndex isActive

/-- What going back below a move leads to has the same counts as before the move. -/
theorem count?_rewind_onStore {move : Move} (regular : move.Regular program)
    (discards : move = .perform .discard → store.topIsChoice = true) {depth : Nat}
    (within : depth ≤ store.depth) (within' : depth ≤ (move.onStore store).depth) :
    ((move.onStore store).rewind depth).count? id direct =
      (store.rewind depth).count? id direct := by
  rw [← count?_record, Move.record_forgetGroups_rewind_onStore regular discards within within',
    count?_record]

end Store

/-! ### Twins -/

/-- Two stores of which the first one counts the repeats of a program as the program does, and the
second one counts all of them in registers. -/
structure Store.Twin (program : Program) (left right : Store) : Prop where
  outline : left.outline = right.outline
  sizes : left.registers.repeats.size = right.registers.repeats.size
  bodies : ∀ id, (left.registers.repeatOf id).body = (right.registers.repeatOf id).body
  counts : ∀ depth ≤ left.depth, ∀ id,
    (left.rewind depth).count? id (program.countsDirectly id) = (right.rewind depth).count? id true
  anchored : left.Anchored program
  anchored_right : right.Anchored program
  bodied : left.Bodied program

/-- Whether twins stay twins if both make a move. -/
def Move.Copied (program : Program) : Move → Prop
  | .perform (.enterRepeat id body) => program.BodyAt id body
  | .perform (.countInRegister id) => program.countsDirectly id = true
  | .perform (.countInEntry _) | .perform .discard => False
  | _ => True

/-- Moves that twins may make, in such a way that they stay twins. -/
inductive Move.Mirrors (program : Program) (left : Store) : Move → Move → Prop
  | same {move : Move} (regular : move.Regular program) (copied : move.Copied program) :
      Mirrors program left move move
  | count {id : Nat} {record : Effect} (inFrames : program.countsDirectly id = false)
      (counts : left.counting? id false = some record) :
      Mirrors program left (.perform record) (.perform (.countInRegister id))

namespace Store.Twin

variable {program : Program} {left right : Store}

theorem reset (store : Store) : store.reset.Twin program store.reset where
  outline := rfl
  sizes := rfl
  bodies := fun _ => rfl
  counts := by
    intro depth within id
    obtain rfl : depth = 0 := Nat.le_zero.1 within
    have inactive : store.reset.active id = none := by
      cases isActive : store.reset.active id with
      | none => rfl
      | some entry =>
          have anchored : store.reset.Anchored program := .reset store
          exact absurd (anchored.active id entry isActive).lt_depth (Nat.not_lt_zero _)
    have whole : store.reset.rewind 0 = store.reset := store.reset.rewind_depth
    rw [whole, count?_of_inactive inactive, count?_of_inactive inactive]
  anchored := .reset store
  anchored_right := .reset store
  bodied := .reset store

theorem depth (twin : left.Twin program right) : left.depth = right.depth := by
  rw [← left.depth_outline, twin.outline, depth_outline]

/-- Twins have counted the same. -/
theorem count (twin : left.Twin program right) (id : Nat) :
    left.count? id (program.countsDirectly id) = right.count? id true := by
  have same := twin.counts left.depth (Nat.le_refl _) id
  rw [rewind_depth, twin.depth, rewind_depth] at same
  exact same

section

variable {move move' : Move}

theorem outline_onStore (twin : left.Twin program right)
    (mirrors : move.Mirrors program left move') :
    (move.onStore left).outline = (move'.onStore right).outline := by
  cases mirrors with
  | same =>
      cases move with
      | perform effect =>
          simp only [Move.onStore]
          rw [effect.outline_onStore, effect.outline_onStore, twin.outline]
      | backtrack =>
          have leftBack := congrArg Prod.snd left.outline_backtrack
          have rightBack := congrArg Prod.snd right.outline_backtrack
          rw [twin.outline] at leftBack
          exact leftBack.symm.trans rightBack
      | _ => exact twin.outline
  | count inFrames counts =>
      obtain ⟨index, _, rfl⟩ := Option.map_eq_some_iff.1 counts
      simp only [Move.onStore]
      rw [Effect.outline_onStore, Effect.outline_onStore, twin.outline]
      rfl

theorem bodies_onStore (twin : left.Twin program right)
    (mirrors : move.Mirrors program left move') (id : Nat) :
    ((move.onStore left).registers.repeatOf id).body =
      ((move'.onStore right).registers.repeatOf id).body := by
  have kept : ∀ move move' : Move, (∀ body, move ≠ .perform (.enterRepeat id body)) →
      (∀ body, move' ≠ .perform (.enterRepeat id body)) →
        ((move.onStore left).registers.repeatOf id).body =
          ((move'.onStore right).registers.repeatOf id).body := by
    intro move move' other other'
    rw [Move.body_onStore other, Move.body_onStore other', twin.bodies]
  cases mirrors with
  | same =>
      by_cases isStart : ∃ body, move = .perform (.enterRepeat id body)
      · obtain ⟨body, rfl⟩ := isStart
        by_cases known : id < left.registers.repeats.size
        · have known' : id < right.registers.repeats.size := by rwa [← twin.sizes]
          simp only [Move.onStore, Effect.onStore]
          rw [repeatOf_enterRepeat known, repeatOf_enterRepeat known']
        · have unknown := Nat.not_lt.1 known
          rw [repeatOf_of_unknown (by rwa [size_repeats_onStore]),
            repeatOf_of_unknown (by rwa [size_repeats_onStore, ← twin.sizes])]
      · exact kept _ _ (fun body same => isStart ⟨body, same⟩) fun body same => isStart ⟨body, same⟩
  | count inFrames counts =>
      obtain ⟨index, _, rfl⟩ := Option.map_eq_some_iff.1 counts
      exact kept _ _ (fun _ same => by cases same) fun _ same => by cases same

/-- A repeat that is entered has counted nothing yet. -/
theorem count_enterRepeat (twin : left.Twin program right) (id body : Nat) :
    (left.enterRepeat id body).count? id (program.countsDirectly id) =
      (right.enterRepeat id body).count? id true := by
  by_cases known : id < left.registers.repeats.size
  · have known' : id < right.registers.repeats.size := by rwa [← twin.sizes]
    rw [count?_enterRepeat known, count?_enterRepeat known']
  · have unknown := Nat.not_lt.1 known
    rw [count?_of_inactive (active_enterRepeat_of_unknown unknown body),
      count?_of_inactive (active_enterRepeat_of_unknown (twin.sizes ▸ unknown) body)]

/-- Twins count on together. -/
theorem count_counting (twin : left.Twin program right) (counted : Nat) {record : Effect}
    (counts : left.counting? counted (program.countsDirectly counted) = some record) (id : Nat) :
    (record.onStore left).count? id (program.countsDirectly id) =
      ((Effect.countInRegister counted).onStore right).count? id true := by
  have counts' : right.counting? counted true = some (.countInRegister counted) := rfl
  by_cases own : counted = id
  · subst own
    rw [count?_counting twin.anchored counts, count?_counting twin.anchored_right counts',
      twin.count]
  · rw [count?_counting_of_ne twin.anchored own counts,
      count?_counting_of_ne twin.anchored_right own counts', twin.count]

/-- A move that pushes a frame leaves twins with the same counts. -/
theorem count_onStore (twin : left.Twin program right) (mirrors : move.Mirrors program left move')
    (pushes : left.depth < (move.onStore left).depth) (id : Nat) :
    (move.onStore left).count? id (program.countsDirectly id) =
      (move'.onStore right).count? id true := by
  -- A frame on top that is not one of a repeat changes no count.
  have pushed : ∀ {left' right' : Store} {frame frame' : Frame},
      left'.stack = left.stack.push frame → right'.stack = right.stack.push frame' →
        left'.registers.repeatOf id = left.registers.repeatOf id →
          right'.registers.repeatOf id = right.registers.repeatOf id →
            left'.count? id (program.countsDirectly id) = right'.count? id true := by
    intro left' right' frame frame' stack stack' register register'
    rw [count?_of_push twin.anchored stack register,
      count?_of_push twin.anchored_right stack' register', twin.count]
  have low : ∀ effect : Effect, effect.needsRoom = false →
      ¬ left.depth < (effect.onStore left).depth := by
    intro effect noRoom
    have depth := effect.depth_onStore left
    rw [noRoom, if_neg Bool.noConfusion] at depth
    exact Nat.not_lt.2 depth
  cases mirrors with
  | same regular copied =>
      cases move with
      | perform effect =>
          cases effect with
          | push frame => exact pushed rfl rfl rfl rfl
          | openGroup group position | closeGroup group position | clearGroup group =>
              exact pushed rfl rfl rfl rfl
          | enterRepeat started body =>
              by_cases own : started = id
              · subst own
                exact twin.count_enterRepeat started body
              · exact pushed rfl rfl (repeatOf_setRepeat_of_ne _ own)
                  (repeatOf_setRepeat_of_ne _ own)
          | countInRegister counted =>
              exact twin.count_counting counted (copied.symm ▸ rfl) id
          | countInEntry index | discard => exact copied.elim
          | note event | setGroup group bounds | commit mark | unwindTo mark =>
              exact absurd pushes (low _ rfl)
      | backtrack =>
          have lower := (unwind_eq_rewind (fun _ => Frame.IsPlain.of_isResumable) left).1
          exact absurd pushes (Nat.not_lt.2 lower)
      | _ => exact absurd pushes (Nat.lt_irrefl _)
  | count inFrames counts => exact twin.count_counting _ (inFrames.symm ▸ counts) id

/-- Twins stay twins. -/
theorem onStore (twin : left.Twin program right) (mirrors : move.Mirrors program left move') :
    (move.onStore left).Twin program (move'.onStore right) := by
  have outline := twin.outline_onStore mirrors
  have depth : (move.onStore left).depth = (move'.onStore right).depth := by
    rw [← depth_outline, outline, depth_outline]
  have regular : move.Regular program ∧ move'.Regular program := by
    cases mirrors with
    | same regular copied => exact ⟨regular, regular⟩
    | count inFrames counts =>
        obtain ⟨index, _, rfl⟩ := Option.map_eq_some_iff.1 counts
        exact ⟨trivial, trivial⟩
  have keeps : move ≠ .perform .discard ∧ move' ≠ .perform .discard := by
    cases mirrors with
    | same regular copied =>
        have keeps : move ≠ .perform .discard := by
          rintro rfl
          exact copied
        exact ⟨keeps, keeps⟩
    | count inFrames counts =>
        obtain ⟨index, _, rfl⟩ := Option.map_eq_some_iff.1 counts
        exact ⟨nofun, nofun⟩
  have starts : ∀ id body, move = .perform (.enterRepeat id body) → program.BodyAt id body := by
    rintro id body rfl
    cases mirrors with
    | same regular copied => exact copied
    | count inFrames counts =>
        obtain ⟨index, _, same⟩ := Option.map_eq_some_iff.1 counts
        cases same
  refine ⟨outline, ?_, twin.bodies_onStore mirrors, ?_, ?_, ?_,
    twin.bodied.onStore regular.1 starts⟩
  · rw [size_repeats_onStore, size_repeats_onStore, twin.sizes]
  · intro height within id
    by_cases lower : height ≤ left.depth
    · rw [count?_rewind_onStore regular.1 (fun same => absurd same keeps.1) lower within,
        count?_rewind_onStore regular.2 (fun same => absurd same keeps.2) (twin.depth ▸ lower)
          (depth ▸ within)]
      exact twin.counts height lower id
    · -- No more than one frame is pushed at once.
      have raised : (move.onStore left).depth ≤ left.depth + 1 := by
        cases move with
        | perform effect =>
            have pushed := effect.depth_onStore left
            split at pushed
            · exact Nat.le_of_eq pushed
            · exact Nat.le_succ_of_le pushed
        | backtrack =>
            have below := (unwind_eq_rewind (fun _ => Frame.IsPlain.of_isResumable) left).1
            exact Nat.le_succ_of_le below
        | _ => exact Nat.le_succ _
      obtain rfl : height = (move.onStore left).depth := by omega
      have same := twin.count_onStore mirrors (by omega) id
      rw [rewind_depth, depth, rewind_depth]
      exact same
  · exact twin.anchored.onStore regular.1 fun same => absurd same keeps.1
  · exact twin.anchored_right.onStore regular.2 fun same => absurd same keeps.2

end

end Store.Twin

end PatternMachine
