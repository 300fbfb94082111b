import PatternMachine.Proofs.Counting.Runs

/-!
# Orderly stores

In a program that logs all its groups and throws nothing away, every store of a run refers only to
frames that are there, however far it is taken back, and every repeat that is active is so in an
entry of its own (`Store.Orderly`).
-/

namespace PatternMachine

/-- Whether a program throws nothing away, and logs every opening and closing of a group. -/
structure Program.Restorable (program : Program) : Prop where
  knows : program.KnowsLogged
  logsAll : program.LogsAll
  noPop : .pop ∉ program.code

/-- What the moves of such a program have in common. -/
structure Move.Lawful (program : Program) (move : Move) : Prop where
  regular : move.Regular program
  recoverable : move.Recoverable program
  starts : ∀ id body, move = .perform (.enterRepeat id body) → program.BodyAt id body
  keeps : move ≠ .perform .discard

/-- To leave a choice is lawful. -/
theorem Move.lawful_choice (program : Program) (point : Point) :
    (perform (.push (.choice point))).Lawful program where
  regular := rfl
  recoverable := rfl
  starts := by
    rintro id body ⟨⟩
  keeps := by
    rintro ⟨⟩

theorem Attempt.lawful_of_mem_moves {attempt : Attempt} {point : Point} {store : Store}
    (restorable : attempt.program.Restorable) {move : Move}
    (mem : move ∈ attempt.moves point store) : move.Lawful attempt.program where
  regular := regular_of_mem_moves mem
  recoverable := recoverable_of_mem_moves restorable.knows restorable.logsAll mem
  starts := by
    rintro id body rfl
    exact bodyAt_of_enterRepeat mem
  keeps := by
    rintro rfl
    obtain ⟨instruction, fetched, causes | ⟨point', isChoice⟩⟩ := exists_causes_of_mem_moves mem
    · cases causes with
      | discard => exact restorable.noPop (Array.mem_of_getElem? fetched)
    · cases isChoice

namespace Store

variable {program : Program} {store : Store}

/-! ### References to frames -/

theorem Grounded.of_record (grounded : store.Grounded) {other : Store}
    (same : other.record = store.record) : other.Grounded := by
  have depth : other.depth = store.depth := by
    rw [← other.depth_record, same, depth_record]
  have groups : other.registers.groups = store.registers.groups :=
    congrArg (fun store => store.registers.groups) same
  intro group index refers
  rw [Registers.boundsOf, groups] at refers
  rw [depth]
  exact grounded group index refers

/-- Bounds that refer to frames that are there may be written. -/
theorem Grounded.write (grounded : store.Grounded) (group : Nat) {bounds : Bounds}
    (refers : ∀ index, bounds.start = .inFrame index ∨ bounds.stop = .inFrame index →
      index < store.depth) : (store.setGroup group bounds).Grounded := by
  intro other index isIndex
  rcases store.boundsOf_setGroup_or group bounds other with same | ⟨_, same⟩
  · rw [same] at isIndex
    exact grounded other index isIndex
  · rw [same] at isIndex
    exact refers index isIndex

/-- An effect that pushes a frame lets registers refer to no frame above it. -/
theorem Grounded.onStore (grounded : store.Grounded) {effect : Effect}
    (room : effect.needsRoom = true) : (effect.onStore store).Grounded := by
  have onTop : ∀ {index : Nat} (frame : Frame), store.depth = index →
      index < (store.push frame).depth := by
    rintro _ frame rfl
    rw [depth_push]
    exact Nat.lt_succ_self _
  have counted : ∀ {stack : Stack}, stack.depth = store.depth + 1 →
      ({ store with stack } : Store).Grounded := by
    intro stack depth group index refers
    have inside := grounded group index refers
    exact Nat.lt_of_lt_of_eq (Nat.lt_succ_of_lt inside) depth.symm
  cases effect with
  | push frame => exact grounded.push frame
  | openGroup group position =>
      refine (grounded.push _).write group fun index refers => ?_
      rcases refers with refers | refers
      · exact onTop _ (Bound.inFrame.inj refers)
      · cases refers
  | closeGroup group position =>
      refine (grounded.push _).write group fun index refers => ?_
      rcases refers with refers | refers
      · exact grounded.push _ group index (.inl refers)
      · exact onTop _ (Bound.inFrame.inj refers)
  | clearGroup group =>
      refine (grounded.push _).write group fun index refers => ?_
      rcases refers with refers | refers <;> cases refers
  | enterRepeat id body | countInRegister id => exact grounded.push _
  | countInEntry index =>
      refine counted ?_
      rw [Stack.depth_push, Stack.depth_setEntryCount]
      rfl
  | note event | setGroup group bounds | discard | commit mark | unwindTo mark => cases room

/-! ### Orderly stores -/

/-- What every store of a run has, if the program throws nothing away and logs all its groups. -/
structure Orderly (program : Program) (store : Store) : Prop where
  anchored : store.Anchored program
  bodied : store.Bodied program
  logged : store.Logged program
  grounds : ∀ depth ≤ store.depth, (store.rewind depth).Grounded

namespace Orderly

theorem grounded (orderly : store.Orderly program) : store.Grounded := by
  have whole := orderly.grounds store.depth (Nat.le_refl _)
  rwa [rewind_depth] at whole

theorem reset (store : Store) : store.reset.Orderly program where
  anchored := .reset store
  bodied := .reset store
  logged := .reset store
  grounds := by
    intro depth within
    obtain rfl : depth = 0 := Nat.le_zero.1 within
    intro group index refers
    have unset : (store.reset.rewind 0).registers.boundsOf group = .unset :=
      store.boundsOf_reset group
    rw [unset] at refers
    rcases refers with refers | refers <;> cases refers

/-- Lawful moves keep stores orderly. -/
theorem onStore (orderly : store.Orderly program) {move : Move} (lawful : move.Lawful program) :
    (move.onStore store).Orderly program where
  anchored := orderly.anchored.onStore lawful.regular fun same => absurd same lawful.keeps
  bodied := orderly.bodied.onStore lawful.regular lawful.starts
  logged := Move.logged_onStore orderly.logged lawful.recoverable
  grounds := by
    intro depth within
    by_cases lower : depth ≤ store.depth
    · exact (orderly.grounds depth lower).of_record
        (Move.record_rewind_onStore lawful.recoverable orderly.logged
          (fun same => absurd same lawful.keeps) lower within)
    · -- A frame was pushed, and the store is not taken back below it.
      cases move with
      | perform effect =>
          have deep := effect.depth_onStore store
          have onTop : depth ≤ (effect.onStore store).depth := within
          cases room : effect.needsRoom with
          | false =>
              rw [if_neg (by rw [room]; exact Bool.noConfusion)] at deep
              omega
          | true =>
              rw [if_pos room] at deep
              obtain rfl : depth = (effect.onStore store).depth := by omega
              have whole := (effect.onStore store).rewind_depth
              rw [Move.onStore, whole]
              exact orderly.grounded.onStore room
      | backtrack =>
          have below : store.backtrack.2.depth ≤ store.depth :=
            (unwind_eq_rewind (fun _ => Frame.IsPlain.of_isResumable) store).1
          exact absurd (Nat.le_trans within below) lower
      | _ => exact absurd within lower

end Orderly

end Store

namespace Search

variable {setting : Setting} {search next : Search}

/-- A dispatch keeps stores orderly. -/
theorem orderly_of_step (restorable : setting.program.Restorable)
    (orderly : search.store.Orderly setting.program) (stepped : search.step setting = .ok next) :
    next.store.Orderly setting.program := by
  have lawful : ∀ move ∈ setting.moves search.point search.store,
      move.Lawful setting.program := fun move mem => Attempt.lawful_of_mem_moves restorable mem
  rw [step_eq_play] at stepped
  rw [(Move.of_play stepped).1]
  revert lawful
  generalize setting.moves search.point search.store = moves
  intro lawful
  clear stepped
  generalize search.store = store at orderly
  induction moves generalizing store with
  | nil => exact orderly
  | cons move moves ih =>
      exact ih (fun other mem => lawful other (List.mem_cons_of_mem move mem)) _
        (orderly.onStore (lawful move List.mem_cons_self))

/-- A failure keeps stores orderly. -/
theorem orderly_of_fail (orderly : search.store.Orderly setting.program)
    (failed : search.fail setting = .ok next) : next.store.Orderly setting.program := by
  rw [← Move.play_failing] at failed
  rw [(Move.of_play failed).1]
  have lawful : Move.backtrack.Lawful setting.program :=
    ⟨trivial, trivial, nofun, Move.noConfusion⟩
  exact orderly.onStore lawful

/-- Every state of a run is orderly. -/
theorem orderly_of_advance (restorable : setting.program.Restorable) {store : Store}
    {dispatches : Nat} (reaches : (start setting store).advance setting dispatches = .ok search) :
    search.store.Orderly setting.program := by
  refine @store_invariant setting dispatches _ (Store.Orderly setting.program) search reaches
    (.reset store) ?_
  intro visit mem orderly
  obtain ⟨_, _, made⟩ := exists_mem_dispatched mem
  exact orderly.onStore (Attempt.lawful_of_mem_moves restorable made)

end Search

end PatternMachine
