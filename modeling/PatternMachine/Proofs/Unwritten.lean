import PatternMachine.Proofs.Reversal

/-!
# Groups that are never written

A group that no instruction opens or closes is unset in every state of a run, and no frame restores
it (`Store.Idle`).  To clear it changes nothing.
-/

namespace PatternMachine

/-- Effects that neither write a group nor leave a frame that restores it. -/
def Effect.Ignores (group : Nat) : Effect → Prop
  | .push frame => frame.savesNothing = true
  | .openGroup written _ | .closeGroup written _ | .clearGroup written => written ≠ group
  | .setGroup written bounds => written = group → bounds = .unset
  | _ => True

/-- Moves whose effects neither write a group nor leave a frame that restores it. -/
def Move.Ignores (group : Nat) : Move → Prop
  | .perform effect => effect.Ignores group
  | _ => True

/-- A group that is never opened nor closed for good, and is not logged, is not written at all. -/
theorem Attempt.ignores_of_mem_moves {attempt : Attempt} {point : Point} {store : Store}
    {group : Nat} (knows : attempt.program.KnowsLogged) (positive : group ≠ 0)
    (direct : attempt.program.logs group = false)
    (unwritten : ∀ instruction ∈ attempt.program.code, instruction.written? ≠ some group)
    {move : Move} (mem : move ∈ attempt.moves point store) : move.Ignores group := by
  cases move with
  | perform effect =>
      obtain ⟨instruction, fetched, causes | ⟨point', rfl⟩⟩ := exists_causes_of_mem_moves mem
      · have never : attempt.program.logs group ≠ true := by
          rw [direct]
          exact Bool.noConfusion
        cases causes with
        | openGroup =>
            rintro rfl
            exact never (knows _ _ positive (.inl fetched))
        | closeGroup =>
            rintro rfl
            exact never (knows _ _ positive (.inr fetched))
        | clearGroup known logged =>
            rintro rfl
            exact never logged
        | startGroup | stopGroup =>
            rintro rfl
            exact absurd rfl (unwritten _ (Array.mem_of_getElem? fetched))
        | unsetGroup => exact fun _ => rfl
        | _ => first | rfl | trivial
      · rfl
  | _ => trivial

/-- Whether a group is unset, and no frame restores it. -/
structure Store.Idle (group : Nat) (store : Store) : Prop where
  unset : store.registers.boundsOf group = .unset
  frames : store.stack.All fun frame => frame.group? ≠ some group

namespace Store.Idle

variable {store : Store} {group : Nat}

theorem reset (store : Store) (group : Nat) : store.reset.Idle group where
  unset := store.boundsOf_reset group
  frames := .empty

theorem setGroup (idle : store.Idle group) {written : Nat} {bounds : Bounds}
    (ignores : written = group → bounds = .unset) : (store.setGroup written bounds).Idle group where
  unset := by
    rcases store.boundsOf_setGroup_or written bounds group with same | ⟨isOwn, same⟩
    · rw [same, idle.unset]
    · rw [same, ignores isOwn.symm]
  frames := idle.frames

theorem setRepeat (idle : store.Idle group) (id : Nat) (register : RepeatRegister) :
    (store.setRepeat id register).Idle group where
  unset := idle.unset
  frames := idle.frames

theorem push (idle : store.Idle group) {frame : Frame} (other : frame.group? ≠ some group) :
    (store.push frame).Idle group where
  unset := idle.unset
  frames := idle.frames.push other

theorem push_of_none (idle : store.Idle group) (frame : Frame) (restoresNone : frame.group? = none) :
    (store.push frame).Idle group := by
  apply idle.push
  rw [restoresNone]
  exact Option.some_ne_none group ∘ Eq.symm

theorem lower (store : Store) (frame : Frame) (idle : (store.push frame).Idle group) :
    store.Idle group where
  unset := idle.unset
  frames := idle.frames.lower

theorem of_frames {stack : Stack} (idle : store.Idle group)
    (frames : stack.All fun frame => frame.group? ≠ some group) :
    { store with stack : Store }.Idle group where
  unset := idle.unset
  frames := frames

theorem setEntryCount (idle : store.Idle group) (index count : Nat) :
    { store with stack := store.stack.setEntryCount index count : Store }.Idle group := by
  refine idle.of_frames (idle.frames.setEntryCount (fun frame count other => ?_) index count)
  rwa [(Frame.Becomes.withCount frame count).group?_eq]

theorem restore (store : Store) (frame : Frame) (idle : (store.push frame).Idle group) :
    (store.restore frame).Idle group := by
  have other := idle.frames.top
  have below := idle.lower
  cases frame with
  | groupStart written position saved | groupEnd written position saved =>
      exact below.setGroup fun same => absurd (congrArg some same) other
  | entryCount index savedCount => exact below.setEntryCount index savedCount
  | repeatEntry id | registerCount id => exact below.setRepeat id _
  | _ => exact below

theorem unwind (idle : store.Idle group) (test : Frame → Bool) :
    (store.unwind test).2.Idle group :=
  unwind_invariant test (fun store frame _ => lower store frame) restore idle

theorem onStore (idle : store.Idle group) {move : Move} (ignores : move.Ignores group) :
    (move.onStore store).Idle group := by
  cases move with
  | perform effect =>
      cases effect with
      | note event => exact idle
      | push frame =>
          have nothing : frame.savesNothing = true := ignores
          apply idle.push_of_none frame
          cases frame <;> first | rfl | cases nothing
      | openGroup written position | closeGroup written position | clearGroup written =>
          have other : written ≠ group := ignores
          refine (idle.push ?_).setGroup fun same => absurd same other
          exact fun same => other (Option.some.inj same)
      | setGroup written bounds => exact idle.setGroup ignores
      | enterRepeat id body =>
          exact (idle.push_of_none (.repeatEntry id 0 body _ _) rfl).setRepeat id _
      | countInEntry index =>
          exact (idle.setEntryCount index _).push_of_none (.entryCount index _) rfl
      | countInRegister id =>
          exact (idle.push_of_none (.registerCount id _) rfl).setRepeat id _
      | discard => exact discard_invariant lower idle
      | commit mark =>
          refine idle.of_frames (idle.frames.commit (fun frame other => ?_) ?_ mark)
          · rwa [(Frame.Becomes.settle frame).group?_eq]
          · exact Option.some_ne_none group ∘ Eq.symm
      | unwindTo mark => exact idle.unwind _
  | backtrack => exact idle.unwind _
  | _ => exact idle

end Store.Idle

/-- A group that is never opened nor closed for good, and is not logged, is idle all along a run. -/
theorem Search.idle_of_mem_trail {setting : Setting} {store : Store} {dispatches group : Nat}
    (knows : setting.program.KnowsLogged) (positive : group ≠ 0)
    (direct : setting.program.logs group = false)
    (unwritten : ∀ instruction ∈ setting.program.code, instruction.written? ≠ some group) :
    ∀ visit ∈ trail setting dispatches (start setting store),
      visit.before.store.Idle group ∧ visit.after.store.Idle group := by
  intro visit mem
  have along := @trail_invariant setting dispatches (start setting store)
    (fun search => search.store.Idle group) (Move.Ignores group) (.reset store group)
    (fun _ _ _ mem => Attempt.ignores_of_mem_moves knows positive direct unwritten mem) ?_ visit mem
  · exact ⟨along.1, along.2.2⟩
  · intro visit mem idle ignores
    rw [store_of_mem_trail mem]
    exact idle.onStore ignores

/-- So it is where the run has come to. -/
theorem Search.idle_of_advance {setting : Setting} {store : Store} {search : Search}
    {dispatches group : Nat} (knows : setting.program.KnowsLogged) (positive : group ≠ 0)
    (direct : setting.program.logs group = false)
    (unwritten : ∀ instruction ∈ setting.program.code, instruction.written? ≠ some group)
    (reaches : (start setting store).advance setting dispatches = .ok search) :
    search.store.Idle group := by
  refine @store_invariant setting dispatches _ (fun store => store.Idle group) search reaches
    (.reset store group) ?_
  intro visit mem _
  rw [← store_of_mem_trail mem]
  exact (idle_of_mem_trail knows positive direct unwritten visit mem).2

end PatternMachine
