import PatternMachine.Proofs.Entries

/-!
# The path of a run

A search tries much that it goes back behind later.  What is left of it is the path of the run
(`Search.path`).  The stack is a log of the path: a frame that saves what a repeat has counted was
there before, or was pushed by an instruction of a repeat on the path
(`Search.exists_mem_path_of_counts`).
-/

namespace PatternMachine

/-! ### Dispatches that the run has not gone back behind -/

namespace Search

/-- Whether a run never goes back behind the state that it starts from. -/
def OnPath (setting : Setting) (dispatches : Nat) (search : Search) : Prop :=
  ∀ visit ∈ trail setting dispatches search, search.store.depth ≤ visit.after.store.depth

instance (setting : Setting) (dispatches : Nat) (search : Search) :
    Decidable (search.OnPath setting dispatches) :=
  inferInstanceAs (Decidable (∀ visit ∈ trail setting dispatches search,
    search.store.depth ≤ visit.after.store.depth))

/-- The states in which a run dispatches and behind which it does not go back any more, for at most
a number of dispatches. -/
def path (setting : Setting) : (dispatches : Nat) → Search → List Search
  | 0, _ => []
  | dispatches + 1, search =>
      let rest := match search.step setting with
        | .ok next => path setting dispatches next
        | .error _ => []
      if search.OnPath setting (dispatches + 1) then search :: rest else rest

variable {setting : Setting} {dispatches : Nat} {search next : Search}

theorem mem_path_self (onPath : search.OnPath setting (dispatches + 1)) :
    search ∈ path setting (dispatches + 1) search := by
  rw [path, if_pos onPath]
  exact List.mem_cons_self

theorem path_subset_of_step (stepped : search.step setting = .ok next) :
    path setting dispatches next ⊆ path setting (dispatches + 1) search := by
  rw [path, stepped]
  dsimp only
  split
  · exact List.subset_cons_self _ _
  · exact List.Subset.refl _

end Search

/-! ### Frames that count -/

/-- The repeat that an instruction enters or counts. -/
def Instruction.repeat? : Instruction → Option Nat
  | .repeatStart id _ _ | .repeatNext id _ _ => some id
  | _ => none

/-- The repeat that the instruction at an address enters or counts. -/
def Program.repeatAt? (program : Program) (address : Nat) : Option Nat :=
  program.code[address]?.bind Instruction.repeat?

/-- Whether a frame saves what a repeat has counted, in its register or in the entry at an index. -/
def Frame.Counts (id entry : Nat) : Frame → Prop
  | .repeatEntry other _ _ _ _ | .registerCount other _ => other = id
  | .entryCount index _ => index = entry
  | _ => False

theorem Frame.Becomes.counts {frame later : Frame} {id entry : Nat} (becomes : frame.Becomes later)
    (counts : later.Counts id entry) : frame.Counts id entry := by
  cases becomes with
  | same | counted => exact counts
  | givenUp => exact counts.elim

namespace Attempt

variable {attempt : Attempt} {point : Point} {store : Store} {instruction : Instruction}
  {effect : Effect} {id entry : Nat}

/-- Only the instructions of a repeat push frames that save what it has counted, and those of
another repeat if that is active in the entry. -/
theorem Causes.of_counts (causes : attempt.Causes point store instruction effect)
    {current : Store} {frame : Frame} (pushes : effect.frame? current = some frame)
    (counts : frame.Counts id entry) :
    ∃ other, instruction.repeat? = some other ∧
      (other = id ∨ store.active other = some entry) := by
  cases causes with
  | enterRepeat | countInRegister =>
      cases pushes
      exact ⟨_, rfl, .inl counts⟩
  | countInEntry active =>
      cases pushes
      obtain rfl : _ = entry := counts
      exact ⟨_, rfl, .inr active⟩
  | _ =>
      cases pushes
      try exact counts.elim

/-- Whatever a dispatch does that saves what a repeat has counted, it is the instruction of a repeat
that does so. -/
theorem repeatAt?_of_counts (mem : .perform effect ∈ attempt.moves point store) {current : Store}
    {frame : Frame} (pushes : effect.frame? current = some frame)
    (counts : frame.Counts id entry) :
    ∃ other, attempt.program.repeatAt? point.address = some other ∧
      (other = id ∨ store.active other = some entry) := by
  obtain ⟨instruction, fetched, causes | ⟨point', rfl⟩⟩ := exists_causes_of_mem_moves mem
  · obtain ⟨other, isRepeat, concerns⟩ := causes.of_counts pushes counts
    exact ⟨other, Option.bind_eq_some_iff.2 ⟨instruction, fetched, isRepeat⟩, concerns⟩
  · cases pushes
    exact counts.elim

end Attempt

/-- Whether a move takes no frame off. -/
def Move.Raises (move : Move) : Prop :=
  ∀ store : Store, store.depth ≤ (move.onStore store).depth

theorem Effect.raises_of_needsRoom {effect : Effect} (room : effect.needsRoom = true) :
    (Move.perform effect).Raises := by
  intro store
  have pushed := effect.depth_onStore store
  rw [if_pos room] at pushed
  rw [Move.onStore, pushed]
  exact Nat.le_succ _

theorem Plan.exit_of_repeat {attempt : Attempt} {point : Point} {store : Store}
    {instruction : Instruction} {id : Nat} (isRepeat : instruction.repeat? = some id) :
    (∃ target, (ofInstruction attempt point store instruction).exit = .goto target) ∨
      ∃ reason, (ofInstruction attempt point store instruction).exit = .corrupt reason := by
  cases instruction with
  | repeatStart id offset greedy =>
      simp only [ofInstruction, repeatStart, branch]
      repeat' split
      all_goals first | exact .inl ⟨_, rfl⟩ | exact .inr ⟨_, rfl⟩
  | repeatNext id greedy direct =>
      simp only [ofInstruction, repeatNext, afterIteration]
      repeat' split
      all_goals first | exact .inl ⟨_, rfl⟩ | exact .inr ⟨_, rfl⟩
  | _ => cases isRepeat

/-- The instructions of a repeat take no frame off. -/
theorem Attempt.raises_of_repeat {attempt : Attempt} {point : Point} {store : Store} {id : Nat}
    (isRepeat : attempt.program.repeatAt? point.address = some id) {move : Move}
    (mem : move ∈ attempt.moves point store) : move.Raises := by
  have silent : ∀ move : Move, (∀ store, move.onStore store = store) → move.Raises := by
    intro move same store
    exact Nat.le_of_eq (congrArg Store.depth (same store)).symm
  obtain ⟨instruction, fetched, isRepeat⟩ := Option.bind_eq_some_iff.1 isRepeat
  rcases of_mem_moves mem with rfl | ⟨instruction', fetched', made⟩
  · exact silent _ fun _ => rfl
  obtain rfl : instruction = instruction' := by
    rw [fetched] at fetched'
    exact Option.some.inj fetched'
  rcases made with rfl | ⟨event, rfl⟩ | ⟨effect, effectMem, rfl⟩ | exitMem
  · exact silent _ fun _ => rfl
  · exact silent _ fun _ => rfl
  · have causes := causes_of_mem_effects effectMem
    cases causes with
    | report => exact silent _ fun _ => rfl
    | choice | enterRepeat | countInEntry | countInRegister => exact Effect.raises_of_needsRoom rfl
    | _ => cases isRepeat
  · rcases Plan.exit_of_repeat isRepeat with ⟨target, exit⟩ | ⟨reason, exit⟩
    · rw [exit] at exitMem
      obtain rfl := List.mem_singleton.1 exitMem
      exact silent _ fun _ => rfl
    · rw [exit] at exitMem
      obtain rfl := List.mem_singleton.1 exitMem
      exact silent _ fun _ => rfl

/-! ### Where frames that count come from -/

namespace Move

variable {setting : Setting} {search last : Search} {moves : List Move}

/-- Moves that take no frame off lead to no lower stack. -/
theorem le_depth_of_raises (raises : ∀ move ∈ moves, move.Raises) :
    ∀ visit ∈ trail setting search moves, search.store.depth ≤ visit.before.store.depth ∧
      search.store.depth ≤ visit.after.store.depth := by
  obtain ⟨last, leads, _⟩ := leads_trail setting search moves
  have keeps : ∀ visit ∈ trail setting search moves,
      search.store.depth ≤ visit.before.store.depth →
        search.store.depth ≤ visit.after.store.depth := by
    intro visit mem before
    obtain ⟨moveMem, attempted⟩ := of_mem_trail mem
    rw [store_of_attempt attempted]
    exact Nat.le_trans before (raises visit.move moveMem visit.before.store)
  exact (@Visit.Leads.invariant (fun state => search.store.depth ≤ state.store.depth) search last _
    leads (Nat.le_refl _) keeps).1

/-- A frame on the stack was there before all moves and stayed, or one of them has pushed it. -/
theorem get?_of_play {program : Program} (regular : ∀ move ∈ moves, move.Regular program)
    (played : play setting search moves = .ok last) {index : Nat} {found : Frame}
    (read : last.store.stack.get? index = some found) :
    (∃ frame, search.store.stack.get? index = some frame ∧ frame.Becomes found ∧
      ∀ visit ∈ trail setting search moves, index < visit.after.store.depth) ∨
    ∃ visit ∈ trail setting search moves, visit.before.store.depth = index ∧
      ∃ effect frame, visit.move = .perform effect ∧
        effect.frame? visit.before.store = some frame ∧ frame.Becomes found := by
  refine @play_invariant setting search
    (fun state moves => (∀ move ∈ moves, move.Regular program) →
      (∃ frame, state.store.stack.get? index = some frame ∧ frame.Becomes found ∧
        ∀ visit ∈ trail setting state moves, index < visit.after.store.depth) ∨
      ∃ visit ∈ trail setting state moves, visit.before.store.depth = index ∧
        ∃ effect frame, visit.move = .perform effect ∧
          effect.frame? visit.before.store = some frame ∧ frame.Becomes found)
    last moves (fun _ => .inl ⟨found, read, .same, by simp [trail]⟩) ?_ played regular
  intro state next move moves attempted behind regular
  rw [trail, attempted]
  rcases behind fun other mem => regular other (List.mem_cons_of_mem _ mem) with
    ⟨frame, readFrame, becomes, stays⟩ | ⟨visit, mem, pushed⟩
  · have inside := Stack.lt_depth_of_get? readFrame
    rw [store_of_attempt attempted] at readFrame
    rcases get?_onStore (regular move List.mem_cons_self) readFrame with
      ⟨original, readOriginal, before⟩ | ⟨atTop, effect, performs, pushes⟩
    · refine .inl ⟨original, readOriginal, before.trans becomes, ?_⟩
      intro visit mem
      rcases List.mem_cons.1 mem with rfl | mem
      · exact inside
      · exact stays visit mem
    · exact .inr ⟨_, List.mem_cons_self, atTop.symm, effect, frame, performs, pushes, becomes⟩
  · exact .inr ⟨visit, List.mem_cons_of_mem _ mem, pushed⟩

/-- A frame that counts was there before all moves and stayed, or one of them has pushed it. -/
theorem counts_of_play {program : Program} (regular : ∀ move ∈ moves, move.Regular program)
    (played : play setting search moves = .ok last) {index : Nat} {found : Frame}
    (read : last.store.stack.get? index = some found) {id entry : Nat}
    (counts : found.Counts id entry) :
    (∃ frame, search.store.stack.get? index = some frame ∧ frame.Counts id entry ∧
      ∀ visit ∈ trail setting search moves, index < visit.after.store.depth) ∨
    ∃ visit ∈ trail setting search moves, visit.before.store.depth = index ∧
      ∃ effect frame, visit.move = .perform effect ∧
        effect.frame? visit.before.store = some frame ∧ frame.Counts id entry := by
  rcases get?_of_play regular played read with
    ⟨frame, readFrame, becomes, stays⟩ | ⟨visit, mem, atTop, effect, frame, performs, pushes,
      becomes⟩
  · exact .inl ⟨frame, readFrame, becomes.counts counts, stays⟩
  · exact .inr ⟨visit, mem, atTop, effect, frame, performs, pushes, becomes.counts counts⟩

end Move

namespace Search

variable {setting : Setting} {search next : Search}

/-- A frame that counts was there before a dispatch and stayed, or the dispatch is that of a repeat
and has pushed it on top of all there was. -/
theorem counts_of_step (stepped : search.step setting = .ok next) {index : Nat} {found : Frame}
    (read : next.store.stack.get? index = some found) {id entry : Nat}
    (counts : found.Counts id entry) :
    (∃ frame, search.store.stack.get? index = some frame ∧ frame.Counts id entry ∧
      ∀ visit ∈ Move.trail setting search (setting.moves search.point search.store),
        index < visit.after.store.depth) ∨
    search.store.depth ≤ index ∧
      (∀ visit ∈ Move.trail setting search (setting.moves search.point search.store),
        search.store.depth ≤ visit.after.store.depth) ∧
      ∃ other, setting.program.repeatAt? search.point.address = some other ∧
        (other = id ∨ search.store.active other = some entry) := by
  rw [step_eq_play] at stepped
  rcases Move.counts_of_play (fun _ => Attempt.regular_of_mem_moves) stepped read counts with
    old | ⟨visit, mem, atTop, effect, frame, performs, pushes, counts⟩
  · exact .inl old
  · right
    have made : .perform effect ∈ setting.moves search.point search.store := by
      rw [← performs]
      exact (Move.of_mem_trail mem).1
    obtain ⟨other, atAddress, concerns⟩ := Attempt.repeatAt?_of_counts made pushes counts
    have raises : ∀ move ∈ setting.moves search.point search.store, move.Raises :=
      fun _ => Attempt.raises_of_repeat atAddress
    have rises := @Move.le_depth_of_raises setting search _ raises
    refine ⟨?_, fun visit mem => (rises visit mem).2, other, atAddress, concerns⟩
    rw [← atTop]
    exact (rises visit mem).1

/-- A frame that counts was there all along, or it was pushed on the path, by a dispatch of its
repeat or of one that was active in the same entry. -/
theorem exists_mem_path_of_counts {dispatches : Nat} {first last : Search}
    (reaches : first.advance setting dispatches = .ok last) {index : Nat} {found : Frame}
    (read : last.store.stack.get? index = some found) {id entry : Nat}
    (counts : found.Counts id entry) :
    (∃ frame, first.store.stack.get? index = some frame ∧ frame.Counts id entry ∧
      ∀ visit ∈ trail setting dispatches first, index < visit.after.store.depth) ∨
    ∃ passed state, passed < dispatches ∧ first.advance setting passed = .ok state ∧
      state ∈ path setting dispatches first ∧
        ∃ other, setting.program.repeatAt? state.point.address = some other ∧
          (other = id ∨ state.store.active other = some entry) := by
  induction dispatches generalizing first with
  | zero =>
      cases reaches
      exact .inl ⟨found, read, counts, by simp [trail]⟩
  | succ dispatches ih =>
      rw [advance] at reaches
      cases stepped : first.step setting with
      | error ending =>
          rw [stepped] at reaches
          cases reaches
      | ok next =>
          rw [stepped] at reaches
          have trailed : trail setting (dispatches + 1) first =
              Move.trail setting first (setting.moves first.point first.store) ++
                trail setting dispatches next := by
            rw [trail, stepped]
          rcases ih reaches with ⟨frame, readFrame, counts, stays⟩ |
            ⟨passed, state, less, reached, onPath, repeats⟩
          · rcases counts_of_step stepped readFrame counts with
              ⟨original, readOriginal, counts, stays'⟩ | ⟨above, rises, repeats⟩
            · refine .inl ⟨original, readOriginal, counts, ?_⟩
              intro visit mem
              rw [trailed] at mem
              rcases List.mem_append.1 mem with mem | mem
              · exact stays' visit mem
              · exact stays visit mem
            · refine .inr ⟨0, first, Nat.zero_lt_succ _, rfl, mem_path_self ?_, repeats⟩
              intro visit mem
              rw [trailed] at mem
              rcases List.mem_append.1 mem with mem | mem
              · exact rises visit mem
              · exact Nat.le_of_lt (Nat.lt_of_le_of_lt above (stays visit mem))
          · refine .inr ⟨passed + 1, state, Nat.succ_lt_succ less, ?_,
              path_subset_of_step stepped onPath, repeats⟩
            rw [advance, stepped]
            exact reached

end Search

end PatternMachine
