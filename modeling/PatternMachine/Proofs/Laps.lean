import PatternMachine.Proofs.Counting.Runs
import PatternMachine.Proofs.Leaving

/-!
# Laps of a repeat

On the route since a repeat was started, its iterations are counted one by one, as long as the
repeat is neither started again nor left (`Search.Laps`).  When it is left, be it at once or by way
of a choice, as many iterations were done as its range allows
(`Search.repeats_are_left_within_range`).
-/

namespace PatternMachine

/-! ### Counts while a dispatch climbs -/

/-- To throw a choice away changes no count. -/
theorem Store.count?_discard {program : Program} {store : Store} (anchored : store.Anchored program)
    (onTop : store.topIsChoice = true) (id : Nat) (direct : Bool) :
    store.discard.2.count? id direct = store.count? id direct := by
  obtain ⟨lowered, point, rfl⟩ := exists_push_of_topIsChoice onTop
  rw [discard_push]
  have pushed : (lowered.push (.choice point)).count? id direct = lowered.count? id direct :=
    count?_of_push (anchored.lower rfl) rfl rfl
  exact pushed.symm

namespace Move

variable {setting : Setting} {search last : Search} {moves : List Move} {id : Nat}

theorem anchored_of_climb (made : ∀ move ∈ moves, move ∈ setting.moves search.point search.store)
    (climbs : ∀ move ∈ moves, move.Climbs) (played : play setting search moves = .ok last)
    (anchored : search.store.Anchored setting.program) : last.store.Anchored setting.program := by
  obtain ⟨_, leads, ends⟩ := leads_trail setting search moves
  obtain rfl := ends last played
  refine (@Visit.Leads.invariant (fun state => state.store.Anchored setting.program) search last _
    leads anchored ?_).2
  intro visit mem before
  obtain ⟨moveMem, attempted⟩ := of_mem_trail mem
  rw [store_of_attempt attempted]
  exact before.onStore (Attempt.regular_of_mem_moves (made _ moveMem))
    fun isDiscard => absurd isDiscard (climbs _ moveMem).ne_discard

/-- While a dispatch of no instruction of a repeat climbs, the count of the repeat stays. -/
theorem count?_of_climb (made : ∀ move ∈ moves, move ∈ setting.moves search.point search.store)
    (climbs : ∀ move ∈ moves, move.Climbs) (played : play setting search moves = .ok last)
    (anchored : search.store.Anchored setting.program)
    (other : setting.program.repeatAt? search.point.address ≠ some id) {entry : Nat}
    (active : search.store.active id = some entry) (direct : Bool) :
    last.store.count? id direct = search.store.count? id direct := by
  have rises := @le_depth_of_raises setting search moves fun move mem => (climbs move mem).1
  obtain ⟨_, leads, ends⟩ := leads_trail setting search moves
  obtain rfl := ends last played
  -- Going back below the dispatch would find the same repeats all along.
  obtain ⟨within, same⟩ : search.store.depth ≤ last.store.depth ∧
      (last.store.rewind search.store.depth).record.forgetGroups =
        search.store.record.forgetGroups := by
    refine (@Visit.Leads.invariant (fun state => search.store.depth ≤ state.store.depth ∧
      (state.store.rewind search.store.depth).record.forgetGroups =
        search.store.record.forgetGroups) search last _ leads ?_ ?_).2
    · exact ⟨Nat.le_refl _, by rw [Store.rewind_depth]⟩
    · rintro visit mem ⟨within, same⟩
      obtain ⟨moveMem, attempted⟩ := of_mem_trail mem
      have within' := (rises visit mem).2
      rw [store_of_attempt attempted] at within' ⊢
      refine ⟨within', ?_⟩
      rw [record_forgetGroups_rewind_onStore (Attempt.regular_of_mem_moves (made _ moveMem))
        (fun isDiscard => absurd isDiscard (climbs _ moveMem).ne_discard) within within', same]
  have enters := anchored.active id entry active
  have apart : ∀ index frame, search.store.depth ≤ index →
      last.store.stack.get? index = some frame → ¬ frame.Counts id entry := by
    intro index frame above read counts
    rcases counts_of_play (fun _ mem => Attempt.regular_of_mem_moves (made _ mem)) played read
      counts with ⟨original, readOriginal, _⟩ | ⟨visit, mem, _, effect, pushed, isEffect, pushes,
        counts⟩
    · exact absurd (Stack.lt_depth_of_get? readOriginal) (Nat.not_lt.2 above)
    · have moveMem := made _ (of_mem_trail mem).1
      rw [isEffect] at moveMem
      obtain ⟨counted, isRepeat, rfl | isActive⟩ :=
        Attempt.repeatAt?_of_counts moveMem pushes counts
      · exact other isRepeat
      · exact other ((enters.unique (anchored.active counted entry isActive)) ▸ isRepeat)
  obtain ⟨sameRegister, sameEntry⟩ := Store.rewind_of_not_counts within enters.lt_depth apart
  have recorded : ∀ store : Store,
      store.record.forgetGroups.registers.repeatOf id = (store.registers.repeatOf id).record :=
    fun store => store.repeatOf_record id
  have isActive : last.store.active id = some entry := by
    rw [Store.active, ← sameRegister, ← active, Store.active]
    have register := recorded (last.store.rewind search.store.depth)
    rw [same, recorded] at register
    have sameEntry := congrArg RepeatRegister.entry register
    exact sameEntry.symm
  rw [← search.store.count?_record, ← same, Store.count?_record]
  refine (Store.count?_congr (congrArg _ sameRegister) fun index isIndex => ?_).symm
  obtain rfl : entry = index := Option.some.inj (isActive.symm.trans isIndex)
  rw [Stack.entry?, Stack.entry?, sameEntry]

end Move

/-! ### What the instructions of a repeat leave -/

/-- The start of a repeat enters the repeat, and leaves a choice unless iterations are required. -/
theorem Plan.repeatStart_cases (attempt : Attempt) (point : Point) (id : Nat) (offset : Int)
    (greedy : Bool) :
    (∃ reason, repeatStart attempt point id offset greedy = .corrupt reason) ∨
      ∃ range, attempt.program.repeatRanges[id]? = some range ∧
        (repeatStart attempt point id offset greedy =
            .goto point.next point.cursor [.enterRepeat id point.next] ∨
          range.lower = 0 ∧ ∃ first second, repeatStart attempt point id offset greedy =
            .goto first point.cursor [.enterRepeat id point.next, choiceAt point second]) := by
  unfold repeatStart branch
  cases ranged : attempt.program.repeatRanges[id]? with
  | none => exact .inl ⟨_, rfl⟩
  | some range =>
      dsimp only
      split
      · refine .inr ⟨range, rfl, ?_⟩
        split
        · next none_required =>
            split
            · exact .inr ⟨none_required, _, _, rfl⟩
            · exact .inr ⟨none_required, _, _, rfl⟩
        · exact .inl rfl
      · exact .inl ⟨_, rfl⟩

namespace Search

variable {setting : Setting} {search next : Search} {point : Point} {left : Store}
  {instruction : Instruction} {id : Nat} {direct : Bool}

/-- A dispatch of no instruction of a repeat leaves its count as it was. -/
theorem Leaves.count?_of_other (leaves : search.Leaves setting point left)
    (discards : ∀ visit ∈ Move.trail setting search (setting.moves search.point search.store),
      visit.DiscardsChoice)
    (anchored : search.store.Anchored setting.program)
    (other : setting.program.repeatAt? search.point.address ≠ some id) {entry : Nat}
    (active : search.store.active id = some entry) (direct : Bool) :
    left.count? id direct = search.store.count? id direct := by
  obtain ⟨moves, last, climb, played, last_is⟩ := leaves.exists_climb discards
  have made : ∀ move ∈ moves, move ∈ setting.moves search.point search.store :=
    fun move mem => (climb move mem).1
  have climbs : ∀ move ∈ moves, move.Climbs := fun move mem => (climb move mem).2
  have counted := Move.count?_of_climb made climbs played anchored other active direct
  rcases last_is with rfl | ⟨onTop, rfl⟩
  · exact counted
  · have lastAnchored := Move.anchored_of_climb made climbs played anchored
    rw [Store.count?_discard lastAnchored onTop, counted]

/-- A repeat that is started has counted nothing yet, and it is left at once only if no iteration is
required. -/
theorem Leaves.of_repeatStart {offset : Int} {greedy : Bool}
    (leaves : search.Leaves setting point left)
    (isStart :
      setting.program.code[search.point.address]? = some (.repeatStart id offset greedy)) :
    ∃ range, setting.program.repeatRanges[id]? = some range ∧
      (point.address = search.point.next ∨ range.lower = 0) ∧
        (id < search.store.registers.repeats.size → left.count? id direct = some 0) := by
  have plan : Plan.ofInstruction setting.toAttempt search.point search.store
      (.repeatStart id offset greedy) =
        Plan.repeatStart setting.toAttempt search.point id offset greedy := rfl
  rcases Plan.repeatStart_cases setting.toAttempt search.point id offset greedy with
    ⟨reason, corrupt⟩ | ⟨range, ranged, goes | ⟨none_required, first, second, goes⟩⟩
  · exact absurd (plan.trans corrupt) (leaves.not_corrupt isStart reason)
  · refine ⟨range, ranged, ?_⟩
    rcases leaves.of_goto_one isStart (plan.trans goes) with ⟨rfl, rfl⟩ | ⟨frame, same, _⟩
    · exact ⟨.inl rfl, fun known => Store.count?_enterRepeat known _⟩
    · cases same
  · refine ⟨range, ranged, .inr none_required, fun known => ?_⟩
    rcases leaves.of_goto_two isStart (plan.trans goes) with
      ⟨rfl, rfl⟩ | ⟨frame, same, _⟩ | ⟨frame, _, _, rfl⟩
    · have entered : (search.store.enterRepeat id search.point.next).progress? id direct =
          some (0, search.point.next) := Store.progress?_enterRepeat known _
      have pushed := Store.progress?_push entered (.choice ⟨second, search.point.cursor⟩)
      exact congrArg (Option.map Prod.fst) pushed
    · cases same
    · exact Store.count?_enterRepeat known _

/-- Only an iteration of an active repeat ends. -/
theorem Leaves.active_of_repeatNext {greedy : Bool} (leaves : search.Leaves setting point left)
    (isNext : setting.program.code[search.point.address]? = some (.repeatNext id greedy direct)) :
    ∃ entry, search.store.active id = some entry := by
  cases active : search.store.active id with
  | some entry => exact ⟨entry, rfl⟩
  | none =>
      have sound := leaves.not_corrupt isNext
      have isActive : (search.store.registers.repeatOf id).entry = none := active
      simp only [Plan.ofInstruction, Plan.repeatNext, isActive] at sound
      split at sound
      · exact absurd rfl (sound _)
      · exact absurd rfl (sound _)

/-- An iteration that ends is counted; the repeat iterates again if fewer than `upper` were done,
and it is left if at least `lower` were, or `upper`. -/
theorem Leaves.of_repeatNext {greedy : Bool} (leaves : search.Leaves setting point left)
    (isNext : setting.program.code[search.point.address]? = some (.repeatNext id greedy direct))
    {count body : Nat} (continues : search.store.progress? id direct = some (count, body))
    {range : RepeatRange} (ranged : setting.program.repeatRanges[id]? = some range) :
    point.address = body ∧ nextIteration count < range.upper ∧
        left.count? id direct = some (nextIteration count) ∨
      point.address = search.point.next ∧
        (range.lower ≤ nextIteration count ∨ range.upper ≤ nextIteration count) := by
  obtain ⟨record, counts, plan⟩ :=
    Plan.repeatNext_of_progress? continues ranged search.point greedy
  have counted : ∀ store, store.progress? id direct = some (count, body) →
      store.counting? id direct = some record →
        (record.onStore store).count? id direct = some (nextIteration count) := by
    intro store continues counts
    exact congrArg (Option.map Prod.fst) (Store.progress?_counting continues counts)
  have noPush : ∀ frame, record ≠ .push frame := by
    rintro frame rfl
    cases direct with
    | true => cases counts
    | false =>
        obtain ⟨_, _, same⟩ := Option.map_eq_some_iff.1 counts
        cases same
  unfold Plan.afterIteration at plan
  split at plan
  · next done =>
      rcases leaves.of_goto_one isNext plan with ⟨rfl, _⟩ | ⟨frame, same, _⟩
      · exact .inr ⟨rfl, .inr done⟩
      · exact absurd same (noPush frame)
  split at plan
  · next more few =>
      rcases leaves.of_goto_one isNext plan with ⟨rfl, rfl⟩ | ⟨frame, same, _⟩
      · exact .inl ⟨rfl, Nat.not_le.1 more, counted _ continues counts⟩
      · exact absurd same (noPush frame)
  split at plan
  · next more enough _ =>
      rcases leaves.of_goto_two isNext plan with
        ⟨rfl, rfl⟩ | ⟨frame, same, resumes⟩ | ⟨frame, same, _⟩
      · have pushed := Store.progress?_push continues
          (.choice ⟨search.point.next, search.point.cursor⟩)
        exact .inl ⟨rfl, Nat.not_le.1 more, counted _ pushed counts⟩
      · cases same
        cases resumes
        exact .inr ⟨rfl, .inl (Nat.not_lt.1 enough)⟩
      · exact absurd same (noPush frame)
  · next more enough _ =>
      rcases leaves.of_goto_two isNext plan with
        ⟨rfl, rfl⟩ | ⟨frame, same, _⟩ | ⟨frame, same, resumes, rfl⟩
      · exact .inr ⟨rfl, .inl (Nat.not_lt.1 enough)⟩
      · exact absurd same (noPush frame)
      · cases same
        cases resumes
        exact .inl ⟨rfl, Nat.not_le.1 more, counted _ continues counts⟩

end Search

/-! ### Laps -/

/-- The address at which a repeat is left by its instruction at an address, be it at once or by way
of a choice: behind the end of an iteration, or at the exit of the start, unless that is the
body. -/
def Program.exit? (program : Program) (id address : Nat) : Option Nat :=
  match program.code[address]? with
  | some (.repeatStart started offset _) =>
      if started = id then (program.target? address offset).filter (· ≠ address + 1) else none
  | some (.repeatNext counted _ _) => if counted = id then some (address + 1) else none
  | _ => none

theorem Program.exit?_eq_none {program : Program} {id address : Nat}
    (other : program.repeatAt? address ≠ some id) : program.exit? id address = none := by
  have apart : ∀ instruction, program.code[address]? = some instruction →
      instruction.repeat? ≠ some id := fun instruction fetched isRepeat =>
    other (Option.bind_eq_some_iff.2 ⟨instruction, fetched, isRepeat⟩)
  unfold exit?
  split
  · next started offset greedy fetched =>
      exact if_neg fun same => apart _ fetched (congrArg some same)
  · next counted greedy direct fetched =>
      exact if_neg fun same => apart _ fetched (congrArg some same)
  · rfl

namespace Search

/-- Whether a repeat is left where one search goes on to another. -/
def Exits (program : Program) (id : Nat) (search next : Search) : Prop :=
  program.exit? id search.point.address = some next.point.address

instance (program : Program) (id : Nat) (search next : Search) :
    Decidable (search.Exits program id next) :=
  inferInstanceAs (Decidable (_ = _))

/-- A repeat was started on a route, and since then it was neither started again nor left, and a
number of iterations have ended, all of them counted in the same way.  The latest dispatch on the
route is given apart. -/
inductive Laps (program : Program) (id : Nat) (direct : Bool) :
    Search → List Search → (iterations : Nat) → Prop
  | started {start : Search} {path : List Search}
      (isStart : program.startedAt? start.point.address = some id) :
      Laps program id direct start path 0
  | within {latest next : Search} {path : List Search} {iterations : Nat}
      (laps : Laps program id direct latest path iterations)
      (stays : ¬ latest.Exits program id next)
      (other : program.repeatAt? next.point.address ≠ some id) :
      Laps program id direct next (latest :: path) iterations
  | ended {latest next : Search} {path : List Search} {iterations : Nat} {greedy : Bool}
      (laps : Laps program id direct latest path iterations)
      (stays : ¬ latest.Exits program id next)
      (isNext : program.code[next.point.address]? = some (.repeatNext id greedy direct)) :
      Laps program id direct next (latest :: path) (iterations + 1)

/-- What the laps of a repeat rely on: its entries and bodies are in order, and its dispatch throws
away nothing but choices. -/
structure Sound (setting : Setting) (slots : Nat) (search : Search) : Prop where
  anchored : search.store.Anchored setting.program
  bodied : search.store.Bodied setting.program
  slots : search.store.registers.repeats.size = slots
  discards : ∀ visit ∈ Move.trail setting search (setting.moves search.point search.store),
    visit.DiscardsChoice

variable {setting : Setting} {search next latest : Search} {path : List Search}
  {id slots iterations : Nat} {direct : Bool} {range : RepeatRange}

/-- A search that follows another one has counted what that has left. -/
theorem Follows.exists_leaves (follows : Follows setting next search) (id : Nat) (direct : Bool) :
    ∃ left, search.Leaves setting next.point left ∧
      next.store.count? id direct = left.count? id direct := by
  obtain ⟨left, leaves, same⟩ := follows
  have recorded : next.store.record.forgetGroups = left.record.forgetGroups := by
    rw [← Store.record_forgetGroups_reverted setting.program, same,
      Store.record_forgetGroups_reverted]
  refine ⟨left, leaves, ?_⟩
  rw [← Store.count?_record, recorded, Store.count?_record]

theorem exists_progress?_of_count? {store : Store} {count : Nat}
    (counted : store.count? id direct = some count) :
    ∃ entry body, store.active id = some entry ∧
      store.progress? id direct = some (count, body) := by
  obtain ⟨⟨_, body⟩, continues, rfl⟩ := Option.map_eq_some_iff.1 counted
  obtain ⟨entry, active, _⟩ := Option.bind_eq_some_iff.1 continues
  exact ⟨entry, body, active, continues⟩

/-- Where the body of an active repeat starts, there is its start right before. -/
theorem Sound.bodyAt (sound : Sound setting slots search) {count body : Nat}
    (continues : search.store.progress? id direct = some (count, body)) :
    setting.program.BodyAt id body :=
  sound.bodied.bodyAt sound.anchored continues

namespace Laps

/-- As long as a repeat is not left, it has counted the iterations since it was started, and they
are fewer than its range allows. -/
theorem count?_eq (laps : Laps setting.program id direct latest path iterations)
    (follows : (next :: latest :: path).IsChain (Follows setting))
    (sound : ∀ state ∈ latest :: path, Sound setting slots state)
    (ranged : setting.program.repeatRanges[id]? = some range) (known : id < slots)
    (some_allowed : 0 < range.upper) (counts : range.upper ≤ maxIterations)
    (stays : ¬ latest.Exits setting.program id next) :
    next.store.count? id direct = some (min iterations maxIterations) ∧
      iterations < range.upper := by
  induction laps generalizing next with
  | @started start path isStart =>
      obtain ⟨instruction, fetched, started⟩ := Option.bind_eq_some_iff.1 isStart
      cases instruction with
      | repeatStart other offset greedy =>
          cases started
          obtain ⟨left, leaves, same⟩ :=
            (List.isChain_cons_cons.1 follows).1.exists_leaves id direct
          obtain ⟨_, _, _, counted⟩ := @Leaves.of_repeatStart _ _ _ _ _ direct _ _ leaves fetched
          rw [← (sound _ List.mem_cons_self).slots] at known
          exact ⟨same.trans (counted known), some_allowed⟩
      | _ => cases started
  | within laps stays' other ih =>
      obtain ⟨follows, earlier⟩ := List.isChain_cons_cons.1 follows
      obtain ⟨left, leaves, same⟩ := follows.exists_leaves id direct
      have here := sound _ List.mem_cons_self
      obtain ⟨counted, fewer⟩ :=
        ih earlier (fun state mem => sound state (List.mem_cons_of_mem _ mem)) stays'
      obtain ⟨entry, _, active, _⟩ := exists_progress?_of_count? counted
      rw [same, leaves.count?_of_other here.discards here.anchored other active direct]
      exact ⟨counted, fewer⟩
  | ended laps stays' isNext ih =>
      obtain ⟨follows, earlier⟩ := List.isChain_cons_cons.1 follows
      obtain ⟨left, leaves, same⟩ := follows.exists_leaves id direct
      obtain ⟨counted, fewer⟩ :=
        ih earlier (fun state mem => sound state (List.mem_cons_of_mem _ mem)) stays'
      obtain ⟨_, body, _, continues⟩ := exists_progress?_of_count? counted
      rcases leaves.of_repeatNext isNext continues ranged with ⟨_, less, counted⟩ | ⟨behind, _⟩
      · rw [nextIteration_min] at counted less
        exact ⟨same.trans counted, by omega⟩
      · refine absurd ?_ stays
        rw [Exits, Program.exit?, isNext]
        simp [behind, Point.next]

/-- When a repeat is left, as many iterations were done as its range allows. -/
theorem within_range (laps : Laps setting.program id direct latest path iterations)
    (follows : (next :: latest :: path).IsChain (Follows setting))
    (sound : ∀ state ∈ latest :: path, Sound setting slots state)
    (ranged : setting.program.repeatRanges[id]? = some range)
    (ordered : range.lower ≤ range.upper) (some_allowed : 0 < range.upper)
    (counts : range.upper ≤ maxIterations) (exits : latest.Exits setting.program id next) :
    range.lower ≤ iterations ∧ iterations ≤ range.upper := by
  cases laps with
  | started isStart =>
      obtain ⟨instruction, fetched, started⟩ := Option.bind_eq_some_iff.1 isStart
      cases instruction with
      | repeatStart other offset greedy =>
          cases started
          obtain ⟨left, leaves, _⟩ := (List.isChain_cons_cons.1 follows).1
          obtain ⟨_, ranged', atBody | none_required, _⟩ :=
            @Leaves.of_repeatStart _ _ _ _ _ direct _ _ leaves fetched
          · rw [Exits, Program.exit?, fetched] at exits
            simp only [if_true, Option.filter_eq_some_iff, decide_eq_true_eq] at exits
            exact absurd atBody exits.2
          · obtain rfl := Option.some.inj (ranged.symm.trans ranged')
            exact ⟨Nat.le_of_eq none_required, Nat.zero_le _⟩
      | _ => cases started
  | within laps stays other =>
      rw [Exits, Program.exit?_eq_none other] at exits
      cases exits
  | ended laps stays isNext =>
      obtain ⟨follows, earlier⟩ := List.isChain_cons_cons.1 follows
      obtain ⟨left, leaves, _⟩ := follows
      have here := sound _ List.mem_cons_self
      obtain ⟨entry, active⟩ := leaves.active_of_repeatNext isNext
      have known := Store.lt_size_of_active active
      rw [here.slots] at known
      obtain ⟨counted, fewer⟩ := laps.count?_eq earlier
        (fun state mem => sound state (List.mem_cons_of_mem _ mem)) ranged known some_allowed counts
        stays
      obtain ⟨_, body, _, continues⟩ := exists_progress?_of_count? counted
      rcases leaves.of_repeatNext isNext continues ranged with ⟨atBody, _⟩ | ⟨_, enough⟩
      · -- The end of the iteration would have to be the start of the repeat.
        obtain ⟨address, isStart, rfl⟩ := here.bodyAt continues
        rw [Exits, Program.exit?, isNext] at exits
        simp only [if_true, Option.some.injEq, atBody] at exits
        rw [← Nat.succ.inj exits, Program.startedAt?, isNext] at isStart
        cases isStart
      · rw [nextIteration_min] at enough
        omega

end Laps

/-- The states on a route are sound in a run that throws away nothing but choices. -/
theorem sound_of_mem_route {store : Store} {dispatches : Nat}
    (discards : ∀ visit ∈ trail setting dispatches (start setting store), visit.DiscardsChoice)
    {state : Search} (mem : state ∈ route setting dispatches [] (start setting store)) :
    Sound setting (start setting store).store.registers.repeats.size state := by
  obtain ⟨passed, reached, visited⟩ := trail_of_mem_route mem
  have comes : (start setting store).Comes setting state :=
    ⟨passed, reached, fun visit mem => discards visit (visited (List.mem_append_left _ mem))⟩
  refine ⟨comes.anchored (.reset store), ?_, comes.size_repeats, ?_⟩
  · refine @store_invariant setting passed _ (Store.Bodied setting.program) state reached
      (.reset store) ?_
    intro visit mem bodied
    obtain ⟨_, _, made⟩ := exists_mem_dispatched mem
    refine bodied.onStore (regular_of_mem_trail mem) ?_
    rintro id body isStart
    rw [isStart] at made
    exact Attempt.bodyAt_of_enterRepeat made
  · intro visit mem
    exact discards visit (visited (List.mem_append_right _ mem))

/-- Whenever a repeat is left in a run that throws away nothing but choices, the number of
iterations since it was started is in its range.  The start of the repeat leaves it without an
iteration; the end of an iteration leaves it at once or, if it has left a choice, later.  What was
tried meanwhile and given up does not count.  The range has to allow an iteration, and the repeat
is not to be started again or left meanwhile. -/
theorem repeats_are_left_within_range {store : Store} {dispatches : Nat}
    (reaches : (start setting store).advance setting dispatches = .ok search)
    (discards : ∀ visit ∈ trail setting dispatches (start setting store), visit.DiscardsChoice)
    (routed : route setting dispatches [] (start setting store) = latest :: path)
    (laps : Laps setting.program id direct latest path iterations)
    (exits : latest.Exits setting.program id search)
    (ranged : setting.program.repeatRanges[id]? = some range)
    (ordered : range.lower ≤ range.upper) (some_allowed : 0 < range.upper)
    (counts : range.upper ≤ maxIterations) :
    range.lower ≤ iterations ∧ iterations ≤ range.upper := by
  have traced := traced_route (.refl setting store) discards reaches
  have sound := fun state => @sound_of_mem_route setting store dispatches discards state
  rw [routed] at traced sound
  exact laps.within_range traced.follows sound ranged ordered some_allowed counts exits

/-- A second iteration was done and given up, as nothing matched behind it; the repeat is left after
the first one. -/
theorem repeats_are_left_within_range_after_giving_back :
    let setting := plainSetting #[⟨1, 2⟩]
      #[.repeatStart 0 3 true, .byte 97, .repeatNext 0 true false, .byte 97, .byte 98, .accept]
      #[97, 97, 98]
    (after setting 3).store.progress? 0 false = some (1, 1) ∧
      (after setting 5).store.progress? 0 false = some (2, 1) ∧
      (after setting 6).point = ⟨3, ⟨1, 0⟩⟩ ∧
      route setting 6 [] (outset setting) = [after setting 2, after setting 1, outset setting] ∧
      Laps setting.program 0 false (after setting 2) [after setting 1, outset setting] 1 ∧
      1 ≤ 1 ∧ 1 ≤ 2 := by
  intro setting
  have routed : route setting 6 [] (outset setting) =
      [after setting 2, after setting 1, outset setting] := by decide +kernel
  have isNext : setting.program.code[(after setting 2).point.address]? =
      some (.repeatNext 0 true false) := by decide +kernel
  have laps : Laps setting.program 0 false (after setting 2) [after setting 1, outset setting] 1 :=
    .ended (.within (.started (by decide +kernel)) (by decide +kernel) (by decide +kernel))
      (by decide +kernel) isNext
  have reaches : (outset setting).advance setting 6 = .ok (after setting 6) :=
    @advance_after setting 0 6 (by decide +kernel)
  have within := repeats_are_left_within_range reaches (by decide +kernel) routed laps
    (by decide +kernel) rfl (by decide) (by decide) (by decide)
  exact ⟨by decide +kernel, by decide +kernel, by decide +kernel, routed, laps, within⟩

/-- How a repeat may be left outside its range.  A loop that calls itself from its body counts, from
then on, in the entry of the inner loop: the outer one, which takes two iterations, is left after
its first.  A count is not gone back on once the frame that saves it was thrown away.  And a body is
executed once even if its range allows no iteration. -/
theorem repeats_may_be_left_outside_range :
    (let setting := plainSetting #[⟨2, 2⟩]
      #[.call 2, .accept, .repeatStart 0 7 true, .push 4, .byte 98, .call 2, .jump 2, .byte 97,
        .repeatNext 0 true false, .callReturn] #[98, 97, 97, 97]
    (∀ visit ∈ trail setting 17 (outset setting), visit.DiscardsChoice) ∧
      (route setting 17 [] (outset setting)).reverse.map (fun search => search.point.address) =
        [0, 2, 3, 4, 5, 2, 3, 7, 8, 3, 7, 8, 9, 6, 8] ∧
      (after setting 17).point.address = 9 ∧
      (run? setting 19 (outset setting)).map (fun ending => ending.outcome) =
        some (.matched ⟨#[some 0], #[some 3]⟩)) ∧
    (let setting := plainSetting #[⟨2, 2⟩]
      #[.repeatStart 0 8 true, .push 6, .repeatNext 0 true false, .pop, .pop, .pop, .fail,
        .repeatNext 0 true false, .accept] #[]
    ∃ latest path, route setting 10 [] (outset setting) = latest :: path ∧
      Laps setting.program 0 false latest path 1 ∧
        latest.Exits setting.program 0 (after setting 10)) ∧
    (let setting := plainSetting #[⟨0, 0⟩]
      #[.repeatStart 0 3 true, .byte 97, .repeatNext 0 true false, .accept] #[97]
    (∀ visit ∈ trail setting 3 (outset setting), visit.DiscardsChoice) ∧
      ∃ latest path, route setting 3 [] (outset setting) = latest :: path ∧
        Laps setting.program 0 false latest path 1 ∧
          latest.Exits setting.program 0 (after setting 3)) := by
  refine ⟨?recursive, ?discarded, ?empty⟩
  case recursive => decide +kernel
  case discarded =>
    intro setting
    have isNext : setting.program.code[(after setting 9).point.address]? =
        some (.repeatNext 0 true false) := by decide +kernel
    refine ⟨after setting 9, [after setting 1, outset setting], ?_, ?_, ?_⟩
    · decide +kernel
    · exact .ended (.within (.started (by decide +kernel)) (by decide +kernel) (by decide +kernel))
        (by decide +kernel) isNext
    · decide +kernel
  case empty =>
    intro setting
    have isNext : setting.program.code[(after setting 2).point.address]? =
        some (.repeatNext 0 true false) := by decide +kernel
    refine ⟨?_, after setting 2, [after setting 1, outset setting], ?_, ?_, ?_⟩
    · decide +kernel
    · decide +kernel
    · exact .ended (.within (.started (by decide +kernel)) (by decide +kernel) (by decide +kernel))
        (by decide +kernel) isNext
    · decide +kernel

end Search

end PatternMachine
