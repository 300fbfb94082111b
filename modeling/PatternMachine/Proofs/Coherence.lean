import PatternMachine.Proofs.Laps
import PatternMachine.Proofs.Rooted
import PatternMachine.Proofs.Safety

/-!
# References to frames

Registers and frames refer to frames by their indices.  As long as nothing but choices is thrown
away, every reference is to a frame of its kind: bounds are kept in frames of their groups, repeats
are active in entries of their own, and counts are saved above the entries that they were read from
(`Store.Coherent`).  One dispatch keeps that, and so do whole runs (`Search.Occurs.coherent`).

So a bound that was set is never read as unset, and the end of an iteration is reported only if its
repeat was not started on the route to it (`Engine.references_never_dangle`).
-/

namespace PatternMachine

/-! ### Coherent stores -/

/-- Whether every count that is saved is that of an entry further down. -/
def Stack.Counted (stack : Stack) : Prop :=
  ∀ index entry savedCount, stack.get? index = some (.entryCount entry savedCount) →
    entry < index ∧ ∃ id, stack.EntersAt id entry

/-- Whether all that refers to a frame refers to one of its kind, and what lies in a frame refers to
one further down: bounds to frames of their groups, repeats to their own entries, and saved counts
to entries. -/
structure Store.Coherent (program : Program) (store : Store) : Prop where
  rooted : store.Rooted
  anchored : store.Anchored program
  counted : store.stack.Counted

/-- Whether bounds of a group are held by its register or saved in a frame. -/
def Store.Retains (store : Store) (group : Nat) (bounds : Bounds) : Prop :=
  store.registers.boundsOf group = bounds ∨
    ∃ index frame, store.stack.get? index = some frame ∧ frame.savedBounds? group = some bounds

/-- A bound reads as unset only if it is, as long as the frame that it lies in holds a position. -/
theorem Store.resolve?_eq_none_iff {store : Store} {bound : Bound}
    (placed : ∀ index, bound = .inFrame index →
      ∃ frame, store.stack.get? index = some frame ∧ frame.position? ≠ none) :
    store.resolve? bound = none ↔ bound = .unset := by
  cases bound with
  | unset => simp [resolve?]
  | direct position => simp [resolve?]
  | inFrame index =>
      obtain ⟨frame, read, holds⟩ := placed index rfl
      simpa [resolve?, read] using holds

namespace Bounds.RootedIn

variable {store : Store} {group limit : Nat} {bounds : Bounds}

/-- The start of a group reads as unset only if it was not set. -/
theorem resolve?_start_eq_none_iff (rooted : bounds.RootedIn store.stack group limit) :
    store.resolve? bounds.start = none ↔ bounds.start = .unset := by
  refine Store.resolve?_eq_none_iff fun index isFrame => ?_
  obtain ⟨_, position, saved, read⟩ := rooted.start index isFrame
  exact ⟨_, read, Option.some_ne_none position⟩

/-- The end of a group reads as unset only if it was not set. -/
theorem resolve?_stop_eq_none_iff (rooted : bounds.RootedIn store.stack group limit) :
    store.resolve? bounds.stop = none ↔ bounds.stop = .unset := by
  refine Store.resolve?_eq_none_iff fun index isFrame => ?_
  obtain ⟨_, position, saved, read⟩ := rooted.stop index isFrame
  exact ⟨_, read, Option.some_ne_none position⟩

end Bounds.RootedIn

/-- All bounds that a store retains are rooted in it. -/
theorem Store.Rooted.of_retains {store : Store} (rooted : store.Rooted) {group : Nat}
    {bounds : Bounds} (retains : store.Retains group bounds) :
    bounds.RootedIn store.stack group store.depth := by
  rcases retains with rfl | ⟨index, frame, read, saves⟩
  · exact rooted.groups group
  · have below := Stack.lt_depth_of_get? read
    exact (rooted.saved index frame group bounds read saves).of_stays (Nat.le_of_lt below)
      fun _ _ _ _ same => same

namespace Move

variable {program : Program} {store : Store} {move : Move}

/-- Every move keeps saved counts above their entries, if it counts only in one. -/
theorem counted_onStore (regular : move.Regular program) (counted : store.stack.Counted)
    (enters : ∀ entry, move = .perform (.countInEntry entry) →
      ∃ id, store.stack.EntersAt id entry) : (move.onStore store).stack.Counted := by
  intro index entry savedCount read
  have stays : ∀ id, entry < index → store.stack.EntersAt id entry →
      (move.onStore store).stack.EntersAt id entry := by
    intro id below entered
    have deep := Nat.lt_trans below (Stack.lt_depth_of_get? read)
    exact entered.becomes fun frame there => exists_get?_onStore regular there deep
  rcases get?_onStore regular read with ⟨frame, readFrame, becomes⟩ | ⟨rfl, effect, rfl, pushes⟩
  · cases becomes with
    | same =>
        obtain ⟨below, id, entered⟩ := counted index entry savedCount readFrame
        exact ⟨below, id, stays id below entered⟩
  · cases effect with
    | countInEntry =>
        cases pushes
        obtain ⟨id, entered⟩ := enters entry rfl
        exact ⟨entered.lt_depth, id, stays id entered.lt_depth entered⟩
    | push frame =>
        cases pushes
        cases regular
    | _ => cases pushes

end Move

namespace Store.Coherent

variable {program : Program} {store : Store}

theorem reset (store : Store) : store.reset.Coherent program where
  rooted := .reset store
  anchored := .reset store
  counted := by
    intro index entry savedCount read
    cases read

/-- Every move but one that throws away something else than a choice keeps references in order, if
what it writes for good and what it counts in do. -/
theorem onStore (coherent : store.Coherent program) {move : Move} (regular : move.Regular program)
    (written : ∀ group bounds, move = .perform (.setGroup group bounds) →
      bounds.RootedIn store.stack group store.depth)
    (enters : ∀ entry, move = .perform (.countInEntry entry) →
      ∃ id, store.stack.EntersAt id entry)
    (discards : move = .perform .discard → store.topIsChoice = true) :
    (move.onStore store).Coherent program where
  rooted := coherent.rooted.onStore regular written discards
  anchored := coherent.anchored.onStore regular discards
  counted := Move.counted_onStore regular coherent.counted enters

end Store.Coherent

/-! ### What a dispatch writes and counts in -/

/-- What a dispatch may write to the bounds of a group for good: nothing, or the position at which
it stands for one of the bounds that the group has. -/
inductive Attempt.Writes (attempt : Attempt) (point : Point) (store : Store) (group : Nat) :
    Bounds → Prop
  | unset : Writes attempt point store group .unset
  | start (opens : attempt.program.code[point.address]? = some (.openGroup group false)) :
      Writes attempt point store group
        { store.registers.boundsOf group with start := .direct point.cursor.position }
  | stop (closes : attempt.program.code[point.address]? = some (.closeGroup group false)) :
      Writes attempt point store group
        { store.registers.boundsOf group with stop := .direct point.cursor.position }

/-- What is written to a group for good is rooted if the bounds of the group are. -/
theorem Attempt.Writes.rootedIn {attempt : Attempt} {point : Point} {store : Store} {group : Nat}
    {bounds : Bounds} (writes : attempt.Writes point store group bounds) {limit : Nat}
    (rooted : (store.registers.boundsOf group).RootedIn store.stack group limit) :
    bounds.RootedIn store.stack group limit := by
  cases writes with
  | unset => exact .unset ..
  | start => exact ⟨nofun, rooted.stop⟩
  | stop => exact ⟨rooted.start, nofun⟩

namespace Move

variable {setting : Setting} {search : Search} {moves : List Move}

/-- An entry stays one while moves take no frame off. -/
theorem entersAt_of_raises {program : Program} (regular : ∀ move ∈ moves, move.Regular program)
    (raises : ∀ move ∈ moves, move.Raises) {id entry : Nat}
    (enters : search.store.stack.EntersAt id entry) :
    (∀ visit ∈ trail setting search moves, visit.before.store.stack.EntersAt id entry) ∧
      ∀ last, play setting search moves = .ok last → last.store.stack.EntersAt id entry := by
  obtain ⟨middle, leads, ends⟩ := leads_trail setting search moves
  have rises := @le_depth_of_raises setting search moves raises
  obtain ⟨along, atEnd⟩ := @Visit.Leads.invariant
    (fun state => state.store.stack.EntersAt id entry) search middle _ leads enters (by
      intro visit mem before
      obtain ⟨made, attempted⟩ := of_mem_trail mem
      have deep := Nat.lt_of_lt_of_le enters.lt_depth (rises visit mem).2
      rw [store_of_attempt attempted] at deep ⊢
      exact before.becomes fun frame there => exists_get?_onStore (regular _ made) there deep)
  refine ⟨fun visit mem => (along visit mem).1, ?_⟩
  intro last played
  rw [ends last played]
  exact atEnd

end Move

namespace Search

variable {setting : Setting} {search : Search} {visit : Visit}

/-- What is written to a group for good takes the place of what the group has. -/
theorem writes_of_mem_trail
    (mem : visit ∈ Move.trail setting search (setting.moves search.point search.store)) {group : Nat}
    {bounds : Bounds} (writes : visit.move = .perform (.setGroup group bounds)) :
    setting.Writes search.point visit.before.store group bounds := by
  have made := (Move.of_mem_trail mem).1
  rw [writes] at made
  obtain ⟨instruction, fetched, causes | ⟨_, isChoice⟩⟩ := Attempt.exists_causes_of_mem_moves made
  swap
  · cases isChoice
  -- An instruction that writes a bound does nothing before.
  have alone : ∀ effect, (Plan.ofInstruction setting.toAttempt search.point search.store
      instruction).effects = [effect] → visit.before.store = search.store := by
    intro effect single
    have apart : .perform (.setGroup group bounds) ∉ setting.exitMoves search.point
        (Plan.ofInstruction setting.toAttempt search.point search.store instruction).exit := by
      intro exitMem
      obtain ⟨_, isChoice⟩ := Attempt.choice_of_mem_exitMoves exitMem
      cases isChoice
    obtain ⟨before, after, split, leads⟩ :=
      of_mem_trail_moves fetched mem writes (fun _ => Effect.noConfusion) apart
    rw [single] at split
    cases before with
    | nil => exact leads
    | cons _ before => simp at split
  cases causes with
  | unsetGroup => exact .unset
  | startGroup known =>
      rw [← alone _ (by simp only [Plan.ofInstruction, Plan.openGroup, known]; rfl)]
      exact .start fetched
  | stopGroup known =>
      rw [← alone _ (by simp only [Plan.ofInstruction, Plan.closeGroup, known]; rfl)]
      exact .stop fetched

/-- An iteration is counted in an entry of its repeat. -/
theorem entersAt_of_mem_trail (anchored : search.store.Anchored setting.program)
    (mem : visit ∈ Move.trail setting search (setting.moves search.point search.store))
    {entry : Nat} (counts : visit.move = .perform (.countInEntry entry)) :
    ∃ id, visit.before.store.stack.EntersAt id entry := by
  have made := (Move.of_mem_trail mem).1
  rw [counts] at made
  obtain ⟨instruction, fetched, causes | ⟨_, isChoice⟩⟩ := Attempt.exists_causes_of_mem_moves made
  · cases causes with
    | @countInEntry id _ greedy active =>
        have isRepeat : setting.program.repeatAt? search.point.address = some id :=
          Option.bind_eq_some_iff.2 ⟨_, fetched, rfl⟩
        have enters := anchored.active id entry active
        exact ⟨id, (Move.entersAt_of_raises (fun _ => Attempt.regular_of_mem_moves)
          (fun _ => Attempt.raises_of_repeat isRepeat) enters).1 visit mem⟩
  · cases isChoice

end Search

/-! ### Runs -/

/-- The states that a run comes to within a number of dispatches: the one in which it starts, those
to which its moves lead, and the one in which it ends. -/
inductive Search.Occurs (setting : Setting) (store : Store) (dispatches : Nat) : Search → Prop
  | start : Occurs setting store dispatches (.start setting store)
  | after {visit : Visit} (mem : visit ∈ trail setting dispatches (.start setting store)) :
      Occurs setting store dispatches visit.after
  | last {ending : Ending} (ended : run? setting dispatches (.start setting store) = some ending) :
      Occurs setting store dispatches ending.last

namespace Search

variable {setting : Setting} {store : Store} {dispatches : Nat} {search : Search}

/-- A run comes to where it dispatches. -/
theorem Occurs.of_advance
    (reaches : (Search.start setting store).advance setting dispatches = .ok search) :
    Occurs setting store dispatches search := by
  rcases (leads_trail_of_advance reaches).eq_or_exists_after with rfl | ⟨visit, mem, rfl⟩
  · exact .start
  · exact .after mem

/-- What a run starts with, and all its moves keep, holds whatever it comes to. -/
theorem Occurs.store_invariant {Inv : Store → Prop} (occurs : Occurs setting store dispatches search)
    (start : Inv store.reset)
    (keeps : ∀ visit ∈ trail setting dispatches (.start setting store),
      Inv visit.before.store → Inv visit.after.store)
    (empties : ∀ store, Inv store → Inv (Move.backtrack.onStore store)) : Inv search.store := by
  cases occurs with
  | start => exact start
  | @after visit mem =>
      obtain ⟨_, leads⟩ := leads_trail setting dispatches (.start setting store)
      exact ((@Visit.Leads.invariant (fun state => Inv state.store) _ _ _ leads start keeps).1
        visit mem).2
  | last ended =>
      refine @run?_of_trail setting _ (fun state => Inv state.store)
        (fun ending => Inv ending.last.store) start ?_ dispatches _ keeps ended
      intro state move ending holds stops
      cases stops with
      | denied sound kept =>
          rw [kept]
          exact holds
      | @tried store none_left =>
          have emptied : Move.backtrack.onStore state.store = store := by
            rw [Move.onStore, none_left]
          rw [← emptied]
          exact empties _ holds
      | concluded | matched | rejected => exact holds

section

variable (discards : ∀ visit ∈ trail setting dispatches (.start setting store),
  visit.DiscardsChoice)

include discards

/-- Every move of a run that throws away nothing but choices keeps references in order. -/
theorem coherent_of_visit {visit : Visit}
    (mem : visit ∈ trail setting dispatches (.start setting store))
    (before : visit.before.store.Coherent setting.program) :
    visit.after.store.Coherent setting.program := by
  obtain ⟨state, stateMem, made⟩ := exists_dispatched_visit mem
  obtain ⟨passed, reached, visited⟩ := exists_advance_of_mem_dispatched stateMem
  have anchored : state.store.Anchored setting.program :=
    anchored_of_advance (.reset store)
      (fun visit earlier => discards visit (visited (List.mem_append_left _ earlier))) reached
  rw [store_of_mem_trail mem]
  refine before.onStore (regular_of_mem_trail mem) ?_ ?_ (discards visit mem)
  · intro group bounds writes
    exact (writes_of_mem_trail made writes).rootedIn (before.rooted.groups group)
  · intro entry counts
    exact entersAt_of_mem_trail anchored made counts

/-- Whatever a run comes to that throws away nothing but choices, references are in order. -/
theorem Occurs.coherent (occurs : Occurs setting store dispatches search) :
    search.store.Coherent setting.program := by
  refine occurs.store_invariant (.reset store) (fun visit mem => coherent_of_visit discards mem) ?_
  intro store coherent
  exact coherent.onStore trivial nofun nofun nofun

end

end Search

/-! ### Repeats on the route -/

namespace Move

variable {store : Store} {move : Move} {id : Nat}

/-- A move that takes no frame off leaves active repeats active. -/
theorem Climbs.exists_active (climbs : move.Climbs) (active : ∃ entry, store.active id = some entry) :
    ∃ entry, (move.onStore store).active id = some entry := by
  obtain ⟨entry, isActive⟩ := active
  cases move with
  | perform effect =>
      cases effect with
      | enterRepeat other body =>
          by_cases own : other = id
          · subst own
            have entered := Store.repeatOf_enterRepeat (Store.lt_size_of_active isActive) body
            exact ⟨store.depth, congrArg RepeatRegister.entry entered⟩
          · refine ⟨entry, ?_⟩
            rw [← isActive, Store.active, onStore, Effect.onStore, Store.enterRepeat,
              Store.repeatOf_setRepeat_of_ne _ own]
            rfl
      | countInRegister other =>
          let saved : Frame := .registerCount other (store.registers.repeatOf other).count
          have same := @Store.active_setRepeat_of_entry (store.push saved) other
            { store.registers.repeatOf other with
              count := nextIteration (store.registers.repeatOf other).count } rfl
          exact ⟨entry, (congrFun same id).trans isActive⟩
      | discard => exact absurd rfl climbs.ne_discard
      | unwindTo mark => exact absurd rfl (climbs.ne_unwindTo mark)
      | _ => exact ⟨entry, isActive⟩
  | backtrack => exact absurd rfl climbs.ne_backtrack
  | _ => exact ⟨entry, isActive⟩

end Move

namespace Search

variable {setting : Setting} {store : Store} {search next : Search} {point : Point} {left : Store}
  {id : Nat}

section

variable (leaves : search.Leaves setting point left)
  (discards : ∀ visit ∈ Move.trail setting search (setting.moves search.point search.store),
    visit.DiscardsChoice)

include leaves discards

/-- A dispatch leaves active repeats active. -/
theorem Leaves.exists_active (active : ∃ entry, search.store.active id = some entry) :
    ∃ entry, left.active id = some entry :=
  @Leaves.invariant setting search point left (fun store => ∃ entry, store.active id = some entry)
    leaves discards active (fun _ _ climbs _ => climbs.exists_active) fun _ _ active => active

/-- A dispatch leaves entries where they are. -/
theorem Leaves.entersAt {entry : Nat} (enters : search.store.stack.EntersAt id entry) :
    left.stack.EntersAt id entry := by
  obtain ⟨moves, last, made, played, last_is⟩ := leaves.exists_climb discards
  have stays : last.store.stack.EntersAt id entry :=
    (Move.entersAt_of_raises (fun move mem => Attempt.regular_of_mem_moves (made move mem).1)
      (fun move mem => (made move mem).2.1) enters).2 last played
  rcases last_is with rfl | ⟨onTop, rfl⟩
  · exact stays
  · obtain ⟨lowered, point, split⟩ := Store.exists_push_of_topIsChoice onTop
    rw [split] at stays ⊢
    rw [Store.discard_push]
    refine stays.lower_of_ne ?_
    rintro rfl
    obtain ⟨_, _, _, _, read⟩ := stays
    rw [Store.push, Stack.get?_depth_push] at read
    cases read

/-- A frame that a dispatch leaves was there before, or the dispatch has pushed it on top of all
there was. -/
theorem Leaves.get?_cases {index : Nat} {found : Frame} (read : left.stack.get? index = some found) :
    (∃ frame, search.store.stack.get? index = some frame ∧ frame.Becomes found) ∨
      search.store.depth ≤ index ∧ ∃ effect store frame,
        .perform effect ∈ setting.moves search.point search.store ∧
          effect.frame? store = some frame ∧ frame.Becomes found := by
  obtain ⟨moves, last, made, played, last_is⟩ := leaves.exists_climb discards
  have readLast : last.store.stack.get? index = some found := by
    rcases last_is with rfl | ⟨onTop, rfl⟩
    · exact read
    · obtain ⟨lowered, point, split⟩ := Store.exists_push_of_topIsChoice onTop
      rw [split, Store.discard_push] at read
      rw [split]
      exact (lowered.stack.get?_push_of_lt _ (Stack.lt_depth_of_get? read)).trans read
  rcases Move.get?_of_play (fun move mem => Attempt.regular_of_mem_moves (made move mem).1) played
    readLast with ⟨frame, there, becomes, _⟩ | ⟨visit, mem, rfl, effect, frame, performs, pushes,
      becomes⟩
  · exact .inl ⟨frame, there, becomes⟩
  · have rises := @Move.le_depth_of_raises setting search moves fun move mem => (made move mem).2.1
    have moveMem := (made _ (Move.of_mem_trail mem).1).1
    rw [performs] at moveMem
    exact .inr ⟨(rises visit mem).1, effect, _, frame, moveMem, pushes, becomes⟩

end

variable {dispatches : Nat}
  (reaches : (start setting store).advance setting dispatches = .ok search)
  (discards : ∀ visit ∈ trail setting dispatches (start setting store), visit.DiscardsChoice)

include reaches discards

/-- A saved count is that of an entry of the repeat whose iteration ended on the route when it was
saved. -/
theorem exists_repeatNext_of_entryCount {index entry savedCount : Nat}
    (read : search.store.stack.get? index = some (.entryCount entry savedCount)) :
    ∃ origin before id greedy,
      cutBack index (route setting dispatches [] (start setting store)) = origin :: before ∧
        setting.program.code[origin.point.address]? = some (.repeatNext id greedy false) ∧
          search.store.stack.EntersAt id entry := by
  refine @route_invariant setting search store dispatches
    (fun path state => ∀ index entry savedCount,
      state.store.stack.get? index = some (.entryCount entry savedCount) →
        ∃ origin before id greedy, cutBack index path = origin :: before ∧
          setting.program.code[origin.point.address]? = some (.repeatNext id greedy false) ∧
            state.store.stack.EntersAt id entry)
    reaches discards nofun ?_ index entry savedCount read
  intro next latest earlier suffix own follows before index entry savedCount read
  have sound := sound_of_mem_route discards (suffix.subset List.mem_cons_self)
  obtain ⟨left, leaves, same⟩ := follows
  rw [Store.stack_eq_of_reverted same] at read ⊢
  rcases leaves.get?_cases own read with ⟨frame, there, becomes⟩ | ⟨above, effect, current, frame,
    made, pushes, becomes⟩
  · cases becomes with
    | same =>
        obtain ⟨origin, rest, id, greedy, cut, isNext, enters⟩ := before index entry _ there
        refine ⟨origin, rest, id, greedy, ?_, isNext, leaves.entersAt own enters⟩
        rw [cutBack_cons_of_lt (Stack.lt_depth_of_get? there), cut]
  · cases becomes with
    | same =>
        obtain ⟨instruction, fetched, causes | ⟨_, rfl⟩⟩ := Attempt.exists_causes_of_mem_moves made
        · cases causes <;> cases pushes
          next id greedy active =>
            have enters := sound.anchored.active id entry active
            exact ⟨latest, earlier, id, greedy, cutBack_cons_of_le above, fetched,
              leaves.entersAt own enters⟩
        · cases pushes

/-- A repeat that was started on the route is active. -/
theorem exists_active_of_mem_route
    (slots : store.registers.repeats.size = setting.program.repeatRanges.size) {earlier : Search}
    (mem : earlier ∈ route setting dispatches [] (start setting store))
    (starts : setting.program.startedAt? earlier.point.address = some id) :
    ∃ entry, search.store.active id = some entry := by
  refine @route_invariant setting search store dispatches
    (fun path state => ∀ earlier ∈ path,
      setting.program.startedAt? earlier.point.address = some id →
        ∃ entry, state.store.active id = some entry)
    reaches discards nofun ?_ earlier mem starts
  intro next latest path suffix own follows before earlier mem starts
  have sound := sound_of_mem_route discards (suffix.subset List.mem_cons_self)
  obtain ⟨left, leaves, same⟩ := follows
  rw [Store.active_eq_of_reverted same]
  rcases List.mem_cons.1 mem with rfl | mem
  · obtain ⟨instruction, fetched, isStart⟩ := Option.bind_eq_some_iff.1 starts
    cases instruction with
    | repeatStart other offset greedy =>
        cases isStart
        obtain ⟨_, ranged, _, counted⟩ := @Leaves.of_repeatStart _ _ _ _ _ true _ _ leaves fetched
        have known : id < earlier.store.registers.repeats.size := by
          have within := (Array.getElem?_eq_some_iff.1 ranged).1
          rw [sound.slots]
          simpa [start, Store.reset, Registers.reset, Registers.blank, slots] using within
        obtain ⟨entry, _, active, _⟩ := exists_progress?_of_count? (counted known)
        exact ⟨entry, active⟩
    | _ => cases isStart
  · exact leaves.exists_active own (before earlier mem starts)

end Search

/-! ### Reports of repeats that were not entered -/

/-- The end of an iteration of an active repeat does not find that repeat inactive. -/
theorem Plan.repeatNext_exit_ne {attempt : Attempt} {point : Point} {store : Store} {id : Nat}
    (anchored : store.Anchored attempt.program) (active : ∃ entry, store.active id = some entry)
    (greedy direct : Bool) :
    (repeatNext attempt point store id greedy direct).exit ≠ .corrupt (.repeatNotEntered id) := by
  obtain ⟨entry, isActive⟩ := active
  cases ranged : attempt.program.repeatRanges[id]? with
  | none =>
      simp only [repeatNext, ranged]
      rintro ⟨⟩
  | some range =>
      obtain ⟨count, body, continues⟩ := anchored.exists_progress? isActive direct
      obtain ⟨record, _, plan⟩ := repeatNext_of_progress? continues ranged point greedy
      rw [plan, afterIteration]
      repeat' split
      all_goals rintro ⟨⟩

/-- Only an instruction that finds the program malformed is rejected. -/
theorem Attempt.exit_of_reject {attempt : Attempt} {point : Point} {exit : Exit}
    {reason : Corruption} (mem : .reject reason ∈ attempt.exitMoves point exit) :
    exit = .corrupt reason := by
  have made : ∀ star : Star, ¬ star.Makes (fun _ => True) (.reject reason) := by
    rintro star ⟨⟩
  cases exit with
  | corrupt other =>
      cases List.mem_singleton.1 mem
      rfl
  | sweep star =>
      exact absurd (Star.makes_of_mem_sweepMoves trivial (fun _ _ _ => trivial) mem) (made star)
  | leap star byte =>
      exact absurd (Star.makes_of_mem_leapMoves (fun _ _ _ _ => trivial) trivial mem) (made star)
  | accept =>
      have mem : .reject reason ∈ attempt.acceptMoves point.cursor.position := mem
      unfold acceptMoves at mem
      repeat' split at mem
      all_goals simp [Move.failing] at mem
  | goto next | fail | finish => simp [exitMoves, Move.failing] at mem

namespace Search

variable {setting : Setting} {store : Store} {search : Search} {dispatches id : Nat}

/-- A dispatch that reports its instruction has a plan that comes to that. -/
theorem exit_of_report {instruction : Instruction}
    (fetched : setting.program.code[search.point.address]? = some instruction) {ending : Ending}
    (stepped : search.step setting = .error ending) {address : Nat} {reason : Corruption}
    (reports : ending.outcome = .stopped (.corrupt address reason)) :
    (Plan.ofInstruction setting.toAttempt search.point search.store instruction).exit =
      .corrupt reason := by
  have rejected : .reject reason ∈ setting.moves search.point search.store := by
    by_contra accepts
    have results : Results (fun _ => True)
        (fun ending => ending.outcome ≠ .stopped (.corrupt address reason))
        (search.step setting) := by
      rw [step_eq_play]
      refine @Move.play_results setting search _ (· ≠ .reject reason) _ ?_ _ trivial ?_
      · intro state move _ sound
        cases attempted : move.attempt setting state with
        | ok next => trivial
        | error ending =>
            exact fun corrupt => sound (Move.eq_reject_of_attempt attempted corrupt)
      · rintro move mem rfl
        exact accepts mem
    rw [stepped] at results
    exact results reports
  rw [Attempt.moves, fetched] at rejected
  simp only [Attempt.planMoves, List.mem_cons, List.mem_append, List.mem_map, reduceCtorEq,
    and_false, exists_false, false_or] at rejected
  exact Attempt.exit_of_reject rejected

/-- The end of an iteration is reported for want of an entry only if its repeat was not started on
the route. -/
theorem not_started_of_report
    (slots : store.registers.repeats.size = setting.program.repeatRanges.size)
    (reaches : (start setting store).advance setting dispatches = .ok search)
    (discards : ∀ visit ∈ trail setting dispatches (start setting store), visit.DiscardsChoice)
    {greedy direct : Bool}
    (isNext : setting.program.code[search.point.address]? = some (.repeatNext id greedy direct))
    {ending : Ending} (stepped : search.step setting = .error ending) {address : Nat}
    (reports : ending.outcome = .stopped (.corrupt address (.repeatNotEntered id))) :
    ∀ earlier ∈ route setting dispatches [] (start setting store),
      setting.program.startedAt? earlier.point.address ≠ some id := by
  intro earlier mem starts
  have anchored : search.store.Anchored setting.program :=
    anchored_of_advance (.reset store) discards reaches
  have active := exists_active_of_mem_route reaches discards slots mem starts
  exact Plan.repeatNext_exit_ne anchored active greedy direct (exit_of_report isNext stepped reports)

end Search

namespace Engine

/-- Whatever a run comes to that throws away nothing but choices, be it inside a dispatch or at the
end, every reference is to a frame that is there and is of its kind: bounds that are held or saved
lie in frames that opened or closed their group at a position, repeats are active in entries of
their own and so are those that an entry saves, and counts are saved above entries.  What a frame
refers to lies below it.  So a bound that is kept reads as unset only if it is.

Where the run dispatches, moreover, the entry that a count was saved for is one of the repeat whose
iteration ended on the route when it was saved, and if the end of an iteration is reported for want
of an entry, its repeat was not started on the route. -/
theorem references_never_dangle {engine : Engine} (used : engine.Used) (input : Input)
    (monitor : Monitor) (dispatches : Nat) :
    let setting := engine.setting input monitor
    let first := Search.start setting engine.store
    let route := Search.route setting dispatches [] first
    (∀ visit ∈ Search.trail setting dispatches first, visit.DiscardsChoice) →
      (∀ state, Search.Occurs setting engine.store dispatches state →
        state.store.Coherent engine.program ∧
          ∀ group bounds, state.store.Retains group bounds →
            (state.store.resolve? bounds.start = none ↔ bounds.start = .unset) ∧
              (state.store.resolve? bounds.stop = none ↔ bounds.stop = .unset)) ∧
      ∀ state, first.advance setting dispatches = .ok state →
        (∀ index entry savedCount,
          state.store.stack.get? index = some (.entryCount entry savedCount) →
            ∃ origin before id greedy, Search.cutBack index route = origin :: before ∧
              engine.program.code[origin.point.address]? = some (.repeatNext id greedy false) ∧
                state.store.stack.EntersAt id entry) ∧
        ∀ id greedy direct ending address,
          engine.program.code[state.point.address]? = some (.repeatNext id greedy direct) →
            state.step setting = .error ending →
              ending.outcome = .stopped (.corrupt address (.repeatNotEntered id)) →
                ∀ earlier ∈ route, engine.program.startedAt? earlier.point.address ≠ some id := by
  intro setting first route discards
  refine ⟨?_, ?_⟩
  · intro state occurs
    have coherent := occurs.coherent discards
    refine ⟨coherent, fun group bounds retains => ?_⟩
    have rooted := coherent.rooted.of_retains retains
    exact ⟨rooted.resolve?_start_eq_none_iff, rooted.resolve?_stop_eq_none_iff⟩
  · intro state reaches
    refine ⟨fun index entry savedCount read =>
      Search.exists_repeatNext_of_entryCount reaches discards read, ?_⟩
    intro id greedy direct ending address isNext stepped reports
    exact Search.not_started_of_report used.slots.2 reaches discards isNext stepped reports

/-- A repeat is iterated twice, with a group in its body, and given up.  Then the end of one more
iteration is reported, although the repeat was started before. -/
theorem references_never_dangle_of_repeat_given_up :
    let program : Program :=
      { code := #[.push 8, .repeatStart 0 6 true, .openGroup 1 true, .closeGroup 1 true, .push 1,
          .pop, .repeatNext 0 true false, .fail, .repeatNext 0 true false]
        templates := #[], classes := #[], repeatRanges := #[⟨1, 2⟩], groupCount := 1
        emptyCheckCount := 0, loggedStarts := .empty, loggedEnds := .empty, options := .none
        encoding := .utf8 }
    let setting := (withConfig program ⟨.unlimited, .none⟩).setting (.whole ⟨#[]⟩) .patient
    let route := fun dispatches => Search.route setting dispatches [] (Search.outset setting)
    (let state := Search.after setting 12
    state.store.Retains 1 ⟨.inFrame 6, .inFrame 7⟩ ∧
      state.store.stack.get? 8 = some (.entryCount 1 1) ∧
      state.store.Coherent program ∧ state.store.resolve? (.inFrame 6) ≠ none ∧
      ∃ origin before greedy, Search.cutBack 8 (route 12) = origin :: before ∧
        program.code[origin.point.address]? = some (.repeatNext 0 greedy false)) ∧
    program.startedAt? (Search.after setting 1).point.address = some 0 ∧
      (∃ ending, (Search.after setting 14).step setting = .error ending ∧
        ending.outcome = .stopped (.corrupt 8 (.repeatNotEntered 0))) ∧
      ∀ earlier ∈ route 14, program.startedAt? earlier.point.address ≠ some 0 := by
  intro program setting route
  have used : Used (withConfig program ⟨.unlimited, .none⟩) := .fresh ..
  refine ⟨?iterated, by decide +kernel, ?_⟩
  case iterated =>
    intro state
    have reaches : (Search.outset setting).advance setting 12 = .ok state :=
      @Search.advance_after setting 0 12 (by decide +kernel)
    have kept : state.store.Retains 1 ⟨.inFrame 6, .inFrame 7⟩ := .inl (by decide +kernel)
    have counted : state.store.stack.get? 8 = some (.entryCount 1 1) := by decide +kernel
    obtain ⟨occurs, origins⟩ :=
      references_never_dangle used (.whole ⟨#[]⟩) .patient 12 (by decide +kernel)
    obtain ⟨coherent, resolves⟩ := occurs state (.of_advance reaches)
    obtain ⟨origin, before, id, greedy, cut, isNext, enters⟩ :=
      (origins state reaches).1 8 1 1 counted
    have own : state.store.stack.EntersAt 0 1 := ⟨2, 2, none, 0, by decide +kernel⟩
    obtain rfl : id = 0 := own.unique enters
    refine ⟨kept, counted, coherent, ?_, origin, before, greedy, cut, isNext⟩
    rw [Ne, (resolves 1 _ kept).1]
    exact Bound.noConfusion
  · have reaches : (Search.outset setting).advance setting 14 = .ok (Search.after setting 14) :=
      @Search.advance_after setting 0 14 (by decide +kernel)
    obtain ⟨_, reports⟩ :=
      references_never_dangle used (.whole ⟨#[]⟩) .patient 14 (by decide +kernel)
    have reported : (Search.run? setting 1 (Search.after setting 14)).map
        (fun ending => ending.outcome) = some (.stopped (.corrupt 8 (.repeatNotEntered 0))) := by
      decide +kernel
    obtain ⟨ending, ended, outcome⟩ := Option.map_eq_some_iff.1 reported
    have stepped : (Search.after setting 14).step setting = .error ending := by
      rw [← Search.advance_one]
      exact Search.run?_eq_some_iff.1 ended
    refine ⟨⟨ending, stepped, outcome⟩, ?_⟩
    exact (reports _ reaches).2 0 true false ending 8 (by decide +kernel) stepped outcome

end Engine

end PatternMachine
