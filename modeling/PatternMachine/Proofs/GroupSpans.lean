import PatternMachine.Proofs.Coherence
import PatternMachine.Proofs.EmptyMatches

/-!
# Spans of groups

A group that a match reports lies in the attempt and does not end before it starts
(`Engine.matches_report_spans`).  That is not plain where groups are closed for good: such an end is
not undone when the search goes back, while the start of the group is, so an end may be older than
what is left of the run.  What holds all along is that a start comes with an end that was written
when the search had passed the start.  So the bounds that a store retains are looked at in pairs, be
they held by registers or saved in frames (`Store.Retains`), and every pair is in order
(`Store.Ordered`): a start is kept in a frame, the frames on the stack are no younger than where the
search stands (`Search.passed_of_advance`), and what a dispatch writes is the position at which it
stands.
-/

namespace PatternMachine

/-! ### What stores keep of groups -/

namespace Effect

/-- The bounds that an effect writes to a group. -/
def written? (store : Store) : Effect → Option (Nat × Bounds)
  | .openGroup group _ => some (group, ⟨.inFrame store.depth, .unset⟩)
  | .closeGroup group _ =>
      some (group, ⟨(store.registers.boundsOf group).start, .inFrame store.depth⟩)
  | .clearGroup group => some (group, .unset)
  | .setGroup group bounds => some (group, bounds)
  | _ => none

variable {program : Program} {store : Store} {effect : Effect} {group : Nat} {bounds : Bounds}

/-- A frame that is pushed saves the bounds that its group has. -/
theorem boundsOf_of_frame? (regular : effect.Regular program) {frame : Frame}
    (pushes : effect.frame? store = some frame) (saves : frame.savedBounds? group = some bounds) :
    store.registers.boundsOf group = bounds := by
  have own : ∀ {number saved}, (if number = group then some saved else none) = some bounds →
      saved = store.registers.boundsOf number → store.registers.boundsOf group = bounds := by
    intro number saved isSaved same
    split at isSaved
    · next number_eq =>
      cases isSaved
      rw [same, number_eq]
    · cases isSaved
  cases effect with
  | push pushed =>
      cases pushes
      cases frame <;> first | cases saves | cases regular
  | openGroup | closeGroup | clearGroup =>
      cases pushes
      exact own saves rfl
  | note | setGroup | discard | commit | unwindTo => cases pushes
  | enterRepeat | countInEntry | countInRegister =>
      cases pushes
      cases saves

end Effect

namespace Store.Retains

variable {store : Store} {frame : Frame} {group : Nat} {bounds : Bounds}

theorem push (retains : store.Retains group bounds) (frame : Frame) :
    (store.push frame).Retains group bounds := by
  rcases retains with held | ⟨index, found, read, saves⟩
  · exact .inl held
  · exact .inr ⟨index, found,
      (store.stack.get?_push_of_lt frame (Stack.lt_depth_of_get? read)).trans read, saves⟩

/-- What is written back was saved. -/
theorem of_restore (retains : (store.restore frame).Retains group bounds) :
    (store.push frame).Retains group bounds := by
  rcases retains with held | ⟨index, found, read, saves⟩
  · have written : ∀ number saved, frame.savedBounds? number = some saved →
        (store.setGroup number saved).registers.boundsOf group = bounds →
          (store.push frame).Retains group bounds := by
      intro number saved isSaved held
      rcases store.boundsOf_setGroup_or number saved group with same | ⟨rfl, same⟩
      · exact .inl (same.symm.trans held)
      · rw [same] at held
        subst held
        exact .inr ⟨store.depth, frame, store.stack.get?_depth_push frame, isSaved⟩
    cases frame with
    | groupStart number position saved | groupEnd number position saved =>
        exact written number saved (if_pos rfl) held
    | _ => exact .inl held
  · obtain ⟨original, there, same⟩ := get?_restore read
    have kept : store.Retains group bounds := by
      refine .inr ⟨index, original, there, ?_⟩
      rcases same with rfl | ⟨count, rfl⟩
      · exact saves
      · cases original <;> exact saves
    exact kept.push frame

/-- Going back writes back what was saved. -/
theorem of_unwind {test : Frame → Bool} (retains : (store.unwind test).2.Retains group bounds) :
    store.Retains group bounds :=
  @unwind_invariant
    (fun other => ∀ bounds, other.Retains group bounds → store.Retains group bounds) test
    (fun _ frame _ earlier bounds retains => earlier bounds (retains.push frame))
    (fun _ _ earlier bounds retains => earlier bounds retains.of_restore) store
    (fun _ retains => retains) bounds retains

end Store.Retains

namespace Move

variable {program : Program} {store : Store} {move : Move} {group : Nat} {bounds : Bounds}

/-- Bounds that a register holds behind a move were retained before, or were written by it. -/
theorem retains_boundsOf_onStore (store : Store) (move : Move) (group : Nat) :
    store.Retains group ((move.onStore store).registers.boundsOf group) ∨
      ∃ effect, move = .perform effect ∧
        effect.written? store = some (group, (move.onStore store).registers.boundsOf group) := by
  have of_setGroup : ∀ (effect : Effect) (pushed : Store) (number : Nat) (bounds : Bounds),
      move = .perform effect → move.onStore store = pushed.setGroup number bounds →
        pushed.registers = store.registers → effect.written? store = some (number, bounds) →
          store.Retains group ((move.onStore store).registers.boundsOf group) ∨
            ∃ effect, move = .perform effect ∧ effect.written? store =
              some (group, (move.onStore store).registers.boundsOf group) := by
    intro effect pushed number bounds performs stored same writes
    rw [stored]
    rcases pushed.boundsOf_setGroup_or number bounds group with older | ⟨rfl, own⟩
    · rw [older, same]
      exact .inl (.inl rfl)
    · rw [own]
      exact .inr ⟨effect, performs, writes⟩
  cases move with
  | perform effect =>
      cases effect with
      | openGroup number position => exact of_setGroup _ (store.push _) _ _ rfl rfl rfl rfl
      | closeGroup number position => exact of_setGroup _ (store.push _) _ _ rfl rfl rfl rfl
      | clearGroup number => exact of_setGroup _ (store.push _) _ _ rfl rfl rfl rfl
      | setGroup number bounds => exact of_setGroup _ store _ _ rfl rfl rfl rfl
      | unwindTo mark => exact .inl (Store.Retains.of_unwind (.inl rfl))
      | discard =>
          refine .inl (.inl ?_)
          simp only [onStore, Effect.onStore, Store.discard]
          split <;> rfl
      | _ => exact .inl (.inl rfl)
  | backtrack => exact .inl (Store.Retains.of_unwind (.inl rfl))
  | _ => exact .inl (.inl rfl)

/-- Bounds that are retained behind a move were retained before, or were written by it. -/
theorem retains_of_onStore (regular : move.Regular program)
    (retains : (move.onStore store).Retains group bounds) :
    store.Retains group bounds ∨
      ∃ effect, move = .perform effect ∧ effect.written? store = some (group, bounds) := by
  rcases retains with rfl | ⟨index, found, read, saves⟩
  · exact retains_boundsOf_onStore store move group
  · left
    rcases get?_onStore regular read with ⟨frame, there, becomes⟩ | ⟨_, effect, rfl, pushes⟩
    · exact .inr ⟨index, frame, there, by rw [← becomes.savedBounds?_eq]; exact saves⟩
    · exact .inl (effect.boundsOf_of_frame? regular pushes saves)

/-- A frame of a group stays as long as the stack is deep enough. -/
theorem get?_onStore_of_group? (regular : move.Regular program) {frame : Frame}
    (own : frame.group? = some group) {index : Nat} (read : store.stack.get? index = some frame)
    (deep : index < (move.onStore store).depth) :
    (move.onStore store).stack.get? index = some frame := by
  obtain ⟨later, readLater, becomes⟩ := exists_get?_onStore regular read deep
  rw [readLater, becomes.eq_of_group? own]

/-- Bounds that are rooted before a move and behind it stand for the same positions. -/
theorem resolveBounds_onStore (regular : move.Regular program) {limit later : Nat}
    (rooted : bounds.RootedIn store.stack group limit)
    (stays : bounds.RootedIn (move.onStore store).stack group later) :
    (move.onStore store).resolveBounds bounds = store.resolveBounds bounds := by
  have same : ∀ bound, (∀ index, bound = .inFrame index → ∃ frame,
      frame.group? = some group ∧ store.stack.get? index = some frame ∧
        index < (move.onStore store).depth) →
      (move.onStore store).resolve? bound = store.resolve? bound := by
    intro bound held
    cases bound with
    | unset | direct position => rfl
    | inFrame index =>
        obtain ⟨frame, own, read, deep⟩ := held index rfl
        rw [Store.resolve?, Store.resolve?, get?_onStore_of_group? regular own read deep, read]
  rw [Store.resolveBounds, Store.resolveBounds, same bounds.start ?start, same bounds.stop ?stop]
  case start =>
    intro index isFrame
    obtain ⟨_, position, saved, read⟩ := rooted.start index isFrame
    obtain ⟨_, _, _, there⟩ := stays.start index isFrame
    exact ⟨_, rfl, read, Stack.lt_depth_of_get? there⟩
  case stop =>
    intro index isFrame
    obtain ⟨_, position, saved, read⟩ := rooted.stop index isFrame
    obtain ⟨_, _, _, there⟩ := stays.stop index isFrame
    exact ⟨_, rfl, read, Stack.lt_depth_of_get? there⟩

end Move

/-! ### Where groups were opened and closed -/

/-- Whether the frames of groups hold no position behind a given one. -/
def Stack.Passed (last : Nat) (stack : Stack) : Prop :=
  stack.All fun frame => ∀ position, frame.position? = some position → position ≤ last

/-- The frames of groups that a dispatch pushes hold the position at which it stands. -/
theorem Attempt.position?_of_pushes {attempt : Attempt} {point : Point} {store current : Store}
    {effect : Effect} (mem : .perform effect ∈ attempt.moves point store) {frame : Frame}
    (pushes : effect.frame? current = some frame) {position : Nat}
    (holds : frame.position? = some position) : position = point.cursor.position := by
  obtain ⟨instruction, _, causes | ⟨_, rfl⟩⟩ := exists_causes_of_mem_moves mem
  · cases causes <;> cases pushes <;> cases holds
    all_goals rfl
  · cases pushes
    cases holds

namespace Stack.Passed

variable {stack : Stack} {last : Nat}

theorem mono (passed : stack.Passed last) {later : Nat} (onward : last ≤ later) :
    stack.Passed later :=
  fun index frame read position holds =>
    Nat.le_trans (passed index frame read position holds) onward

theorem setEntryCount (passed : stack.Passed last) (index count : Nat) :
    (stack.setEntryCount index count).Passed last := by
  refine All.setEntryCount passed (fun frame count good => ?_) index count
  cases frame <;> exact good

theorem commit (passed : stack.Passed last) (mark : Mark) : (stack.commit mark).2.Passed last := by
  refine All.commit passed (fun frame good => ?_) nofun mark
  cases frame <;> exact good

end Stack.Passed

namespace Search

variable {setting : Setting} {search next : Search} {point : Point} {left : Store}

/-- All along a dispatch the frames of groups hold positions that the search has come to. -/
theorem passed_of_visit (passed : search.store.stack.Passed search.point.cursor.position) :
    ∀ visit ∈ Move.trail setting search (setting.moves search.point search.store),
      visit.after.store.stack.Passed search.point.cursor.position := by
  obtain ⟨_, leads, _⟩ :=
    Move.leads_trail setting search (setting.moves search.point search.store)
  have along := @Visit.Leads.invariant
    (fun state => state.store.stack.Passed search.point.cursor.position) _ _ _ leads passed (by
      intro visit mem before index frame read position holds
      obtain ⟨made, attempted⟩ := Move.of_mem_trail mem
      rw [Move.store_of_attempt attempted] at read
      rcases Move.get?_onStore (Attempt.regular_of_mem_moves made) read with
        ⟨older, there, becomes⟩ | ⟨_, effect, performs, pushes⟩
      · rw [becomes.position?_eq] at holds
        exact before index older there position holds
      · rw [performs] at made
        exact Nat.le_of_eq (Attempt.position?_of_pushes made pushes holds))
  exact fun visit mem => (along.1 visit mem).2

/-- A dispatch that goes on and has not failed was not to go back to a choice. -/
theorem backtrack_not_mem_moves (stepped : search.step setting = .ok next)
    (goesOn : next.failures = search.failures) :
    .backtrack ∉ setting.moves search.point search.store := by
  have noFailure := fail_not_mem_moves stepped goesOn
  obtain ⟨climbing, closing, split, climbs, closes⟩ :=
    setting.ordered_moves search.point search.store
  rw [split, List.mem_append] at noFailure ⊢
  rintro (climbed | closed)
  · exact (climbs _ climbed).ne_backtrack rfl
  · cases closes <;> simp [Move.failing] at closed noFailure

/-- Wherever a dispatch lets the search go on is good, if the dispatch keeps to good cursors. -/
theorem Leaves.stands {Good : Cursor → Prop} (leaves : search.Leaves setting point left)
    (start : Good search.point.cursor)
    (own : ∀ move ∈ setting.moves search.point search.store, move.Stands Good) :
    Good point.cursor := by
  cases leaves with
  | @atOnce next stepped goesOn =>
      have onward := backtrack_not_mem_moves stepped goesOn
      obtain ⟨_, leads, ends⟩ :=
        Move.leads_trail setting search (setting.moves search.point search.store)
      rw [step_eq_play] at stepped
      rw [ends next stepped]
      refine (@Visit.Leads.invariant (fun state => Good state.point.cursor) _ _ _ leads start ?_).2
      intro visit mem before
      obtain ⟨made, attempted⟩ := Move.of_mem_trail mem
      refine stands_of_attempt before (own _ made) ?_ attempted
      rintro isBack
      exact onward (isBack ▸ made)
  | @later visit frame _ mem pushes resumes =>
      have stands := own _ (Move.of_mem_trail mem).1
      rw [pushes] at stands
      cases frame with
      | choice | lookNot | behindNot =>
          cases resumes
          exact stands
      | _ => cases resumes

section

variable (forward : ∀ instruction ∈ setting.program.code, instruction.goesBack = false)

include forward

/-- A program that never goes back in the text stays within the span. -/
theorem between_of_advance {store : Store} {dispatches : Nat}
    (reaches : (start setting store).advance setting dispatches = .ok search) :
    search.point.cursor.Between setting.input.start setting.range := by
  refine (stands_between (fun state _ => ?_) search (mem_dispatched_of_advance reaches)).cursor
  unfold goesBeforeStart
  split
  · next fetched => cases forward _ (Array.mem_of_getElem? fetched)
  · next fetched => cases forward _ (Array.mem_of_getElem? fetched)
  · rfl

/-- Wherever a dispatch lets the search go on is no earlier in the text. -/
theorem Leaves.position_le (leaves : search.Leaves setting point left)
    (within : search.point.cursor.position ≤ setting.range) :
    search.point.cursor.position ≤ point.cursor.position := by
  have here : search.point.cursor.Between search.point.cursor.position setting.range :=
    ⟨Nat.le_refl _, within⟩
  have carries := setting.carriesOnward_between search.point.cursor.position
  refine (leaves.stands here fun move mem => ?_).1
  refine Attempt.stands_of_mem_moves_of_goes (carries.stars within here) ?_ mem
  intro instruction fetched
  exact (Plan.lands_ofInstruction within instruction).mono fun _ =>
    Attempt.Lands.good_onward carries here (forward _ (Array.mem_of_getElem? fetched))

/-- In a run that never goes back in the text and throws away nothing but choices, the frames of
groups hold positions that the search has come to on its route. -/
theorem passed_of_advance {store : Store} {dispatches : Nat}
    (discards : ∀ visit ∈ trail setting dispatches (start setting store), visit.DiscardsChoice)
    (reaches : (start setting store).advance setting dispatches = .ok search) :
    search.store.stack.Passed search.point.cursor.position := by
  refine @route_invariant setting search store dispatches
    (fun _ state => state.store.stack.Passed state.point.cursor.position) reaches discards .empty ?_
  intro next latest earlier suffix own follows passed
  obtain ⟨_, reached, _⟩ := trail_of_mem_route (suffix.subset List.mem_cons_self)
  obtain ⟨left, leaves, same⟩ := follows
  rw [Store.stack_eq_of_reverted same]
  refine Stack.Passed.mono ?_ (leaves.position_le forward (between_of_advance forward reached).2)
  refine leaves.stack_invariant own passed (fun stack index count => ?_) ?_
    (fun mark _ stack passed => passed.commit mark) fun stack point passed => Stack.All.lower passed
  · exact fun passed => Stack.Passed.setEntryCount passed index count
  · intro effect made store frame pushes stack passed
    refine Stack.All.push passed fun position holds => ?_
    exact Nat.le_of_eq (Attempt.position?_of_pushes made pushes holds)

end

end Search

/-! ### Bounds in order -/

/-- Whether bounds start in a frame, if they do, and do not end before they start. -/
structure Bounds.InOrder (store : Store) (bounds : Bounds) : Prop where
  logged : ∀ position, bounds.start ≠ .direct position
  ordered : ∀ first last, store.resolveBounds bounds = (some first, some last) → first ≤ last

/-- Whether all bounds of groups that a store retains are in order. -/
def Store.Ordered (store : Store) : Prop :=
  ∀ group bounds, store.Retains group bounds → bounds.InOrder store

namespace Store.Ordered

variable {store : Store}

theorem reset (store : Store) : store.reset.Ordered := by
  intro group bounds retains
  rcases retains with held | ⟨index, frame, read, _⟩
  · rw [boundsOf_reset] at held
    subst held
    exact ⟨nofun, nofun⟩
  · cases read

/-- What a group lies between is in order. -/
theorem span? (ordered : store.Ordered) {group first last : Nat}
    (found : store.span? group = some (first, last)) : first ≤ last := by
  unfold Store.span? at found
  split at found
  · next start stop resolved =>
    cases found
    exact (ordered group _ (.inl rfl)).ordered first last resolved
  · cases found

end Store.Ordered

namespace Search

variable {setting : Setting} {search : Search} {visit : Visit}

/-- What a dispatch writes to a group starts as the group does or where a frame is pushed, and it
ends, if it does, at the position at which the dispatch stands. -/
theorem written_of_visit (logged : ∀ group, .openGroup group false ∉ setting.program.code)
    (mem : visit ∈ Move.trail setting search (setting.moves search.point search.store))
    {effect : Effect} (performs : visit.move = .perform effect) {group : Nat} {bounds : Bounds}
    (writes : effect.written? visit.before.store = some (group, bounds)) :
    (bounds.start = (visit.before.store.registers.boundsOf group).start ∨
        ∀ position, bounds.start ≠ .direct position) ∧
      ∀ last, visit.after.store.resolve? bounds.stop = some last →
        last = search.point.cursor.position := by
  obtain ⟨made, attempted⟩ := Move.of_mem_trail mem
  rw [Move.store_of_attempt attempted, performs]
  rw [performs] at made
  cases effect with
  | openGroup | clearGroup =>
      cases writes
      exact ⟨.inr nofun, nofun⟩
  | closeGroup number position =>
      cases writes
      refine ⟨.inl rfl, fun last found => ?_⟩
      obtain ⟨frame, read, holds⟩ := Option.bind_eq_some_iff.1 found
      have onTop : frame = .groupEnd group position (visit.before.store.registers.boundsOf group) :=
        Option.some.inj (read.symm.trans (Stack.get?_depth_push ..))
      exact Attempt.position?_of_pushes made (congrArg some onTop.symm) holds
  | setGroup number written =>
      cases writes
      cases writes_of_mem_trail mem performs with
      | unset => exact ⟨.inr nofun, nofun⟩
      | start opens => exact absurd (Array.mem_of_getElem? opens) (logged _)
      | stop =>
          refine ⟨.inl rfl, ?_⟩
          rintro last ⟨⟩
          rfl
  | _ => cases writes

/-- A dispatch keeps bounds in order all along, if the search has passed what lies in frames: what
it closes ends where it stands. -/
theorem ordered_of_visit (logged : ∀ group, .openGroup group false ∉ setting.program.code)
    (passed : search.store.stack.Passed search.point.cursor.position)
    (mem : visit ∈ Move.trail setting search (setting.moves search.point search.store))
    (before : visit.before.store.Rooted) (after : visit.after.store.Rooted)
    (ordered : visit.before.store.Ordered) : visit.after.store.Ordered := by
  obtain ⟨made, attempted⟩ := Move.of_mem_trail mem
  have stored := Move.store_of_attempt attempted
  have regular := Attempt.regular_of_mem_moves made
  intro group bounds retains
  have stays := after.of_retains retains
  rw [stored] at retains stays
  rcases Move.retains_of_onStore regular retains with older | ⟨effect, performs, writes⟩
  · have inOrder := ordered group bounds older
    refine ⟨inOrder.logged, ?_⟩
    rw [stored, Move.resolveBounds_onStore regular (before.of_retains older) stays]
    exact inOrder.ordered
  · obtain ⟨start, stop⟩ := written_of_visit logged mem performs writes
    have inFrame : ∀ position, bounds.start ≠ .direct position := by
      rcases start with same | inFrame
      · rw [same]
        exact (ordered group _ (.inl rfl)).logged
      · exact inFrame
    refine ⟨inFrame, fun first last resolved => ?_⟩
    -- The start lies in a frame, and the search has passed all of them.
    rw [stop last (congrArg Prod.snd resolved)]
    have started : visit.after.store.resolve? bounds.start = some first :=
      congrArg Prod.fst resolved
    cases isStart : bounds.start with
    | unset =>
        rw [isStart] at started
        cases started
    | direct position => exact absurd isStart (inFrame position)
    | inFrame index =>
        rw [isStart] at started
        obtain ⟨frame, read, holds⟩ := Option.bind_eq_some_iff.1 started
        exact passed_of_visit passed visit mem index frame read first holds

/-- What a dispatch records of groups are positions at which it stands. -/
theorem records_of_visit {Good : Nat → Prop} (start : Good search.point.cursor.position)
    (mem : visit ∈ Move.trail setting search (setting.moves search.point search.store))
    (records : visit.before.store.Records Good) :
    (visit.move.onStore visit.before.store).Records Good := by
  have made := (Move.of_mem_trail mem).1
  cases performs : visit.move with
  | perform effect =>
      rw [performs] at made
      refine records.onStore ?_
      cases effect with
      | push frame =>
          have nothing : frame.savesNothing = true := Attempt.regular_of_mem_moves made
          cases frame <;> first | exact trivial | cases nothing
      | openGroup group position | closeGroup group position =>
          have stands : position = search.point.cursor.position :=
            @Attempt.position?_of_pushes _ _ _ visit.before.store _ made _ rfl position rfl
          exact stands ▸ start
      | setGroup group bounds =>
          have own := records.bounds group
          cases writes_of_mem_trail mem performs with
          | unset => exact .unset
          | start => exact ⟨start, own.stop⟩
          | stop => exact ⟨own.start, start⟩
      | _ => exact trivial
  | backtrack => exact records.unwind _
  | _ => exact records

variable {store : Store} {dispatches : Nat}
  (forward : ∀ instruction ∈ setting.program.code, instruction.goesBack = false)
  (logged : ∀ group, .openGroup group false ∉ setting.program.code)
  (discards : ∀ visit ∈ trail setting dispatches (start setting store), visit.DiscardsChoice)

include forward

/-- All positions of groups that a run records lie in its span, if it never goes back in the
text. -/
theorem records_of_advance
    (reaches : (start setting store).advance setting dispatches = .ok search) :
    search.store.Records fun position =>
      setting.input.start ≤ position ∧ position ≤ setting.range := by
  refine @store_invariant setting dispatches _ (Store.Records _) search reaches (.reset store) ?_
  intro visit mem records
  obtain ⟨state, stateMem, made⟩ := exists_dispatched_visit mem
  obtain ⟨_, reached, _⟩ := exists_advance_of_mem_dispatched stateMem
  exact records_of_visit (between_of_advance forward reached) made records

include logged discards

/-- Bounds are in order wherever a run dispatches that never goes back in the text, logs the starts
of groups and throws away nothing but choices. -/
theorem ordered_of_advance
    (reaches : (start setting store).advance setting dispatches = .ok search) :
    search.store.Ordered := by
  have along := @Visit.Leads.invariant
    (fun state => state.store.Coherent setting.program ∧ state.store.Ordered) _ _ _
    (leads_trail_of_advance reaches) ⟨.reset store, .reset store⟩ (by
      rintro visit mem ⟨coherent, ordered⟩
      have coherent' := coherent_of_visit discards mem coherent
      obtain ⟨state, stateMem, made⟩ := exists_dispatched_visit mem
      obtain ⟨passed, reached, visited⟩ := exists_advance_of_mem_dispatched stateMem
      have passedBy := passed_of_advance forward
        (fun visit earlier => discards visit (visited (List.mem_append_left _ earlier))) reached
      exact ⟨coherent', ordered_of_visit logged passedBy made coherent.rooted coherent'.rooted
        ordered⟩)
  exact along.2.2

end Search

/-! ### Regions of spans -/

/-- Whether a region reports groups as spans between two positions: the whole match from the first
one on, and of every group both bounds or none, in order. -/
structure Region.SpansBetween (start range : Nat) (region : Region) : Prop where
  whole : ∃ stop, region.span? 0 = some (start, stop)
  paired : ∀ group, (region.starts.getD group none).isSome = (region.stops.getD group none).isSome
  between : ∀ group first last, region.span? group = some (first, last) →
    start ≤ first ∧ first ≤ last ∧ last ≤ range

namespace Store

variable {store : Store} {slots start stop : Nat}

/-- The region of a match reports the groups of a store, and the match in place of the first one. -/
theorem eq_or_span?_of_region {group first last : Nat}
    (found : (store.region slots start stop).span? group = some (first, last)) :
    group = 0 ∧ first = start ∧ last = stop ∨ store.span? group = some (first, last) := by
  by_cases inside : group < slots
  · by_cases whole : group = 0
    · subst whole
      rw [store.span?_region inside] at found
      cases found
      exact .inl ⟨rfl, rfl, rfl⟩
    · right
      rw [← found]
      cases span : store.span? group <;> simp [region, Region.span?, inside, whole, span]
  · simp [region, Region.span?, inside] at found

/-- Spans in order make a region of spans. -/
theorem region_spansBetween {range : Nat} (filled : 0 < slots) (onward : start ≤ stop)
    (inside : stop ≤ range)
    (spans : ∀ group first last, store.span? group = some (first, last) →
      start ≤ first ∧ first ≤ last ∧ last ≤ range) :
    (store.region slots start stop).SpansBetween start range where
  whole := ⟨stop, store.span?_region filled start stop⟩
  paired := by
    intro group
    simp only [region, Array.getD_eq_getD_getElem?, Array.getElem?_map]
    cases (Array.range slots)[group]? with
    | none => rfl
    | some slot => simp
  between := by
    intro group first last found
    rcases eq_or_span?_of_region found with ⟨_, rfl, rfl⟩ | found
    · exact ⟨Nat.le_refl _, onward, inside⟩
    · exact spans group first last found

end Store

namespace Engine

variable {engine after : Engine} {dispatches : Nat} {input : Input} {monitor : Monitor}
  {report : Report}

/-- What a match reports lies in the attempt, for every program that never goes back in the text and
logs the starts of groups, in a run that throws away nothing but choices.  Groups may be opened,
closed for good or to be undone, and cleared in any order: a group that is reported starts where the
attempt does or later, does not end before it starts, and ends in the span; the whole match starts
where the attempt does. -/
theorem matches_report_spans
    (forward : ∀ instruction ∈ engine.program.code, instruction.goesBack = false)
    (logged : ∀ group, .openGroup group false ∉ engine.program.code)
    (discards : ∀ visit ∈ Search.trail (engine.setting input monitor) dispatches
      (.start (engine.setting input monitor) engine.store), visit.DiscardsChoice)
    (ran : engine.exec? dispatches input monitor = some (report, after)) :
    report.outcome.ReportsOnly (Region.SpansBetween input.start input.range) := by
  obtain ⟨ending, ended, same, _⟩ := ending_of_exec? ran
  rw [same]
  refine Search.reportsOnly_of_run? (fun state mem _ => ?_) ended
  obtain ⟨passed, reached, visited⟩ := Search.exists_advance_of_mem_dispatched mem
  have stands := Search.between_of_advance forward reached
  have records := Search.records_of_advance forward reached
  have ordered := Search.ordered_of_advance forward logged
    (fun visit earlier => discards visit (visited (List.mem_append_left _ earlier))) reached
  refine Store.region_spansBetween (Nat.succ_pos _) stands.1 stands.2 ?_
  intro group first last found
  obtain ⟨atFirst, atLast⟩ := records.span? found
  exact ⟨atFirst.1, ordered.span? found, atLast.2⟩

/-- A group is closed for good on a way that is given up.  Its end stays, and lies behind the end of
the match. -/
theorem matches_report_spans_of_end_given_up :
    let program : Program :=
      { code := #[.openGroup 1 true, .push 4, .byte 97, .closeGroup 1 false, .fail, .push 1, .pop,
          .accept]
        templates := #[], classes := #[], repeatRanges := #[], groupCount := 1
        emptyCheckCount := 0, loggedStarts := GroupMask.empty.insert 1, loggedEnds := .empty
        options := .none, encoding := .utf8 }
    let engine := withConfig program ⟨.unlimited, .none⟩
    let input := (Input.whole ⟨#[120, 97, 98]⟩).span 1 3
    let region : Region := ⟨#[some 1, some 1], #[some 1, some 2]⟩
    ∃ report after, engine.exec? 8 input .patient = some (report, after) ∧
      report.outcome = .matched region ∧ region.SpansBetween 1 3 := by
  intro program engine input region
  have forward : ∀ instruction ∈ engine.program.code, instruction.goesBack = false := by
    decide +kernel
  have logged : ∀ group, .openGroup group false ∉ engine.program.code := by
    intro group
    simp [engine, program, withConfig]
  have discards : ∀ visit ∈ Search.trail (engine.setting input .patient) 8
      (.start (engine.setting input .patient) engine.store), visit.DiscardsChoice := by
    decide +kernel
  have ended : (engine.exec? 8 input .patient).map (fun answer => answer.1.outcome) =
      some (.matched region) := by decide +kernel
  obtain ⟨⟨report, after⟩, ran, outcome⟩ := Option.map_eq_some_iff.1 ended
  exact ⟨report, after, ran, outcome,
    matches_report_spans forward logged discards ran region outcome⟩

end Engine

end PatternMachine
