import PatternMachine.Proofs.Beneath
import PatternMachine.Proofs.Bracket
import PatternMachine.Proofs.Watched

/-!
# Atomic groups and lookaheads commit

When a lookahead or an atomic group ends, its mark and the choices inside are given up, but what
undoes the groups and counts that were set inside stays on the stack.  So the choices that are left
are those that there were when the bracket was opened, and a later failure into one of them still
goes back to what was there when that choice was left
(`Search.brackets_give_up_inner_choices`).  A bracket that ends inside but was opened before would
give up choices that are older than the mark (`Search.crossed_brackets_give_up_older_choices`).
-/

namespace PatternMachine

namespace Stack

variable {stack : Stack} {inside outside : List (Frame × Nat)} {frame : Frame} {depth : Nat}
  {mark : Mark}

theorem isOpening_of_isMark (bracket : mark = .look ∨ mark = .atomic) (frame : Frame)
    (isMark : frame.isMark mark = true) : frame.isOpening = true := by
  rcases bracket with rfl | rfl <;> cases frame <;> first | rfl | cases isMark

/-- A bracket that has opened above a mark ends above it. -/
theorem exists_lastIndex?_of_openings (bracket : mark = .look ∨ mark = .atomic)
    (split : stack.openings = inside ++ (frame, depth) :: outside)
    (opened : ∃ opening ∈ inside, opening.1.isMark mark = true) :
    ∃ last, stack.lastIndex? (Frame.isMark mark) = some last ∧ depth < last := by
  have ordered := stack.pairwise_openings
  rw [split, List.pairwise_append] at ordered
  rw [lastIndex?_eq stack (isOpening_of_isMark bracket), split, List.find?_append]
  cases found : inside.find? fun opening => opening.1.isMark mark with
  | some opening =>
      refine ⟨opening.2, rfl, ?_⟩
      exact ordered.2.2 opening (List.mem_of_find?_eq_some found) _ List.mem_cons_self
  | none =>
      obtain ⟨opening, mem, isMark⟩ := opened
      exact absurd isMark (List.find?_eq_none.1 found opening mem)

/-- If all brackets of a kind that have opened above a mark of that kind have ended, the mark is the
last one. -/
theorem lastIndex?_of_openings (bracket : mark = .look ∨ mark = .atomic)
    (split : stack.openings = inside ++ (frame, depth) :: outside)
    (isMark : frame.isMark mark = true)
    (ended : ∀ opening ∈ inside, opening.1.isMark mark = false) :
    stack.lastIndex? (Frame.isMark mark) = some depth := by
  have none_inside : inside.find? (fun opening => opening.1.isMark mark) = none := by
    rw [List.find?_eq_none]
    intro opening mem
    rw [ended opening mem]
    exact Bool.noConfusion
  rw [lastIndex?_eq stack (isOpening_of_isMark bracket), split, List.find?_append, none_inside,
    Option.none_or, List.find?_cons]
  dsimp only
  rw [isMark]
  rfl

end Stack

namespace Store

/-- What is offered after the end of a bracket was offered below its mark. -/
theorem offers_commit_iff {store : Store} {mark : Mark} {last index : Nat} {frame : Frame}
    (found : store.stack.lastIndex? (Frame.isMark mark) = some last) :
    (store.commit mark).2.Offers index frame ↔ index < last ∧ store.Offers index frame := by
  constructor
  · intro offers
    obtain ⟨other, found', below⟩ := offers.lt_of_commit
    obtain rfl : other = last := Option.some.inj (found'.symm.trans found)
    exact ⟨below, offers.of_commit⟩
  · rintro ⟨below, offers⟩
    refine ⟨?_, offers.2⟩
    exact (Stack.get?_commit found index).trans ((if_pos below).trans offers.1)

/-- What is offered below a depth is what going back to that depth leads to. -/
theorem offers_rewind_iff {store : Store} {depth index : Nat} {frame : Frame}
    (within : depth ≤ store.depth) :
    (store.rewind depth).Offers index frame ↔ index < depth ∧ store.Offers index frame := by
  constructor
  · intro offers
    refine ⟨?_, offers.of_rewind⟩
    have below := offers.lt_depth
    rwa [store.depth_rewind within] at below
  · rintro ⟨below, offers⟩
    exact offers.rewind within below

/-- What is offered is among what going back brings back. -/
theorem offers_congr {program : Program} {store other : Store}
    (same : other.reverted program = store.reverted program) (index : Nat) (frame : Frame) :
    other.Offers index frame ↔ store.Offers index frame := by
  have stack : (other.reverted program).stack = (store.reverted program).stack := by rw [same]
  rw [stack_reverted, stack_reverted] at stack
  rw [Offers, Offers, stack]

end Store

namespace Search

variable {setting : Setting} {search : Search} {point : Point} {left : Store} {mark : Mark}
  {frame : Frame}

/-- What lies below a mark stays as it is when a dispatch ends no bracket that was opened below. -/
theorem Leaves.reverted_rewind (leaves : search.Leaves setting point left)
    (discards : ∀ visit ∈ Move.trail setting search (setting.moves search.point search.store),
      visit.DiscardsChoice) {depth : Nat}
    (read : search.store.stack.get? depth = some frame) (noChoice : frame.isChoice = false)
    (closes : ∀ mark, search.closing? setting.program = some mark →
      ∃ last, search.store.stack.lastIndex? (Frame.isMark mark) = some last ∧ depth ≤ last) :
    (left.rewind depth).reverted setting.program =
      (search.store.rewind depth).reverted setting.program := by
  cases ends : search.closing? setting.program with
  | some mark =>
      obtain ⟨rfl, _⟩ := leaves.store_of_closing ends
      obtain ⟨last, found, lower⟩ := closes mark ends
      rw [Store.rewind_commit _ found lower]
  | none =>
      refine (@Leaves.invariant setting search point left (fun store => search.store.StaysIn store ∧
        (store.rewind depth).reverted setting.program =
          (search.store.rewind depth).reverted setting.program) leaves discards
        ⟨.refl _, rfl⟩ ?_ ?_).2
      · rintro move mem climbs store ⟨stays, kept⟩
        have reversible := Attempt.reversible_of_mem_moves mem
        obtain ⟨later, readLater, _⟩ := stays depth frame read noChoice
        have within := Nat.le_of_lt (Stack.lt_depth_of_get? readLater)
        refine ⟨stays.onStore reversible.regular climbs, ?_⟩
        rw [← kept]
        refine Move.reverted_rewind reversible (fun discards => absurd discards climbs.ne_discard)
          ?_ within (Nat.le_trans within (climbs.1 store))
        -- Only what ends a bracket commits.
        rintro mark rfl
        obtain ⟨instruction, fetched, causes | ⟨point', isChoice⟩⟩ :=
          Attempt.exists_causes_of_mem_moves mem
        · rw [closing?, fetched] at ends
          cases causes <;> cases ends
        · cases isChoice
      · rintro store point ⟨stays, kept⟩
        obtain ⟨later, readLater, _⟩ := stays.lower depth frame read noChoice
        refine ⟨stays.lower, ?_⟩
        rw [← kept, Store.rewind_push_plain _ (.of_isResumable rfl)
          (Nat.le_of_lt (Stack.lt_depth_of_get? readLater))]

variable {opener : Search} {since before : List Search} {store : Store} {dispatches : Nat}

/-- While a bracket is open, what lies below its mark is what there was when it was opened. -/
theorem reverted_rewind_opener
    (reaches : (start setting store).advance setting dispatches = .ok search)
    (discards : ∀ visit ∈ trail setting dispatches (start setting store), visit.DiscardsChoice)
    (split : route setting dispatches [] (start setting store) = since ++ opener :: before)
    (opens : opener.opening? setting.program = some frame)
    (balanced : Balanced setting.program since) :
    (search.store.rewind opener.store.depth).reverted setting.program =
      opener.store.reverted setting.program := by
  have plain : frame.IsPlain ∧ frame.isChoice = false := by
    have isOpening := isOpening_of_opening? opens
    cases frame with
    | look | atomic | emptyCheck => exact ⟨fun _ => rfl, rfl⟩
    | _ => cases isOpening
  refine (@route_invariant setting search store dispatches
    (fun path state => state.store.stack.openings = openings setting.program path ∧
      ∀ since, path = since ++ opener :: before → Balanced setting.program since →
        (state.store.rewind opener.store.depth).reverted setting.program =
          opener.store.reverted setting.program) reaches discards ⟨rfl, by simp⟩ ?_).2 since split
    balanced
  rintro next latest earlier _ discards follows ⟨marks, kept⟩
  refine ⟨follows.openings_eq discards marks, ?_⟩
  intro since passed balanced
  obtain ⟨left, leaves, same⟩ := follows
  rw [Store.reverted_rewind_congr same]
  cases since with
  | nil =>
      obtain ⟨rfl, rfl⟩ := List.cons.inj passed
      rw [leaves.store_of_opening opens, Store.rewind_push_plain _ plain.1 (Nat.le_refl _),
        Store.rewind_depth]
  | cons dispatch since =>
      obtain ⟨rfl, rfl⟩ := List.cons.inj passed
      replace marks : latest.store.stack.openings =
        openings setting.program (since ++ opener :: before) := marks
      rw [balanced.1.openings_append, openings, opens] at marks
      have read : latest.store.stack.get? opener.store.depth = some frame := by
        refine @Stack.get?_of_mem_openings latest.store.stack (frame, opener.store.depth) ?_
        rw [marks]
        exact List.mem_append_right _ List.mem_cons_self
      rw [leaves.reverted_rewind discards read plain.2, kept since rfl balanced.1]
      intro mark closes
      obtain ⟨last, found, higher⟩ := Stack.exists_lastIndex?_of_openings
        (leaves.store_of_closing closes).2 marks (balanced.2 mark closes)
      exact ⟨last, found, Nat.le_of_lt higher⟩

/-- The mark of a bracket is the last of its kind if all brackets of that kind that have opened since
have ended. -/
theorem lastIndex?_opener
    (reaches : (start setting store).advance setting dispatches = .ok search)
    (discards : ∀ visit ∈ trail setting dispatches (start setting store), visit.DiscardsChoice)
    (split : route setting dispatches [] (start setting store) = since ++ opener :: before)
    (opens : opener.opening? setting.program = some frame) (isMark : frame.isMark mark = true)
    (bracket : mark = .look ∨ mark = .atomic) (balanced : Balanced setting.program since)
    (ended : ∀ opening ∈ openings setting.program since, opening.1.isMark mark = false) :
    search.store.stack.lastIndex? (Frame.isMark mark) = some opener.store.depth ∧
      search.store.stack.get? opener.store.depth = some frame := by
  have marks := openings_eq reaches discards
  rw [split, balanced.openings_append, openings, opens] at marks
  refine ⟨Stack.lastIndex?_of_openings bracket marks isMark ended, ?_⟩
  refine @Stack.get?_of_mem_openings search.store.stack (frame, opener.store.depth) ?_
  rw [marks]
  exact List.mem_append_right _ List.mem_cons_self

/-- What ends a bracket gives up what is inside and goes on: a lookahead where it has started, an
atomic group where it has come to. -/
theorem plan_of_closing (opens : opener.opening? setting.program = some frame)
    (isMark : frame.isMark mark = true) (closes : search.closing? setting.program = some mark)
    (found : search.store.stack.lastIndex? (Frame.isMark mark) = some opener.store.depth)
    (read : search.store.stack.get? opener.store.depth = some frame) :
    ∃ instruction, setting.program.code[search.point.address]? = some instruction ∧
      Plan.ofInstruction setting.toAttempt search.point search.store instruction =
        .goto search.point.next
          (if mark = .look then opener.point.cursor else search.point.cursor) [.commit mark] := by
  obtain ⟨instruction, fetched, closes⟩ := Option.bind_eq_some_iff.1 closes
  obtain ⟨opening, _, opens⟩ := Option.bind_eq_some_iff.1 opens
  refine ⟨instruction, fetched, ?_⟩
  cases instruction with
  | lookEnd =>
      cases closes
      cases opening with
      | lookStart =>
          cases opens
          simp only [Plan.ofInstruction, Plan.lookEnd, Stack.lookCursor?_eq_some found read, if_true]
      | atomicStart | emptyCheckStart id =>
          cases opens
          cases isMark
      | _ => cases opens
  | atomicEnd =>
      cases closes
      have marked : search.store.stack.hasMark .atomic = true := by
        rw [Stack.hasMark, found]
        rfl
      simp only [Plan.ofInstruction, Plan.atomicEnd, marked, if_true]
      rfl
  | _ => cases closes

/-- An instruction that only ends a bracket and goes on is carried out, unless the caller's hook stops
the run. -/
theorem step_of_commit {instruction : Instruction} {address : Nat} {cursor : Cursor}
    (fetched : setting.program.code[search.point.address]? = some instruction)
    (plan : Plan.ofInstruction setting.toAttempt search.point search.store instruction =
      .goto address cursor [.commit mark]) :
    (∃ ending, search.work setting = .error ending ∧ search.step setting = .error ending) ∨
      ∃ next, search.step setting = .ok next ∧ next.point = ⟨address, cursor⟩ ∧
        next.store = (search.store.commit mark).2 := by
  have stepped := step_of_fetched fetched
  cases permitted : search.work setting with
  | error ending =>
      rw [permitted] at stepped
      exact .inl ⟨ending, rfl, stepped⟩
  | ok worked =>
      rw [permitted, plan] at stepped
      obtain ⟨point, stored⟩ := of_step_goto fetched plan stepped
      exact .inr ⟨_, stepped, point, stored⟩

/-- A choice that was offered where a run has been, and still is with the same below it, is resumed
with the groups as they were when the choice was left. -/
theorem exists_push_of_older_choice {next : Search} {passed more : Nat}
    (knows : setting.program.KnowsLogged)
    (passes : (start setting store).advance setting passed = .ok opener)
    (discarded : ∀ visit ∈ trail setting passed (start setting store), visit.DiscardsChoice)
    (reaches : (start setting store).advance setting dispatches = .ok next)
    {earlier later : List Visit} {resume : Visit}
    (parts : trail setting more next = earlier ++ resume :: later)
    (discards : ∀ visit ∈ earlier, visit.DiscardsChoice) (resumes : resume.move = .backtrack)
    (higher : resume.after.store.depth < next.store.depth)
    (above : ∀ visit ∈ earlier, resume.after.store.depth < visit.after.store.depth)
    (offered : ∀ frame, next.store.Offers resume.after.store.depth frame →
      opener.store.Offers resume.after.store.depth frame)
    (same : (next.store.rewind resume.after.store.depth).reverted setting.program =
      (opener.store.rewind resume.after.store.depth).reverted setting.program) :
    ∃ first push between frame,
      trail setting passed (start setting store) = first ++ push :: between ∧
        push.move = .perform (.push frame) ∧
        push.before.store.depth = resume.after.store.depth ∧
        (∀ visit ∈ between, push.before.store.depth < visit.after.store.depth) ∧
        frame.resume? = some resume.after.point ∧
        ∀ group, group ≠ 0 →
          (∀ instruction ∈ setting.program.code, instruction.written? ≠ some group) →
          resume.after.store.captures group = push.before.store.captures group := by
  have inTrail : ∀ visit ∈ earlier ++ resume :: later,
      visit ∈ trail setting (dispatches + more) (start setting store) := by
    intro visit mem
    rw [trail_add reaches, parts]
    exact List.mem_append_right _ mem
  have resumeMem := inTrail resume (List.mem_append_right _ List.mem_cons_self)
  obtain ⟨frame, offers, resumesAt, rewound⟩ := offers_of_backtrack resumeMem resumes
  -- From here back to where the run has been: what lies below has not changed.
  obtain ⟨_, leads⟩ := leads_trail setting more next
  rw [parts] at leads
  obtain ⟨_, leads, ⟨rfl, _⟩⟩ := leads.split
  obtain ⟨offers, kept⟩ := @Visit.Leads.offers setting.program earlier next resume.before _ frame
    leads (fun visit mem => undoable_of_mem_trail (inTrail visit (List.mem_append_left _ mem))
      (discards visit mem)) higher above offers
  -- From there back to where the choice was left.
  have nothing : ¬ (start setting store).store.Offers resume.after.store.depth frame := by
    rintro ⟨⟨⟩, _⟩
  obtain ⟨first, push, between, split, pushes, atDepth, deeper, left⟩ :=
    @Visit.Leads.exists_push setting.program _ (start setting store) opener _ frame
      (leads_trail_of_advance passes)
      (fun visit mem => undoable_of_mem_trail mem (discarded visit mem)) nothing
      (offered frame offers)
  have pushMem : push ∈ trail setting passed (start setting store) := by
    rw [split]
    exact List.mem_append_right _ List.mem_cons_self
  refine ⟨first, push, between, frame, split, pushes, atDepth, ?_, resumesAt, ?_⟩
  · rw [atDepth]
    exact deeper
  · intro group positive unwritten
    have reverted : resume.after.store.reverted setting.program =
        push.before.store.reverted setting.program := by
      rw [rewound, kept, same, left]
    refine Store.captures_eq_of_reverted reverted ?_
    cases logs : setting.program.logs group with
    | true => exact .inl ⟨logs, unwritten⟩
    | false =>
        exact .inr ⟨(idle_of_mem_trail knows positive logs unwritten resume resumeMem).2.unset,
          (idle_of_mem_trail knows positive logs unwritten push pushMem).1.unset⟩

/-- The end of a lookahead or of an atomic group gives up exactly the choices that were left inside.
What can be gone back to afterwards is what could be gone back to when the bracket was opened, in
the same order; all groups lie where they lay right before the end; and the search goes on where it
has come to, or for a lookahead, where that has started.  If the search later fails and goes back to
a choice that is older than the bracket, all groups lie where they lay when that choice was left, if
they are opened and closed by logged instructions alone.  This holds for built programs, in runs
that throw away nothing but choices, if since the bracket was opened each bracket that has ended had
opened, and each of its kind that had opened has ended. -/
theorem brackets_give_up_inner_choices {encoding : Encoding} {calls : List Builder.Call}
    (built : ((Builder.new encoding).afterCalls calls).build.1 = .ok setting.program)
    (reaches : (start setting store).advance setting dispatches = .ok search)
    (discards : ∀ visit ∈ trail setting dispatches (start setting store), visit.DiscardsChoice)
    (split : route setting dispatches [] (start setting store) = since ++ opener :: before)
    (opens : opener.opening? setting.program = some frame) (isMark : frame.isMark mark = true)
    (closes : search.closing? setting.program = some mark)
    (balanced : Balanced setting.program since)
    (ended : ∀ opening ∈ openings setting.program since, opening.1.isMark mark = false) :
    (∃ ending, search.work setting = .error ending ∧ search.step setting = .error ending) ∨
      ∃ next passed, search.step setting = .ok next ∧
        (start setting store).advance setting passed = .ok opener ∧
        (∀ index frame, next.store.Offers index frame ↔ opener.store.Offers index frame) ∧
        next.store.captures = search.store.captures ∧
        next.point = ⟨search.point.next,
          if mark = .look then opener.point.cursor else search.point.cursor⟩ ∧
        ∀ more earlier resume later,
          trail setting more next = earlier ++ resume :: later →
          (∀ visit ∈ earlier, visit.DiscardsChoice) → resume.move = .backtrack →
          resume.after.store.depth < opener.store.depth →
          (∀ visit ∈ earlier, resume.after.store.depth < visit.after.store.depth) →
          ∃ first push between frame,
            trail setting passed (start setting store) = first ++ push :: between ∧
              push.move = .perform (.push frame) ∧
              push.before.store.depth = resume.after.store.depth ∧
              (∀ visit ∈ between, push.before.store.depth < visit.after.store.depth) ∧
              frame.resume? = some resume.after.point ∧
              ∀ group, group ≠ 0 →
                (∀ instruction ∈ setting.program.code, instruction.written? ≠ some group) →
                resume.after.store.captures group = push.before.store.captures group := by
  have bracket : mark = .look ∨ mark = .atomic := by
    obtain ⟨instruction, _, closes⟩ := Option.bind_eq_some_iff.1 closes
    cases instruction <;> cases closes <;> first | exact .inl rfl | exact .inr rfl
  obtain ⟨found, read⟩ :=
    lastIndex?_opener reaches discards split opens isMark bracket balanced ended
  obtain ⟨instruction, fetched, plan⟩ := plan_of_closing opens isMark closes found read
  have rewinds := reverted_rewind_opener reaches discards split opens balanced
  have deep : opener.store.depth < search.store.depth := Stack.lt_depth_of_get? read
  rcases step_of_commit fetched plan with stopped | ⟨next, stepped, stands, stored⟩
  · exact .inl stopped
  right
  have onRoute : opener ∈ route setting dispatches [] (start setting store) := by
    rw [split]
    exact List.mem_append_right _ List.mem_cons_self
  obtain ⟨passed, passes, visited⟩ := trail_of_mem_route onRoute
  have offered : ∀ index frame, next.store.Offers index frame ↔ opener.store.Offers index frame := by
    intro index frame
    rw [stored, Store.offers_commit_iff found, ← Store.offers_rewind_iff (Nat.le_of_lt deep),
      Store.offers_congr rewinds]
  refine ⟨next, passed, stepped, passes, offered, ?_, stands, ?_⟩
  · rw [stored]
    exact Store.captures_commit found
  · intro more earlier resume later parts discards' resumes older above
    have reachesNext : (start setting store).advance setting (dispatches + 1) = .ok next := by
      rw [advance_add, reaches]
      simp only [Except.bind, advance, stepped]
    have sameDepth : next.store.depth = search.store.depth := by
      rw [stored]
      exact search.store.depth_commit mark
    refine exists_push_of_older_choice (Builder.knowsLogged_of_calls built) passes
      (fun visit mem => discards visit (visited (List.mem_append_left _ mem))) reachesNext parts
      discards' resumes ?_ above (fun frame => (offered _ frame).1) ?_
    · rw [sameDepth]
      exact Nat.lt_trans older deep
    · -- The end of the bracket can be undone below its mark.
      rw [stored, Store.rewind_commit _ found (Nat.le_of_lt older),
        ← Store.rewind_rewind _ (Nat.le_of_lt deep) (Nat.le_of_lt older)]
      exact Store.reverted_rewind_congr rewinds _

/-- A lookahead closes one group, and opens another one in an atomic group that leaves a choice.
After the end of the lookahead the only choice is the one from before, and both groups are still
set.  When the search fails, they are what they were when that choice was left. -/
theorem brackets_give_up_inner_choices_when_nested :
    let calls : List Builder.Call :=
      [.setGroups 2, .newLabel, .newLabel, .emit (.openGroup 1 true), .push ⟨0⟩, .emit .lookStart,
        .emit .atomicStart, .emit (.openGroup 2 true), .push ⟨1⟩, .bind ⟨1⟩, .emit .atomicEnd,
        .emit (.byte 97), .emit (.closeGroup 1 true), .emit .lookEnd, .emit .fail, .bind ⟨0⟩,
        .emit .accept]
    ∃ setting : Setting, ((Builder.new .utf8).afterCalls calls).build.1 = .ok setting.program ∧
      (after setting 6).store.Offers 5 (.choice ⟨6, ⟨0, 0⟩⟩) ∧
      (∀ index frame, (after setting 10).store.Offers index frame ↔
        (after setting 2).store.Offers index frame) ∧
      (after setting 10).store.captures 1 = (some 0, some 1) ∧
      (after setting 10).store.captures 2 = (some 0, none) ∧
      (after setting 9).point.cursor = ⟨1, 0⟩ ∧ (after setting 10).point.cursor = ⟨0, 0⟩ ∧
      ∃ frame, ∃ push resume : Visit, push.move = .perform (.push frame) ∧
        frame.resume? = some ⟨11, ⟨0, 0⟩⟩ ∧ resume.move = .backtrack ∧
        resume.after.point = ⟨11, ⟨0, 0⟩⟩ ∧
        ∀ group ∈ [1, 2], resume.after.store.captures group = push.before.store.captures group := by
  intro calls
  let program : Program :=
    { code := #[.openGroup 1 true, .push 10, .lookStart, .atomicStart, .openGroup 2 true, .push 1,
        .atomicEnd, .byte 97, .closeGroup 1 true, .lookEnd, .fail, .accept]
      templates := #[], classes := #[], repeatRanges := #[], groupCount := 2, emptyCheckCount := 0
      loggedStarts := (GroupMask.empty.insert 1).insert 2, loggedEnds := GroupMask.empty.insert 1
      options := .none, encoding := .utf8 }
  let setting : Setting := ⟨⟨program, .none, .whole ⟨#[97]⟩⟩, .unlimited, .patient⟩
  have built : ((Builder.new .utf8).afterCalls calls).build.1 = .ok setting.program := by
    rfl
  have free : setting.Free := ⟨rfl, fun _ => rfl⟩
  have reaches : (outset setting).advance setting 9 = .ok (after setting 9) :=
    @advance_after setting 0 9 (by decide +kernel)
  have split : route setting 9 [] (outset setting) =
      [after setting 8, after setting 7, after setting 6, after setting 5, after setting 4,
        after setting 3] ++ after setting 2 :: [after setting 1, after setting 0] := by
    decide +kernel
  rcases brackets_give_up_inner_choices built reaches (by decide +kernel) split
      (show _ = some (.look ⟨0, 0⟩) by decide +kernel) (show _ = true by decide +kernel)
      (show _ = some .look by decide +kernel) (by decide +kernel) (by decide +kernel)
    with ⟨_, refused, _⟩ | ⟨next, passed, stepped, passes, offers, captures, stands, restores⟩
  · rw [Move.work_of_free free] at refused
    cases refused
  obtain rfl : after setting 10 = next := by
    have goesOn : (after setting 9).step setting = .ok (after setting 10) :=
      step_after (by decide +kernel)
    exact Except.ok.inj (goesOn.symm.trans stepped)
  let visits := trail setting 1 (after setting 10)
  let resume := visits.get ⟨3, by decide +kernel⟩
  obtain ⟨first, push, between, frame, parts, pushes, _, _, resumesAt, restored⟩ :=
    restores 1 (visits.take 3) resume [] (by decide +kernel) (by decide +kernel)
      (by decide +kernel) (by decide +kernel) (by decide +kernel)
  have resumed : resume.after.point = ⟨11, ⟨0, 0⟩⟩ := by
    decide +kernel
  rw [resumed] at resumesAt
  refine ⟨setting, built, by decide +kernel, offers, ?_, ?_, by decide +kernel, by decide +kernel,
    frame, push, resume, pushes, resumesAt, by decide +kernel, resumed, ?_⟩
  · rw [captures]
    decide +kernel
  · rw [captures]
    decide +kernel
  · intro group mem
    have unwritten : ∀ group ∈ [1, 2], group ≠ 0 ∧
        ∀ instruction ∈ setting.program.code, instruction.written? ≠ some group := by
      decide +kernel
    exact restored group (unwritten group mem).1 (unwritten group mem).2

/-- A lookahead that ends inside an atomic group, but was opened before that, gives up a choice that
was left before the group was opened: the search cannot go back to it any more, and finds nothing. -/
theorem crossed_brackets_give_up_older_choices :
    let calls : List Builder.Call :=
      [.newLabel, .emit .lookStart, .push ⟨0⟩, .emit .atomicStart, .emit .lookEnd,
        .emit .atomicEnd, .emit .fail, .bind ⟨0⟩, .emit .accept]
    ∃ setting : Setting, ((Builder.new .utf8).afterCalls calls).build.1 = .ok setting.program ∧
      (∀ visit ∈ trail setting 4 (outset setting), visit.DiscardsChoice) ∧
      route setting 4 [] (outset setting) =
        [after setting 3] ++ after setting 2 :: [after setting 1, after setting 0] ∧
      (after setting 2).opening? setting.program = some .atomic ∧
      (after setting 4).closing? setting.program = some .atomic ∧
      openings setting.program [after setting 3] = [] ∧
      (after setting 4).step setting = .ok (after setting 5) ∧
      (after setting 2).store.Offers 1 (.choice ⟨6, ⟨0, 0⟩⟩) ∧
      (∀ frame, ¬ (after setting 5).store.Offers 1 frame) ∧
      (run? setting 6 (outset setting)).map (fun ending => ending.outcome) = some .unmatched := by
  intro calls
  let setting := plainSetting #[]
    #[.lookStart, .push 5, .atomicStart, .lookEnd, .atomicEnd, .fail, .accept] #[]
  refine ⟨setting, rfl, by decide +kernel, by decide +kernel, by decide +kernel,
    by decide +kernel, by decide +kernel, step_after (by decide +kernel), by decide +kernel, ?_,
    by decide +kernel⟩
  have discarded : (after setting 5).store.stack.get? 1 = some .void := by
    decide +kernel
  rintro frame ⟨read, isChoice⟩
  obtain rfl := Option.some.inj (discarded.symm.trans read)
  exact Bool.noConfusion isChoice

end Search

end PatternMachine
