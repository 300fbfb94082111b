import PatternMachine.Proofs.Beneath
import PatternMachine.Proofs.EmptyIterations

/-!
# Negative assertions

A negative assertion pushes a frame to resume at, and then the code that it guards runs.  If that
fails completely, the search goes back to the frame; if it matches, everything since the frame was
pushed is undone and the search fails.  Both ways lead to the store as it was before the assertion
(`Search.negative_assertions_leave_no_trace`): whatever the guarded code has opened, closed, counted
and given up is undone, even in frames that lie below.
-/

namespace PatternMachine

/-- Whether a frame is that of a negative assertion. -/
def Frame.isExcluding (frame : Frame) : Bool :=
  frame.isMark .lookNot || frame.isMark .behindNot

/-- The offset at which a negative assertion goes on if it holds. -/
def Instruction.holding? : Instruction → Option Int
  | .lookNotStart offset | .lookBehindNotStart offset _ => some offset
  | _ => none

theorem Frame.isResumable_of_isExcluding {frame : Frame} (excludes : frame.isExcluding = true) :
    frame.isResumable = true := by
  cases frame <;> first | rfl | cases excludes

/-- Whether the bracket that a visit ends was opened above a depth, or at that depth if the visit
undoes everything since. -/
def Visit.closesAbove (depth : Nat) (visit : Visit) : Bool :=
  match visit.move with
  | .perform (.commit mark) =>
      (visit.before.store.stack.lastIndex? (Frame.isMark mark)).any (depth < ·)
  | .perform (.unwindTo mark) =>
      (visit.before.store.stack.lastIndex? (Frame.isMark mark)).any (depth ≤ ·)
  | _ => true

/-- A negative assertion does nothing but push its frame, which resumes at its target with the cursor
of the assertion. -/
theorem Plan.of_excluding {attempt : Attempt} {point : Point} {store : Store}
    {instruction : Instruction} {frame : Frame}
    (mem : .push frame ∈ (ofInstruction attempt point store instruction).effects)
    (excludes : frame.isExcluding = true) :
    ∃ offset target address cursor, instruction.holding? = some offset ∧
      attempt.program.target? point.address offset = some target ∧
      frame.resume? = some ⟨target, point.cursor⟩ ∧
      ofInstruction attempt point store instruction = .goto address cursor [.push frame] := by
  have causes := Attempt.causes_of_mem_effects mem
  cases causes with
  | @lookNot offset target =>
      simp only [ofInstruction, branch] at mem ⊢
      cases inside : attempt.program.target? point.address offset with
      | none => simp [inside, corrupt] at mem
      | some found =>
          simp only [inside, goto, List.mem_singleton] at mem ⊢
          cases mem
          exact ⟨offset, target, _, _, rfl, inside, rfl, rfl⟩
  | @behindNot offset length target =>
      simp only [ofInstruction, lookBehindNotStart, branch] at mem ⊢
      cases inside : attempt.program.target? point.address offset with
      | none => simp [inside, corrupt] at mem
      | some found =>
          cases start : attempt.text.stepBack? 0 length point.cursor.position with
          | none => simp [inside, start, goto] at mem
          | some position =>
              simp only [inside, start, goto, List.mem_singleton] at mem ⊢
              cases mem
              exact ⟨offset, target, _, _, rfl, inside, rfl, rfl⟩
  | _ => cases excludes

namespace Move

/-- Frames are taken off by going back, by throwing one away and by undoing what was excluded. -/
theorem of_lowers {move : Move} {store : Store}
    (lowers : (move.onStore store).depth < store.depth) :
    move = .backtrack ∨ move = .perform .discard ∨ ∃ mark, move = .perform (.unwindTo mark) := by
  cases move with
  | backtrack => exact .inl rfl
  | perform effect =>
      right
      by_contra keeps
      rw [not_or, not_exists] at keeps
      have climbs := @Effect.climbs effect (fun same => keeps.1 (congrArg _ same))
        fun mark same => keeps.2 mark (congrArg _ same)
      exact absurd lowers (Nat.not_lt.2 (climbs.1 store))
  | _ => exact absurd lowers (Nat.lt_irrefl _)

variable {setting : Setting} {search last : Search} {moves : List Move}

/-- The visits around one of them. -/
theorem split_trail {front rest : List Visit} {visit : Visit}
    (parts : trail setting search moves = front ++ visit :: rest) :
    ∃ before after, moves = before ++ visit.move :: after ∧
      play setting search (before ++ [visit.move]) = .ok visit.after ∧
        rest = trail setting visit.after after := by
  induction moves generalizing search front with
  | nil => simp [trail] at parts
  | cons move moves ih =>
      rw [trail] at parts
      cases attempted : move.attempt setting search with
      | error ending =>
          rw [attempted] at parts
          simp at parts
      | ok next =>
          rw [attempted] at parts
          dsimp only at parts
          cases front with
          | nil =>
              obtain ⟨rfl, rfl⟩ := List.cons.inj parts
              refine ⟨[], moves, rfl, ?_, rfl⟩
              rw [List.nil_append, play_cons, attempted]
              rfl
          | cons first front =>
              obtain ⟨rfl, later⟩ := List.cons.inj parts
              obtain ⟨before, after, rfl, played, rest⟩ := ih later
              refine ⟨move :: before, after, rfl, ?_, rest⟩
              rw [List.cons_append, play_cons, attempted]
              exact played

/-- Work and effects leave the search where it stands. -/
theorem point_of_play (still : ∀ move ∈ moves, move = .work ∨ ∃ effect, move = .perform effect)
    (played : play setting search moves = .ok last) : last.point = search.point := by
  refine @play_invariant setting search
    (fun state moves => (∀ move ∈ moves, move = .work ∨ ∃ effect, move = .perform effect) →
      last.point = state.point) last moves (fun _ => rfl) ?_ played still
  intro state next move moves attempted behind still
  rw [behind fun other mem => still other (List.mem_cons_of_mem move mem)]
  rcases still move List.mem_cons_self with rfl | ⟨effect, rfl⟩
  · rw [@eq_onSearch setting state next .work attempted]
    rfl
  · exact Search.point_of_perform attempted

/-- What a dispatch undoes because it is excluded is followed by a failure. -/
theorem Ordered.failing_after_unwindTo {mark : Mark} {before after : List Move}
    (ordered : Ordered (before ++ .perform (.unwindTo mark) :: after)) : after = failing := by
  obtain ⟨climbing, closing, same, climbs, closes⟩ := ordered
  have noClimb : .perform (.unwindTo mark) ∉ climbing := fun mem =>
    absurd rfl ((climbs _ mem).ne_unwindTo mark)
  rcases List.append_eq_append_iff.1 same with ⟨rest, rfl, tail⟩ | ⟨rest, _, tail⟩
  · cases rest with
    | nil =>
        cases closes <;> cases tail
        rfl
    | cons move rest =>
        obtain ⟨rfl, _⟩ := List.cons.inj tail
        exact absurd (List.mem_append_right _ List.mem_cons_self) noClimb
  · cases rest with
    | nil =>
        cases closes <;> cases tail
        rfl
    | cons move rest =>
        have inRest : .perform (.unwindTo mark) ∈ rest ++ .perform (.unwindTo mark) :: after :=
          List.mem_append_right _ List.mem_cons_self
        cases closes with
        | onward => cases tail
        | discard | fail | exclude =>
            obtain ⟨_, tail⟩ := List.cons.inj tail
            rw [show rest ++ _ = _ from tail.symm] at inRest
            simp [failing] at inRest

end Move

namespace Search

variable {setting : Setting} {search : Search} {dispatches : Nat}

/-- Once what was excluded is undone, the run fails, as far as it goes on. -/
theorem failing_after_unwindTo {front later : List Visit} {visit : Visit} {mark : Mark}
    (parts : trail setting dispatches search = front ++ visit :: later)
    (unwinds : visit.move = .perform (.unwindTo mark)) :
    (later.map Visit.move).take 2 <+: Move.failing := by
  induction dispatches generalizing search front with
  | zero => simp [trail] at parts
  | succ dispatches ih =>
      rw [trail] at parts
      rcases List.append_eq_append_iff.1 parts with ⟨rest, _, parts⟩ | ⟨rest, first, tail⟩
      · cases stepped : search.step setting with
        | error ending =>
            rw [stepped] at parts
            simp at parts
        | ok next =>
            rw [stepped] at parts
            exact ih parts
      · cases rest with
        | nil =>
            cases stepped : search.step setting with
            | error ending =>
                rw [stepped] at tail
                cases tail
            | ok next =>
                rw [stepped] at tail
                exact @ih next [] tail.symm
        | cons made rest =>
            obtain ⟨rfl, rfl⟩ := List.cons.inj tail
            -- The visit is one of this dispatch, whose moves end with the failure.
            obtain ⟨before, after, moves, played, rfl⟩ := Move.split_trail first
            have ordered := setting.ordered_moves search.point search.store
            rw [moves, unwinds] at ordered
            obtain rfl := ordered.failing_after_unwindTo
            have stepped := step_eq_play setting search
            rw [moves, List.append_cons, Move.play_append, played] at stepped
            replace stepped : search.step setting =
              Move.play setting visit.after Move.failing := stepped
            rw [stepped]
            simp only [Move.failing, Move.trail, Move.play_cons, Move.play_nil]
            cases failed : Move.fail.attempt setting visit.after with
            | error ending => simp [Except.bind]
            | ok middle =>
                dsimp only [Except.bind]
                cases resumed : Move.backtrack.attempt setting middle with
                | error ending => simp
                | ok next => simp

/-- A negative assertion pushes a frame that resumes at its target, with the cursor of the
assertion. -/
theorem exists_target_of_push {visit : Visit} (mem : visit ∈ trail setting dispatches search)
    {frame : Frame} (pushes : visit.move = .perform (.push frame))
    (excludes : frame.isExcluding = true) :
    ∃ instruction offset target,
      setting.program.code[visit.before.point.address]? = some instruction ∧
        instruction.holding? = some offset ∧
        setting.program.target? visit.before.point.address offset = some target ∧
        frame.resume? = some ⟨target, visit.before.point.cursor⟩ := by
  obtain ⟨state, _, made⟩ := exists_dispatched_visit mem
  obtain ⟨before, after, moves, played⟩ := Move.split_of_mem_trail made
  have moveMem := (Move.of_mem_trail made).1
  rw [pushes] at moves moveMem
  rcases Attempt.of_mem_moves moveMem with isReject | ⟨instruction, fetched, own⟩
  · cases isReject
  rcases own with isWork | ⟨event, isNote⟩ | ⟨effect, effectMem, isEffect⟩ | exitMem
  · cases isWork
  · cases isNote
  · cases isEffect
    obtain ⟨offset, target, address, cursor, holds, found, resumes, plan⟩ :=
      Plan.of_excluding effectMem excludes
    -- Nothing has moved the search before it pushes the frame.
    have stands : visit.before.point = state.point := by
      rw [Attempt.moves, fetched] at moves
      dsimp only at moves
      rw [plan] at moves
      rcases before with _ | ⟨_, _ | ⟨_, _ | ⟨_, _ | ⟨_, before⟩⟩⟩⟩
      · cases moves
      · cases moves
      · cases moves
        exact Move.point_of_play (by simp) played
      · cases moves
      · simp [Plan.goto, Attempt.planMoves, Attempt.exitMoves] at moves
    rw [stands]
    exact ⟨instruction, offset, target, fetched, holds, found, resumes⟩
  · obtain ⟨point, isChoice⟩ := Attempt.choice_of_mem_exitMoves exitMem
    cases isChoice
    cases excludes

/-- A program without the instruction that throws frames away throws none away. -/
theorem ne_discard_of_mem_trail (noPop : .pop ∉ setting.program.code) {visit : Visit}
    (mem : visit ∈ trail setting dispatches search) : visit.move ≠ .perform .discard := by
  intro discards
  obtain ⟨state, _, made⟩ := exists_mem_dispatched mem
  rw [discards] at made
  obtain ⟨instruction, fetched, causes | ⟨point, isChoice⟩⟩ :=
    Attempt.exists_causes_of_mem_moves made
  · cases causes
    exact noPop (Array.mem_of_getElem? fetched)
  · cases isChoice

variable {store : Store} {earlier between later : List Visit} {push last : Visit} {frame : Frame}

/-- While the guarded code of a negative assertion runs, going back to the frame of the assertion
leads to what was there when it was pushed, and the frame is still offered. -/
theorem guarded_code_keeps_assertion (noPop : .pop ∉ setting.program.code)
    (parts : trail setting dispatches search = earlier ++ push :: (between ++ last :: later))
    (pushes : push.move = .perform (.push frame)) (excludes : frame.isExcluding = true)
    (inside : ∀ visit ∈ between, push.before.store.depth < visit.after.store.depth)
    (closes : ∀ visit ∈ between, visit.closesAbove push.before.store.depth = true) :
    push.before.store.depth < last.before.store.depth ∧
      last.before.store.Offers push.before.store.depth frame ∧
      (last.before.store.rewind push.before.store.depth).reverted setting.program =
        push.before.store.reverted setting.program := by
  obtain ⟨_, leads⟩ := leads_trail setting dispatches search
  rw [parts] at leads
  obtain ⟨_, _, ⟨rfl, leads⟩⟩ := leads.split
  obtain ⟨_, leads, ⟨rfl, _⟩⟩ := leads.split
  have inTrail : ∀ visit ∈ push :: between, visit ∈ trail setting dispatches search := by
    intro visit mem
    rw [parts, ← List.cons_append]
    exact List.mem_append_right _ (List.mem_append_left _ mem)
  have pushed : push.after.store = push.before.store.push frame := by
    rw [store_of_mem_trail (inTrail push List.mem_cons_self), pushes]
    rfl
  have undoable : ∀ visit ∈ between, visit.Undoable setting.program := fun visit mem =>
    have onTrail := inTrail visit (List.mem_cons_of_mem _ mem)
    undoable_of_mem_trail onTrail fun discards =>
      absurd discards (ne_discard_of_mem_trail noPop onTrail)
  have start : push.before.store.depth + 1 ≤ push.after.store.depth := by
    rw [pushed, Store.depth_push]
  obtain ⟨deep, same⟩ := leads.reverted_rewind undoable start inside (by
    intro visit mem mark commits
    have above := closes visit mem
    rw [Visit.closesAbove, commits] at above
    obtain ⟨index, found, higher⟩ := (Option.any_eq_true _ _).1 above
    exact ⟨index, found, of_decide_eq_true higher⟩)
  have top : push.after.store.rewind (push.before.store.depth + 1) = push.after.store := by
    have whole : push.after.store.depth = push.before.store.depth + 1 := by
      rw [pushed, Store.depth_push]
    rw [← whole, Store.rewind_depth]
  rw [top] at same
  refine ⟨deep, ?_, ?_⟩
  · -- The frame is the top one of what going back leads to.
    have stack : (last.before.store.rewind (push.before.store.depth + 1)).stack =
        push.after.store.stack := by
      have stack := congrArg Store.stack same
      rwa [Store.stack_reverted, Store.stack_reverted] at stack
    have offers : (last.before.store.rewind (push.before.store.depth + 1)).Offers
        push.before.store.depth frame := by
      refine ⟨?_, Frame.isResumable_of_isExcluding excludes⟩
      rw [stack, pushed]
      exact push.before.store.stack.get?_depth_push frame
    exact offers.of_rewind
  · have below := Store.reverted_rewind_congr
      (same.trans (congrArg (Store.reverted setting.program) pushed)) push.before.store.depth
    rw [Store.rewind_rewind _ deep (Nat.le_succ _)] at below
    rw [below, Store.rewind_push_plain _
      (.of_isResumable (Frame.isResumable_of_isExcluding excludes)) (Nat.le_refl _),
      Store.rewind_depth]

/-- How the guarded code of a negative assertion has ended. -/
inductive EndsAssertion (setting : Setting) (push last : Visit) (later : List Visit) : Prop
  /-- It has failed completely: the search goes on at the target, where it stood before. -/
  | holds {instruction : Instruction} {offset : Int} {target : Nat}
      (resumes : last.move = .backtrack)
      (fetched : setting.program.code[push.before.point.address]? = some instruction)
      (holds : instruction.holding? = some offset)
      (inside : setting.program.target? push.before.point.address offset = some target)
      (stands : last.after.point = ⟨target, push.before.point.cursor⟩)
  /-- It has matched: everything since is undone, and the search fails. -/
  | excluded {mark : Mark} {frame : Frame}
      (pushes : push.move = .perform (.push frame)) (isMark : frame.isMark mark = true)
      (unwinds : last.move = .perform (.unwindTo mark))
      (fails : (later.map Visit.move).take 2 <+: Move.failing)

/-- However the guarded code of a negative assertion ends, what was pushed since the assertion is
taken off, and nothing else is. -/
theorem guarded_code_ends (noPop : .pop ∉ setting.program.code)
    (parts : trail setting dispatches search = earlier ++ push :: (between ++ last :: later))
    (pushes : push.move = .perform (.push frame)) (excludes : frame.isExcluding = true)
    (deep : push.before.store.depth < last.before.store.depth)
    (offers : last.before.store.Offers push.before.store.depth frame)
    (ends : last.after.store.depth ≤ push.before.store.depth)
    (closes : last.closesAbove push.before.store.depth = true) :
    last.after.store = last.before.store.rewind push.before.store.depth ∧
      EndsAssertion setting push last later := by
  have pushMem : push ∈ trail setting dispatches search := by
    rw [parts]
    exact List.mem_append_right _ List.mem_cons_self
  have lastMem : last ∈ trail setting dispatches search := by
    rw [parts, ← List.cons_append]
    exact List.mem_append_right _ (List.mem_append_right _ List.mem_cons_self)
  have made := store_of_mem_trail lastMem
  have lowers : (last.move.onStore last.before.store).depth < last.before.store.depth := by
    rw [← made]
    exact Nat.lt_of_le_of_lt ends deep
  rcases Move.of_lowers lowers with resumes | discards | ⟨mark, unwinds⟩
  · obtain ⟨found, foundOffers, resumesAt, rewound⟩ := offers_of_backtrack lastMem resumes
    have atFrame : last.after.store.depth = push.before.store.depth := by
      refine Nat.le_antisymm ends ?_
      rw [made, resumes]
      exact offers.le_depth_unwind
    rw [atFrame] at rewound foundOffers
    obtain rfl : found = frame := Option.some.inj (foundOffers.1.symm.trans offers.1)
    obtain ⟨instruction, offset, target, fetched, holds, inside, resumesAt'⟩ :=
      exists_target_of_push pushMem pushes excludes
    have stands := Option.some.inj (resumesAt.symm.trans resumesAt')
    exact ⟨rewound, .holds resumes fetched holds inside stands⟩
  · exact absurd discards (ne_discard_of_mem_trail noPop lastMem)
  · rw [Visit.closesAbove, unwinds] at closes
    obtain ⟨index, found, higher⟩ := (Option.any_eq_true _ _).1 closes
    have depth := Store.depth_unwind (fun frame count => frame.isMark_withCount count mark) found
    obtain rfl : index = push.before.store.depth := by
      rw [made, unwinds] at ends
      exact Nat.le_antisymm (Nat.le_trans (Nat.le_of_eq depth.symm) ends)
        (of_decide_eq_true higher)
    have rewound := (@Store.unwind_eq_rewind (Frame.isMark mark) (fun _ => Frame.IsPlain.of_isMark)
      last.before.store).2
    rw [depth] at rewound
    obtain ⟨marked, read, isMark⟩ := Stack.get?_of_lastIndex? found
    obtain rfl : marked = frame := Option.some.inj (read.symm.trans offers.1)
    refine ⟨?_, .excluded pushes isMark unwinds ?_⟩
    · rw [made, unwinds]
      exact rewound
    · rw [← List.cons_append, ← List.append_assoc] at parts
      exact failing_after_unwindTo parts unwinds

/-- A negative assertion leaves no trace.  When its guarded code has ended, be it that it failed
completely and the search goes on at the target with the cursor of the assertion, or that it matched
and the search fails, the stack is frame for frame what it was before the assertion, counts in
entries of repeats included, all groups lie where they lay, and all repeats are active in the
entries in which they were active, with the counts that they had.  This holds for built programs
that log all their groups and throw nothing away, if the guarded code ends no bracket that it has
not opened. -/
theorem negative_assertions_leave_no_trace {encoding : Encoding} {calls : List Builder.Call}
    (built : ((Builder.new encoding).afterCalls calls).build.1 = .ok setting.program)
    (logsAll : setting.program.LogsAll) (noPop : .pop ∉ setting.program.code)
    (parts : trail setting dispatches (start setting store) =
      earlier ++ push :: (between ++ last :: later))
    (pushes : push.move = .perform (.push frame)) (excludes : frame.isExcluding = true)
    (inside : ∀ visit ∈ between, push.before.store.depth < visit.after.store.depth)
    (closes : ∀ visit ∈ between ++ [last], visit.closesAbove push.before.store.depth = true)
    (ends : last.after.store.depth ≤ push.before.store.depth) :
    EndsAssertion setting push last later ∧
      last.after.store.stack = push.before.store.stack ∧
      (∀ group, last.after.store.captures group = push.before.store.captures group) ∧
      ∀ id, (last.after.store.registers.repeatOf id).entry =
          (push.before.store.registers.repeatOf id).entry ∧
        (last.after.store.registers.repeatOf id).count =
          (push.before.store.registers.repeatOf id).count := by
  obtain ⟨deep, offers, same⟩ :=
    guarded_code_keeps_assertion noPop parts pushes excludes inside fun visit mem =>
      closes visit (List.mem_append_left _ mem)
  obtain ⟨rewound, leaves⟩ := guarded_code_ends noPop parts pushes excludes deep offers ends
    (closes last (by simp))
  rw [← rewound] at same
  refine ⟨leaves, ?_, ?_, fun id => Store.repeat_eq_of_reverted same id⟩
  · have stack := congrArg Store.stack same
    rwa [Store.stack_reverted, Store.stack_reverted] at stack
  · intro group
    refine Store.captures_eq_of_reverted same ?_
    cases logs : setting.program.logs group with
    | true => exact .inl (logsAll.reverts logs)
    | false =>
        have logged := trail_logged (Builder.knowsLogged_of_calls built) logsAll store dispatches
        rw [parts] at logged
        right
        exact ⟨(logged last (by simp)).2.2.unset group logs,
          (logged push (by simp)).1.unset group logs⟩

/-- A repeat counts within a negative lookahead that was opened after its entry.  Each iteration opens
another lookahead, clears the way to its end by an atomic group, and captures.  The inner lookahead
is excluded, and with it the iteration that it has counted is undone; then nothing is left within
the outer one, which holds. -/
theorem negative_assertions_leave_no_trace_when_nested :
    let calls : List Builder.Call :=
      [.setGroups 1, .addRepeat ⟨2, 2⟩, .newLabel, .newLabel, .newLabel, .repeatStart 0 ⟨0⟩ true,
        .lookNotStart ⟨1⟩, .emit (.openGroup 1 true), .emit .atomicStart, .push ⟨2⟩, .bind ⟨2⟩,
        .emit .atomicEnd, .emit (.repeatNext 0 true false), .emit .lookNotFail, .bind ⟨1⟩,
        .bind ⟨0⟩, .emit .accept]
    ∃ setting : Setting, ((Builder.new .utf8).afterCalls calls).build.1 = .ok setting.program ∧
      setting.program.LogsAll ∧ .pop ∉ setting.program.code ∧
      ∃ outer holds inner excluded : Visit, ∃ later later' : List Visit,
        holds.before.store.stack.entry? 0 = some (1, 1) ∧
          holds.before.store.captures 1 = (some 0, none) ∧
          EndsAssertion setting outer holds later ∧
          holds.after.store.stack.entry? 0 = some (0, 1) ∧
          holds.after.store.captures 1 = (none, none) ∧
        excluded.before.store.stack.entry? 0 = some (2, 1) ∧
          EndsAssertion setting inner excluded later' ∧
          excluded.after.store.stack.entry? 0 = some (1, 1) := by
  intro calls
  let program : Program :=
    { code := #[.repeatStart 0 8 true, .lookNotStart 7, .openGroup 1 true, .atomicStart, .push 1,
        .atomicEnd, .repeatNext 0 true false, .lookNotFail, .accept]
      templates := #[], classes := #[], repeatRanges := #[⟨2, 2⟩], groupCount := 1
      emptyCheckCount := 0, loggedStarts := GroupMask.empty.insert 1, loggedEnds := .empty
      options := .none, encoding := .utf8 }
  let setting : Setting := ⟨⟨program, .none, .whole ⟨#[]⟩⟩, .unlimited, .patient⟩
  have built : ((Builder.new .utf8).afterCalls calls).build.1 = .ok setting.program := by
    rfl
  have logsAll : setting.program.LogsAll := by decide +kernel
  have noPop : .pop ∉ setting.program.code := by decide +kernel
  let visits := trail setting 15 (.start setting (.blank 2 1))
  let outer := visits.get ⟨6, by decide +kernel⟩
  let holds := visits.get ⟨56, by decide +kernel⟩
  let inner := visits.get ⟨30, by decide +kernel⟩
  let excluded := visits.get ⟨54, by decide +kernel⟩
  obtain ⟨endsOuter, stackOuter, capturesOuter, _⟩ :=
    @negative_assertions_leave_no_trace setting 15 (.blank 2 1) (visits.take 6)
      ((visits.drop 7).take 49) (visits.drop 57) outer holds (.lookNot ⟨8, ⟨0, 0⟩⟩) .utf8 calls
      built logsAll noPop (by decide +kernel) (by decide +kernel) (by decide +kernel)
      (by decide +kernel) (by decide +kernel) (by decide +kernel)
  obtain ⟨endsInner, stackInner, _⟩ :=
    @negative_assertions_leave_no_trace setting 15 (.blank 2 1) (visits.take 30)
      ((visits.drop 31).take 23) (visits.drop 55) inner excluded (.lookNot ⟨8, ⟨0, 0⟩⟩) .utf8 calls
      built logsAll noPop (by decide +kernel) (by decide +kernel) (by decide +kernel)
      (by decide +kernel) (by decide +kernel) (by decide +kernel)
  refine ⟨setting, built, logsAll, noPop, outer, holds, inner, excluded, visits.drop 57,
    visits.drop 55, by decide +kernel, by decide +kernel, endsOuter, ?_, ?_, by decide +kernel,
    endsInner, ?_⟩
  · rw [stackOuter]
    decide +kernel
  · rw [capturesOuter]
    decide +kernel
  · rw [stackInner]
    decide +kernel

end Search

end PatternMachine
