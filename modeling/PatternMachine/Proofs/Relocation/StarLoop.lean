import PatternMachine.Proofs.Answers
import PatternMachine.Proofs.Relocation.Drafts
import PatternMachine.Proofs.Relocation.Runs

/-!
# Stars as loops

A star leaves a choice before every character that it takes.  A loop that leaves a choice to go on
behind it and takes one character at a time leaves the same choices, one for each time round; it
ends with a failure that takes back the last of them.  A program with the loop in the place of the
star therefore gives the same answer (`Builder.stars_are_loops`), although every address behind the
loop is another one.
-/

namespace PatternMachine

/-! ### The loop of a star -/

/-- Where the instructions of a program are when its star has become a loop of three instructions. -/
def afterLoop (star address : Nat) : Nat :=
  if address ≤ star then address else address + 2

/-- Whether code has a loop where other code has a star. -/
structure UnrollsStar (first : Nat) (acrossLines : Bool) (code code' : Array Instruction) :
    Prop where
  relocation : Relocation (afterLoop first) first code code'
  star : code[first]? = some (.anyCharStar acrossLines none)
  top : code'[first]? = some (.push ((first + 3 : Nat) - first))
  body : code'[first + 1]? = some (.anyChar acrossLines)
  back : code'[first + 2]? = some (.jump (first - (first + 2 : Nat)))

namespace UnrollsStar

variable {setting : Setting} {first : Nat} {acrossLines : Bool} {code : Array Instruction}

/-- Whether the loop takes the character at a position. -/
def takes (setting : Setting) (acrossLines : Bool) (position : Nat) : Bool :=
  setting.text.hasChar position setting.range &&
    (acrossLines || setting.options.multiline || !setting.text.newlineAt position)

section

variable (unrolls : UnrollsStar first acrossLines setting.program.code code)
  (inside : first + 1 < setting.program.code.size) (free : setting.Free) {search : Search}
  {cursor : Cursor} (stands : search.point = ⟨first, cursor⟩)

include unrolls inside free stands

/-- The loop leaves a choice to go on behind it and comes to its body. -/
theorem exists_step_top :
    ∃ next, search.step (setting.withCode code) = .ok next ∧ next.point = ⟨first + 1, cursor⟩ ∧
      next.store = search.store.push (.choice ⟨first + 3, cursor⟩) ∧ next.best = search.best := by
  have behind : first + 3 < code.size := by
    have moved := (unrolls.relocation.size (first + 1)).2 inside
    rwa [afterLoop, if_neg (Nat.not_succ_le_self first)] at moved
  have fetched : (setting.withCode code).program.code[search.point.address]? =
      some (.push ((first + 3 : Nat) - first)) := by
    rw [stands]
    exact unrolls.top
  have plan : Plan.ofInstruction (setting.withCode code).toAttempt search.point search.store
      (.push ((first + 3 : Nat) - first)) =
        .goto (first + 1) cursor [.push (.choice ⟨first + 3, cursor⟩)] := by
    rw [stands]
    exact (Plan.branch_sub _ _ _ _).trans (if_pos behind)
  exact Search.exists_step_goto (free.withCode code) fetched plan

/-- The loop ends with a failure that takes back its last choice. -/
theorem exists_advance_exit (done : takes setting acrossLines cursor.position = false) :
    ∃ next, search.advance (setting.withCode code) 2 = .ok next ∧
      next.point = ⟨first + 3, cursor⟩ ∧ next.store = search.store ∧ next.best = search.best := by
  obtain ⟨middle, stepped, point, store, best⟩ := unrolls.exists_step_top inside free stands
  have fetched : (setting.withCode code).program.code[middle.point.address]? =
      some (.anyChar acrossLines) := by
    rw [point]
    exact unrolls.body
  have plan : Plan.ofInstruction (setting.withCode code).toAttempt middle.point middle.store
      (.anyChar acrossLines) = .fail := by
    rw [point]
    exact if_neg (ne_true_of_eq_false done)
  obtain ⟨next, stepped', point', store', best'⟩ :=
    Search.exists_step_fail (free.withCode code) fetched plan store rfl
  refine ⟨next, ?_, point', store', best'.trans best⟩
  simp only [Search.advance, stepped, Except.bind, stepped']

/-- The loop takes one character and starts again. -/
theorem exists_advance_again (takes : takes setting acrossLines cursor.position = true) :
    ∃ next, search.advance (setting.withCode code) 3 = .ok next ∧
      next.point = ⟨first, cursor.step (setting.text.charLength cursor.position)⟩ ∧
      next.store = search.store.push (.choice ⟨first + 3, cursor⟩) ∧ next.best = search.best := by
  obtain ⟨middle, stepped, point, store, best⟩ := unrolls.exists_step_top inside free stands
  have isBody : (setting.withCode code).program.code[middle.point.address]? =
      some (.anyChar acrossLines) := by
    rw [point]
    exact unrolls.body
  have takesOne : Plan.ofInstruction (setting.withCode code).toAttempt middle.point middle.store
      (.anyChar acrossLines) =
        .goto (first + 2) (cursor.step (setting.text.charLength cursor.position)) := by
    rw [point]
    exact if_pos takes
  obtain ⟨last, stepped', point', store', best'⟩ :=
    Search.exists_step_goto (free.withCode code) isBody takesOne
  have isBack : (setting.withCode code).program.code[last.point.address]? =
      some (.jump (first - (first + 2 : Nat))) := by
    rw [point']
    exact unrolls.back
  have goesBack : Plan.ofInstruction (setting.withCode code).toAttempt last.point last.store
      (.jump (first - (first + 2 : Nat))) =
        .goto first (cursor.step (setting.text.charLength cursor.position)) := by
    rw [point']
    exact (Plan.branch_sub _ _ _ _).trans (if_pos (Array.getElem?_eq_some_iff.1 unrolls.top).1)
  obtain ⟨next, stepped'', point'', store'', best''⟩ :=
    Search.exists_step_goto (free.withCode code) isBack goesBack
  refine ⟨next, ?_, point'', ?_, ?_⟩
  · simp only [Search.advance, stepped, Except.bind, stepped', stepped'']
  · rw [store'', store', store]
    rfl
  · rw [best'', best', best]

end

/-- The star that the loop stands for. -/
def sweeping (setting : Setting) (first : Nat) (acrossLines : Bool) : Star :=
  ⟨acrossLines || setting.options.multiline, none, first + 1⟩

theorem takes_eq {position : Nat} (whole : setting.text.hasChar position setting.range = true) :
    takes setting acrossLines position =
      !(sweeping setting first acrossLines).failsAt setting.text position := by
  simp [takes, whole, sweeping, Star.failsAt, Bool.or_assoc]

/-- What a star does in one dispatch the loop does in several. -/
theorem exists_paired (unrolls : UnrollsStar first acrossLines setting.program.code code)
    (inside : first + 1 < setting.program.code.size) (free : setting.Free) (cursor : Cursor) :
    ∀ {left right : Search}, right.point = ⟨first, cursor⟩ →
      right.store = left.store.relocate (afterLoop first) → right.best = left.best →
      ∃ more, Paired (Search.Relocates (afterLoop first))
        (Move.play setting left ((sweeping setting first acrossLines).sweepMoves setting.text
          setting.range cursor))
        (right.advance (setting.withCode code) (more + 1)) := by
  have behind : ∀ cursor, Point.relocate (afterLoop first) ⟨first + 1, cursor⟩ =
      ⟨first + 3, cursor⟩ := by
    intro cursor
    rw [Point.relocate, afterLoop, if_neg (Nat.not_succ_le_self first)]
  induction cursor using Star.sweepMoves.induct (sweeping setting first acrossLines) setting.text
    setting.range with
  | case1 cursor whole ih =>
      intro left right stands stores best
      have taken := @takes_eq setting first acrossLines cursor.position whole
      rw [Star.sweepMoves_of_leavesChoice whole rfl, Move.play_choice_of_free free]
      cases fails : (sweeping setting first acrossLines).failsAt setting.text cursor.position with
      | true =>
          rw [fails] at taken
          obtain ⟨next, advanced, point, store, best'⟩ :=
            unrolls.exists_advance_exit inside free stands taken
          refine ⟨1, ?_⟩
          rw [if_pos rfl, Move.play_failing_of_free free, advanced]
          dsimp only
          rw [@Store.backtrack_choice _ left.store ⟨first + 1, cursor⟩ rfl]
          refine .goesOn ⟨?_, store.trans stores, best'.trans best⟩
          rw [point]
          exact (behind cursor).symm
      | false =>
          rw [fails] at taken
          obtain ⟨next, advanced, point, store, best'⟩ :=
            unrolls.exists_advance_again inside free stands taken
          have stores' : next.store = Store.relocate (afterLoop first)
              (left.store.push ((sweeping setting first acrossLines).choice cursor)) := by
            rw [store, stores, Store.relocate_push]
            exact congrArg _ (congrArg Frame.choice (behind cursor).symm)
          obtain ⟨more, paired⟩ := @ih { left with
            steps := left.steps + 1
            store := left.store.push ((sweeping setting first acrossLines).choice cursor) }
            next point stores' (best'.trans best)
          refine ⟨3 + more, ?_⟩
          rw [if_neg Bool.noConfusion, Nat.add_assoc, Search.advance_add, advanced]
          exact paired
  | case2 cursor done =>
      intro left right stands stores best
      have noMore : takes setting acrossLines cursor.position = false := by
        rw [takes, eq_false_of_ne_true done, Bool.false_and]
      obtain ⟨next, advanced, point, store, best'⟩ :=
        unrolls.exists_advance_exit inside free stands noMore
      refine ⟨1, ?_⟩
      rw [Star.sweepMoves_of_done (eq_false_of_ne_true done), advanced]
      refine .goesOn ⟨?_, store.trans stores, best'.trans best⟩
      rw [point]
      exact (behind cursor).symm

/-- A star that does not look ahead goes on behind itself. -/
theorem exists_play_sweep (free : setting.Free) {star : Star} (unpeeked : star.peeked = none)
    (cursor : Cursor) (search : Search) :
    ∃ next, Move.play setting search (star.sweepMoves setting.text setting.range cursor) =
      .ok next ∧ next.point.address = star.next := by
  induction cursor using Star.sweepMoves.induct star setting.text setting.range
    generalizing search with
  | case1 cursor whole ih =>
      have leaves : star.leavesChoice setting.text cursor.position = true := by
        rw [Star.leavesChoice, unpeeked]
      rw [Star.sweepMoves_of_leavesChoice whole leaves, Move.play_choice_of_free free]
      split
      · rw [Move.play_failing_of_free free]
        dsimp only
        rw [@Store.backtrack_choice _ search.store ⟨star.next, cursor⟩ rfl]
        exact ⟨_, rfl, rfl⟩
      · exact ih _
  | case2 cursor done =>
      rw [Star.sweepMoves_of_done (eq_false_of_ne_true done)]
      exact ⟨_, rfl, rfl⟩

/-- The dispatch of the star. -/
theorem exists_step_star (unrolls : UnrollsStar first acrossLines setting.program.code code)
    (free : setting.Free) {search : Search} (stands : search.point.address = first) :
    ∃ next, search.step setting = Move.play setting next
        ((sweeping setting first acrossLines).sweepMoves setting.text setting.range
          search.point.cursor) ∧
      next.store = search.store ∧ next.best = search.best := by
  subst stands
  obtain ⟨next, stepped, _, store, best⟩ := Move.step_of_free free search unrolls.star
  refine ⟨next, ?_, ?_, best⟩
  · rw [stepped]
    cases acrossLines <;> rfl
  · rw [store]
    cases acrossLines <;> rfl

/-- A star behind which there is nothing leaves the program. -/
theorem inside (unrolls : UnrollsStar first acrossLines setting.program.code code)
    (free : setting.Free) {search : Search} (stands : search.point.address = first)
    {dispatches : Nat} {ending : Ending}
    (ran : Search.run? setting (dispatches + 1) search = some ending)
    (answered : ∀ failure, ending.outcome ≠ .stopped failure) :
    first + 1 < setting.program.code.size := by
  obtain ⟨swept, stepped, _, _⟩ := unrolls.exists_step_star free stands
  obtain ⟨next, played, address⟩ :=
    @exists_play_sweep setting free (sweeping setting first acrossLines) rfl search.point.cursor swept
  rw [Search.run?, stepped, played] at ran
  dsimp only at ran
  by_contra outside
  have nothing : setting.program.code[next.point.address]? = none := by
    rw [address]
    exact Array.getElem?_eq_none (Nat.le_of_not_lt outside)
  cases dispatches with
  | zero => cases ran
  | succ dispatches =>
      rw [Search.run?, Search.step, nothing] at ran
      cases ran
      exact answered _ rfl

/-- A run that has an answer has the same one when its star has become a loop. -/
theorem exists_run? (unrolls : UnrollsStar first acrossLines setting.program.code code)
    (free : setting.Free) {left right : Search}
    (relocates : left.Relocates (afterLoop first) right) {dispatches : Nat} {ending : Ending}
    (ran : Search.run? setting dispatches left = some ending)
    (answered : ∀ failure, ending.outcome ≠ .stopped failure) :
    ∃ dispatches' ending', Search.run? (setting.withCode code) dispatches' right = some ending' ∧
      ending'.outcome = ending.outcome := by
  refine @Search.exists_run?_of_paired setting (setting.withCode code)
    (Search.Relocates (afterLoop first)) left right
    (fun outcome => ∀ failure, outcome ≠ .stopped failure) ?_ relocates _ _ ran answered
  intro left right dispatches ending relocates ran answered
  by_cases atStar : left.point.address = first
  · obtain ⟨swept, stepped, store, best⟩ := unrolls.exists_step_star free atStar
    rw [stepped]
    refine unrolls.exists_paired (unrolls.inside free atStar ran answered) free _ ?_ ?_ ?_
    · rw [relocates.point, Point.relocate, atStar, afterLoop, if_pos (Nat.le_refl first)]
    · rw [store, relocates.store]
    · rw [best, relocates.best]
  · refine ⟨0, ?_⟩
    rw [Search.advance_one]
    refine relocates.step free unrolls.relocation atStar fun failure last stopped => ?_
    rw [Search.run?, stopped] at ran
    cases ran
    exact answered failure rfl

end UnrollsStar

/-! ### Assembling the loop -/

theorem afterLoop_succ {star address : Nat} (apart : address ≠ star) :
    afterLoop star (address + 1) = afterLoop star address + 1 := by
  unfold afterLoop
  split
  · rw [if_pos (by omega)]
  · rw [if_neg (by omega)]

theorem afterLoop_self (star : Nat) : afterLoop star star = star :=
  if_pos (Nat.le_refl star)

theorem afterLoop_succ_self (star : Nat) : afterLoop star (star + 1) = star + 3 :=
  if_neg (Nat.not_succ_le_self star)

theorem strictMono_afterLoop (star : Nat) : StrictMono (afterLoop star) := by
  refine strictMono_nat_of_lt_succ fun address => ?_
  unfold afterLoop
  split <;> split <;> omega

namespace Builder

/-- The calls that assemble the loop. -/
def loopCalls (acrossLines : Bool) : List Call :=
  [.bind ⟨0⟩, .push ⟨1⟩, .emit (.anyChar acrossLines), .jump ⟨0⟩, .bind ⟨1⟩]

/-- The calls that assemble the loop in the place of a star.  Its two labels are made first, so all
other labels are made two later. -/
def callsWithLoop (before : List Call) (acrossLines : Bool) (after : List Call) : List Call :=
  [.newLabel, .newLabel] ++ before.map (Call.later 2) ++ loopCalls acrossLines ++
    after.map (Call.later 2)

end Builder

namespace Draft

variable {encoding : Encoding} {acrossLines : Bool}

/-- The lines of the loop. -/
def loopLines (acrossLines : Bool) : List Line :=
  [⟨.push 0, some ⟨1⟩, fun _ => rfl⟩, .plain (.anyChar acrossLines),
    ⟨.jump 0, some ⟨0⟩, fun _ => rfl⟩]

/-- What the calls for the loop make of a draft that has its labels. -/
theorem after_loopCalls (draft : Draft) (made : 2 ≤ draft.labels) :
    (Builder.loopCalls acrossLines).foldl (after encoding) draft =
      { lines := draft.lines ++ loopLines acrossLines
        labels := draft.labels
        bound := fun label =>
          if label.index = 1 then some (draft.lines.length + 3)
          else if label.index = 0 then some draft.lines.length
          else draft.bound label } := by
  simp only [Builder.loopCalls, List.foldl_cons, List.foldl_nil, after, Builder.Call.line?, bind]
  simp only [loopLines, mk.injEq, List.append_assoc, List.cons_append, List.nil_append, true_and]
  funext label
  simp only [List.length_append, List.length_cons, List.length_nil, eq_comm (a := label.index)]
  have zero : 0 < draft.labels := by omega
  have one : 1 < draft.labels := by omega
  simp only [zero, one, and_true]

/-- A draft with the star added and one with the loop. -/
theorem Shifts.over_loop {first : Nat} {draft draft' : Draft}
    (shifts : draft.Shifts 2 (afterLoop first) first draft') (length : draft.lines.length = first) :
    Shifts 2 (afterLoop first) first
      { draft with lines := draft.lines ++ [.plain (.anyCharStar acrossLines none)] }
      ((Builder.loopCalls acrossLines).foldl (Draft.after encoding) draft') := by
  rw [draft'.after_loopCalls (shifts.labels ▸ Nat.le_add_left 2 _)]
  refine ⟨shifts.labels, ?_, ?_, ?_⟩
  · dsimp only
    rw [List.length_append, List.length_append, shifts.length, length, List.length_singleton,
      afterLoop_succ_self, afterLoop_self]
    rfl
  · intro address line apart read
    have inside : address < draft.lines.length := by
      have within := (List.getElem?_eq_some_iff.1 read).1
      rw [List.length_append, List.length_singleton] at within
      omega
    rw [List.getElem?_append_left inside] at read
    have moved := shifts.lines apart read
    rwa [List.getElem?_append_left (List.getElem?_eq_some_iff.1 moved).1]
  · intro label
    rw [← shifts.bound label]
    have two : 2 ≤ (label.later 2).index := Nat.le_add_left 2 _
    dsimp only
    rw [if_neg (by omega), if_neg (by omega)]

/-- Before the star nothing moves: two labels more are made, and none of them is bound. -/
theorem shifts_before {before : List Builder.Call} (noBuild : .build ∉ before) {first : Nat}
    (length : (Builder.Call.lines encoding before).length = first) :
    (ofCalls encoding before).Shifts 2 (afterLoop first) first
      (([Builder.Call.newLabel, .newLabel] ++ before.map (Builder.Call.later 2)).foldl
        (after encoding) blank) := by
  have fresh : blank.Shifts 2 (afterLoop first) first
      ([Builder.Call.newLabel, .newLabel].foldl (after encoding) blank) :=
    ⟨rfl, rfl, fun _ read => (nomatch read), fun _ => rfl⟩
  have moved := fresh.afterCalls noBuild fun address _ inside => afterLoop_succ (by
    rw [show blank.lines.length = 0 from rfl, Nat.zero_add, length] at inside
    exact Nat.ne_of_lt inside)
  rwa [← List.foldl_append] at moved

/-- The loop stands where the star stood, and everything behind it two lines farther on. -/
theorem shifts_callsWithLoop {before later : List Builder.Call}
    (noBuild : .build ∉ before ++ later) :
    let first := (Builder.Call.lines encoding before).length
    let draft := ofCalls encoding (before ++ .emit (.anyCharStar acrossLines none) :: later)
    let draft' := ofCalls encoding (Builder.callsWithLoop before acrossLines later)
    draft.Shifts 2 (afterLoop first) first draft' ∧
      draft.lines[first]? = some (.plain (.anyCharStar acrossLines none)) ∧
      (∀ index, index < 3 → draft'.lines[first + index]? = (loopLines acrossLines)[index]?) ∧
      draft'.bound ⟨0⟩ = some first ∧ draft'.bound ⟨1⟩ = some (first + 3) := by
  intro first draft draft'
  have noBefore : .build ∉ before := fun mem => noBuild (List.mem_append_left _ mem)
  have noLater : .build ∉ later := fun mem => noBuild (List.mem_append_right _ mem)
  let start := ofCalls encoding before
  let start' := ([Builder.Call.newLabel, .newLabel] ++ before.map (Builder.Call.later 2)).foldl
    (after encoding) blank
  have shifts : start.Shifts 2 (afterLoop first) first start' := shifts_before noBefore rfl
  have length : start.lines.length = first :=
    (length_afterCalls noBefore blank).trans (Nat.zero_add _)
  have length' : start'.lines.length = first := by
    rw [shifts.length, length, afterLoop_self]
  have withStar : draft = later.foldl (after encoding)
      { start with lines := start.lines ++ [.plain (.anyCharStar acrossLines none)] } := by
    simp only [draft, ofCalls, List.foldl_append, List.foldl_cons, start]
    rfl
  have withLoop : draft' = (later.map (Builder.Call.later 2)).foldl (after encoding)
      ((Builder.loopCalls acrossLines).foldl (after encoding) start') := by
    simp only [draft', ofCalls, Builder.callsWithLoop, List.foldl_append, start']
  refine ⟨?_, ?_, ?_⟩
  · rw [withLoop, withStar]
    refine (shifts.over_loop length).afterCalls noLater fun address behind _ => afterLoop_succ ?_
    rw [List.length_append, length] at behind
    exact Nat.ne_of_gt behind
  · rw [withStar, getElem?_afterCalls noLater, ← length, List.getElem?_concat_length]
    rw [List.length_append, length]
    exact Nat.lt_succ_self first
  · rw [after_loopCalls start' (shifts.labels ▸ Nat.le_add_left 2 _), length'] at withLoop
    refine ⟨fun index inside => ?_, ?_, ?_⟩
    · rw [withLoop, getElem?_afterCalls (Builder.Call.build_not_mem_later 2 noLater),
        List.getElem?_append_right (by rw [length']; exact Nat.le_add_right _ _), length',
        Nat.add_sub_cancel_left]
      rw [List.length_append, length']
      exact Nat.add_lt_add_left inside first
    · rw [withLoop, bound_afterCalls_later (by decide)]
      rfl
    · rw [withLoop, bound_afterCalls_later (by decide)]
      rfl

end Draft

/-- Every address behind which there is nothing of the loop is the place of another one. -/
theorem afterLoop_surjective (star index : Nat) :
    (∃ offset < 3, index = star + offset) ∨ ∃ address ≠ star, afterLoop star address = index := by
  by_cases before : index < star
  · exact .inr ⟨index, Nat.ne_of_lt before, if_pos (Nat.le_of_lt before)⟩
  by_cases inside : index < star + 3
  · exact .inl ⟨index - star, by omega, by omega⟩
  · refine .inr ⟨index - 2, by omega, ?_⟩
    rw [afterLoop, if_neg (by omega)]
    omega

namespace Builder

variable {encoding : Encoding} {acrossLines : Bool} {before later : List Call}

theorem holds_of_noBuild {calls : List Call} (noBuild : .build ∉ calls) :
    ((new encoding).afterCalls calls).Holds encoding (Draft.ofCalls encoding calls) :=
  holds_ofCalls fun _ isBuild => absurd (List.mem_of_getElem? isBuild) noBuild

theorem noBuild_with_star (acrossLines : Bool) (noBuild : .build ∉ before ++ later) :
    .build ∉ before ++ .emit (.anyCharStar acrossLines none) :: later := by
  intro mem
  rcases List.mem_append.1 mem with mem | mem
  · exact noBuild (List.mem_append_left _ mem)
  · exact noBuild (List.mem_append_right _ (List.mem_of_ne_of_mem Call.noConfusion mem))

theorem noBuild_callsWithLoop (acrossLines : Bool) (noBuild : .build ∉ before ++ later) :
    .build ∉ callsWithLoop before acrossLines later := by
  have noBefore := Call.build_not_mem_later 2 fun mem => noBuild (List.mem_append_left later mem)
  have noLater := Call.build_not_mem_later 2 fun mem => noBuild (List.mem_append_right before mem)
  simp [callsWithLoop, loopCalls, noBefore, noLater]

/-- The loop declares nothing that the star does not. -/
theorem tables_callsWithLoop (noBuild : .build ∉ before ++ later) :
    ((new encoding).afterCalls (callsWithLoop before acrossLines later)).tables =
      ((new encoding).afterCalls
        (before ++ .emit (.anyCharStar acrossLines none) :: later)).tables := by
  have noBefore : .build ∉ before := fun mem => noBuild (List.mem_append_left _ mem)
  have noLater : .build ∉ later := fun mem => noBuild (List.mem_append_right _ mem)
  simp only [afterCalls, callsWithLoop, List.foldl_append, List.foldl_cons]
  refine tables_afterCalls_later ?_ 2 noLater
  have loop : ∀ builder : Builder,
      (builder.afterCalls (loopCalls acrossLines)).tables = builder.tables := fun _ => rfl
  have same := @tables_afterCalls_later (new encoding)
    (((new encoding).after .newLabel).after .newLabel) rfl 2 _ noBefore
  exact (loop _).trans same

theorem Call.Labelled.with_star (labelled : Labelled (before ++ later)) (acrossLines : Bool) :
    Labelled (before ++ .emit (.anyCharStar acrossLines none) :: later) := by
  intro instruction mem
  rcases List.mem_append.1 mem with mem | mem
  · exact labelled instruction (List.mem_append_left _ mem)
  · rcases List.mem_cons.1 mem with same | mem
    · cases same
      rfl
    · exact labelled instruction (List.mem_append_right _ mem)

/-- The loop uses none but labels that are bound. -/
theorem settled_callsWithLoop (noBuild : .build ∉ before ++ later)
    (settled :
      (Draft.ofCalls encoding (before ++ .emit (.anyCharStar acrossLines none) :: later)).Settled) :
    (Draft.ofCalls encoding (callsWithLoop before acrossLines later)).Settled := by
  obtain ⟨shifts, -, loop, top, exit⟩ :=
    @Draft.shifts_callsWithLoop encoding acrossLines before later noBuild
  intro line mem label named
  obtain ⟨index, read⟩ := List.getElem?_of_mem mem
  rcases afterLoop_surjective (Call.lines encoding before).length index with
    ⟨offset, inside, rfl⟩ | ⟨address, apart, rfl⟩
  · rw [loop offset inside] at read
    match offset, inside with
    | 0, _ =>
        cases read
        cases named
        exact ⟨_, exit⟩
    | 1, _ =>
        cases read
        cases named
    | 2, _ =>
        cases read
        cases named
        exact ⟨_, top⟩
  · have inside := (List.getElem?_eq_some_iff.1 read).1
    rw [shifts.length, (strictMono_afterLoop _).lt_iff_lt] at inside
    have isLine := List.getElem?_eq_getElem inside
    obtain rfl := Option.some.inj (read.symm.trans (shifts.lines apart isLine))
    obtain ⟨early, named', rfl⟩ := Option.map_eq_some_iff.1 named
    obtain ⟨target, isBound⟩ := settled _ (List.mem_of_getElem? isLine) early named'
    exact ⟨_, (shifts.bound early).trans (by rw [isBound]; rfl)⟩

/-- A star in a program and a loop in its place. -/
theorem unrollsStar_of_calls (noBuild : .build ∉ before ++ later)
    (labelled : Call.Labelled (before ++ later)) {program : Program}
    (built : ((new encoding).afterCalls
      (before ++ .emit (.anyCharStar acrossLines none) :: later)).build.1 = .ok program) :
    ∃ program', ((new encoding).afterCalls (callsWithLoop before acrossLines later)).build.1 =
        .ok program' ∧ program' = program.withCode program'.code ∧
      UnrollsStar (Call.lines encoding before).length acrossLines program.code program'.code := by
  obtain ⟨shifts, isStar, loop, top, exit⟩ :=
    @Draft.shifts_callsWithLoop encoding acrossLines before later noBuild
  have holds := @holds_of_noBuild encoding _ (noBuild_with_star acrossLines noBuild)
  have holds' := @holds_of_noBuild encoding _ (noBuild_callsWithLoop acrossLines noBuild)
  obtain ⟨program', built', _⟩ :=
    holds'.build_ok (settled_callsWithLoop noBuild (holds.settled_of_build built))
  refine ⟨program', built', tables_of_build built built' (tables_callsWithLoop noBuild), ?_⟩
  have code := (holds.code_of_build built).2 _ _ isStar
  have code' : ∀ index line, index < 3 → (Draft.loopLines acrossLines)[index]? = some line → _ :=
    fun index line inside isLine =>
      (holds'.code_of_build built').2 _ line ((loop index inside).trans isLine)
  refine ⟨?_, code, ?_, ?_, ?_⟩
  · refine holds.relocation_of_shifts holds' built built' shifts ?_ (if_pos (Nat.zero_le _))
      (strictMono_afterLoop _) (fun _ => afterLoop_succ) ?_
    · exact fun line mem => (labelled.with_star acrossLines).hasTarget_eq_false mem
    · intro instruction read
      cases code.symm.trans read
      rfl
  · have read := code' 0 _ (by decide) rfl
    rwa [Option.bind_some, exit] at read
  · exact code' 1 _ (by decide) rfl
  · have read := code' 2 _ (by decide) rfl
    rwa [Option.bind_some, top] at read

/-- A star and its loop are the same to whoever runs the program: for every text, span, encoding and
option set, a run without limits that is answered with the star is answered with the loop, by the
same match or by none, and leaves the caller's region the same. -/
theorem stars_are_loops (labelled : Call.Labelled (before ++ later))
    (noBuild : .build ∉ before ++ later) {program : Program}
    (built : ((new encoding).afterCalls
      (before ++ .emit (.anyCharStar acrossLines none) :: later)).build.1 = .ok program) :
    ∃ program', ((new encoding).afterCalls (callsWithLoop before acrossLines later)).build.1 =
        .ok program' ∧
      ∀ (config : MatchConfig) (input : Input) (region : Region) (monitor : Monitor)
        (dispatches : Nat) (report : RegionReport) (after : Engine),
        config.toLimits = .unlimited → (∀ call, monitor.permits call = true) →
        (Engine.withConfig program config).runWithMonitor? dispatches input region monitor =
          some (report, after) →
        (∀ failure, report.outcome ≠ .stopped failure) →
        ∃ dispatches' report' after',
          (Engine.withConfig program' config).runWithMonitor? dispatches' input region monitor =
            some (report', after') ∧
          report'.outcome = report.outcome ∧ report'.region = report.region := by
  obtain ⟨program', built', same, unrolls⟩ := unrollsStar_of_calls noBuild labelled built
  refine ⟨program', built', ?_⟩
  generalize program'.code = code at same unrolls
  subst same
  intro config input region monitor dispatches report after unlimited permitted ran answered
  refine Engine.exists_runWithMonitor? ?options ?slots ran fun ending ended outcome => ?_
  case options => rfl
  case slots => rfl
  let setting := (Engine.withConfig program config).setting input monitor
  have free : setting.Free := ⟨unlimited, permitted⟩
  have relocates := @Search.relocates_start (afterLoop (Call.lines encoding before).length) setting
    code (if_pos (Nat.zero_le _)) (Engine.withConfig program config).store
  refine unrolls.exists_run? free relocates ended fun failure => ?_
  rw [outcome]
  exact answered failure

/-- A search for the longest match in a text whose last character is cut.  The star stops before that
character, and a branch leads behind it. -/
theorem stars_are_loops_of_cut_character :
    let before : List Call := [.newLabel, .push ⟨0⟩]
    let later : List Call := [.emit (.byte 98), .bind ⟨0⟩, .emit .accept]
    let program : Program :=
      { code := #[.push 3, .anyCharStar false none, .byte 98, .accept]
        templates := #[], classes := #[], repeatRanges := #[], groupCount := 0
        emptyCheckCount := 0, loggedStarts := .empty, loggedEnds := .empty, options := .none
        encoding := .utf8 }
    let program' :=
      program.withCode
        #[.push 5, .push 3, .anyChar false, .jump (-2), .byte 98, .accept]
    let config : MatchConfig := ⟨.unlimited, { findLongest := true }⟩
    let input : Input := (Input.whole ⟨#[97, 98, 195, 169]⟩).span 0 3
    let found : Region := ⟨#[some 0], #[some 2]⟩
    ((new .utf8).afterCalls (before ++ .emit (.anyCharStar false none) :: later)).build.1 =
        .ok program ∧
      ((new .utf8).afterCalls (callsWithLoop before false later)).build.1 = .ok program' ∧
      ((Engine.withConfig program config).runWithMonitor? 9 input .empty .patient).map
          (fun answer => answer.1.outcome) = some (.matched found) ∧
      ∃ dispatches' report' after',
        (Engine.withConfig program' config).runWithMonitor? dispatches' input .empty .patient =
          some (report', after') ∧ report'.outcome = .matched found ∧ report'.region = found := by
  intro before later program program' config input found
  have built : ((new .utf8).afterCalls
      (before ++ .emit (.anyCharStar false none) :: later)).build.1 = .ok program := rfl
  have built' : ((new .utf8).afterCalls (callsWithLoop before false later)).build.1 =
      .ok program' := rfl
  have matched : ((Engine.withConfig program config).runWithMonitor? 9 input .empty .patient).map
      (fun answer => (answer.1.outcome, answer.1.region)) = some (.matched found, found) := by
    decide +kernel
  obtain ⟨⟨report, after⟩, ran, answer⟩ := Option.map_eq_some_iff.1 matched
  obtain ⟨outcome, region⟩ := Prod.mk.inj answer
  have labelled : Call.Labelled (before ++ later) := by
    intro instruction mem
    simp only [before, later, List.cons_append, List.nil_append, List.mem_cons, List.not_mem_nil,
      or_false, reduceCtorEq, false_or, Call.emit.injEq] at mem
    rcases mem with rfl | rfl <;> rfl
  have noBuild : .build ∉ before ++ later := by
    simp [before, later]
  obtain ⟨other, assembled, follows⟩ := stars_are_loops labelled noBuild built
  obtain rfl : other = program' := Except.ok.inj (assembled.symm.trans built')
  obtain ⟨dispatches', report', after', ran', outcome', region'⟩ :=
    follows config input .empty .patient 9 report after rfl (fun _ => rfl) ran (by
      intro failure
      rw [outcome]
      exact Outcome.noConfusion)
  refine ⟨built, built', by decide +kernel, dispatches', report', after', ran', ?_, ?_⟩
  · rw [outcome', outcome]
  · rw [region', region]

end Builder

end PatternMachine
