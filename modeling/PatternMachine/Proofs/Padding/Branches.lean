import PatternMachine.Proofs.Padding.Peeking

/-!
# Branches that look for the next byte

A branch that knows with which byte the literal behind it starts does not leave a choice, or does not
go there at all, where another byte comes next: the literal would fail.  So it gives the answers of a
branch that looks at nothing (`Engine.peeking_branches_are_pushes`), with two exceptions.  A branch
looks at bytes, so where case is ignored it passes over characters that the literal accepts.  And only
a branch that looks at nothing counts as the way back of a loop, which an empty iteration steps over.
-/

namespace PatternMachine

/-- A branch at an address that looks for a byte, and the literal byte that it stands for. -/
inductive Program.PeeksAt (program : Program) (address : Nat) (byte : UInt8) : Int → Prop
  /-- The branch is taken at once if the byte, which comes right behind, does not come next. -/
  | orJump {offset : Int} (branch : program.code[address]? = some (.pushOrJump offset byte))
      (literal : program.code[address + 1]? = some (.byte byte)) : PeeksAt program address byte offset
  /-- The branch leads to the byte and is left out if that does not come next. -/
  | ifNext {offset : Int} {target : Nat}
      (branch : program.code[address]? = some (.pushIfNext offset byte))
      (leads : program.target? address offset = some target)
      (literal : program.code[target]? = some (.byte byte)) : PeeksAt program address byte offset

/-- A program with a branch that looks at nothing in the place of an instruction. -/
def Program.withPush (program : Program) (address : Nat) (offset : Int) : Program :=
  program.withCode (program.code.setIfInBounds address (.push offset))

namespace Plan

variable {attempt : Attempt} {point : Point} {store : Store} {offset : Int} {target : Nat}

theorem branch_of_outside (outside : attempt.program.target? point.address offset = none)
    (plan : Nat → Plan) : Plan.branch attempt point offset plan = .corrupt .addressOutOfRange := by
  rw [branch, outside]

theorem ofInstruction_push (leads : attempt.program.target? point.address offset = some target) :
    ofInstruction attempt point store (.push offset) =
      .goto point.next point.cursor [choiceAt point target] := by
  simp only [ofInstruction, branch, leads]

theorem ofInstruction_pushIfNext (byte : UInt8)
    (leads : attempt.program.target? point.address offset = some target) :
    ofInstruction attempt point store (.pushIfNext offset byte) =
      .goto point.next point.cursor
        (if nextIs attempt point byte then [choiceAt point target] else []) := by
  simp only [ofInstruction, branch, leads]

theorem ofInstruction_pushOrJump (byte : UInt8)
    (leads : attempt.program.target? point.address offset = some target) :
    ofInstruction attempt point store (.pushOrJump offset byte) =
      if nextIs attempt point byte then .goto point.next point.cursor [choiceAt point target]
      else .goto target point.cursor := by
  simp only [ofInstruction, branch, leads]

end Plan

namespace Search

variable {setting : Setting} {address : Nat} {byte : UInt8} {offset : Int}
  {code : Array Instruction} {barren : Point → Bool} {left right : Search}

section

variable (free : setting.Free) (pads : left.Pads setting.program barren right)
  (atBranch : left.point.address = address)
  (pushes : code[address]? = some (.push offset))
  (size : code.size = setting.program.code.size)
  {target : Nat} (leads : setting.program.target? address offset = some target)

include pads atBranch pushes in
/-- The second search comes to the branch that looks at nothing. -/
theorem Pads.fetches :
    (setting.withCode code).program.code[right.point.address]? = some (.push offset) := by
  rw [pads.point, atBranch]
  exact pushes

include pads atBranch size leads in
/-- The branch that looks at nothing leaves a choice. -/
theorem Pads.leavesChoice :
    Plan.ofInstruction (setting.withCode code).toAttempt right.point right.store (.push offset) =
      .goto left.point.next left.point.cursor [Plan.choiceAt left.point target] := by
  rw [pads.point]
  refine Plan.ofInstruction_push ?_
  rw [atBranch, ← leads]
  simp only [Program.target?, Setting.withCode, Program.withCode, size]

include free pads atBranch pushes size leads

/-- A branch does the same as one that looks at nothing, or leaves out a choice that leads nowhere. -/
theorem Pads.branch (fails : ∀ point, barren point = true → (setting.withCode code).FailsAt point)
    {instruction : Instruction} (fetched : setting.program.code[left.point.address]? = some instruction)
    (taken : Bool) (planned : Plan.ofInstruction setting.toAttempt left.point left.store instruction =
      .goto left.point.next left.point.cursor
        (if taken then [Plan.choiceAt left.point target] else []))
    (leadsNowhere : taken = false → barren ⟨target, left.point.cursor⟩ = true) :
    Rejoins setting (setting.withCode code) (Search.Pads setting.program barren) (left.step setting)
      (right.step (setting.withCode code)) := by
  have stores : (Effect.onStoreAll left.store
      (if taken then [Plan.choiceAt left.point target] else [])).PaddedBy setting.program barren
      (Effect.onStoreAll right.store [Plan.choiceAt left.point target]) := by
    cases taken with
    | true => exact pads.store.choice _
    | false => exact pads.store.extra (leadsNowhere rfl)
  obtain ⟨next, next', stepped, stepped', nextPads⟩ :=
    pads.exists_step free fetched (pads.fetches atBranch pushes) planned
      (pads.leavesChoice atBranch size leads) stores
  rw [stepped, stepped']
  exact nextPads.play free fails (.goto _)

/-- Where the byte behind a branch does not come next, a branch that looks at nothing leaves a choice,
fails at the byte, and comes to where the other one has gone at once. -/
theorem Pads.jump (distinct : setting.Distinguishes byte)
    (literal : code[address + 1]? = some (.byte byte)) {instruction : Instruction}
    (fetched : setting.program.code[left.point.address]? = some instruction)
    (planned : Plan.ofInstruction setting.toAttempt left.point left.store instruction =
      .goto target left.point.cursor)
    (misses : Plan.nextIs setting.toAttempt left.point byte = false) :
    Rejoins setting (setting.withCode code) (Search.Pads setting.program barren) (left.step setting)
      (right.step (setting.withCode code)) := by
  obtain ⟨next, stepped, point, store, best⟩ := exists_step_goto free fetched planned
  obtain ⟨pushed, stepped', point', store', best'⟩ := exists_step_goto (free.withCode code)
    (pads.fetches atBranch pushes) (pads.leavesChoice atBranch size leads)
  have comes : (setting.withCode code).program.code[pushed.point.address]? =
      some (.byte byte) := by
    rw [point', Point.next, atBranch]
    exact literal
  have failed : Plan.ofInstruction (setting.withCode code).toAttempt pushed.point pushed.store
      (.byte byte) = .fail := by
    refine Plan.literalByte_of_miss distinct ?_
    rw [Plan.nextIs, point']
    exact misses
  obtain ⟨back, resumed, point'', store'', best''⟩ :=
    exists_step_fail (free.withCode code) comes failed store' rfl
  rw [stepped, stepped']
  refine .of_step ?_
  rw [resumed]
  refine .of_paired (.goesOn ⟨point''.trans point.symm, ?_, ?_⟩)
  · rw [best'', best', best, pads.best]
  · rw [store, store'']
    exact pads.store

end

/-- A branch that goes elsewhere at once if the byte of the literal behind it does not come next does the
same as one that looks at nothing. -/
theorem Pads.orJump (free : setting.Free) (pads : left.Pads setting.program barren right)
    (atBranch : left.point.address = address)
    (branch : setting.program.code[address]? = some (.pushOrJump offset byte))
    (literal : code[address + 1]? = some (.byte byte)) (pushes : code[address]? = some (.push offset))
    (size : code.size = setting.program.code.size) (distinct : setting.Distinguishes byte)
    (fails : ∀ point, barren point = true → (setting.withCode code).FailsAt point) :
    Rejoins setting (setting.withCode code) (Search.Pads setting.program barren) (left.step setting)
      (right.step (setting.withCode code)) := by
  have fetched : setting.program.code[left.point.address]? =
      some (.pushOrJump offset byte) := by rw [atBranch, branch]
  cases leads : setting.program.target? address offset with
  | none =>
      have leads' : (setting.withCode code).program.target? right.point.address offset = none := by
        rw [pads.point, atBranch, ← leads]
        simp only [Program.target?, Setting.withCode, Program.withCode, size]
      obtain ⟨next, next', stepped, stepped', nextPads⟩ := pads.exists_step free fetched
        (pads.fetches atBranch pushes)
        (Plan.branch_of_outside (by rw [atBranch, leads]) _)
        (Plan.branch_of_outside leads' _) pads.store
      rw [stepped, stepped']
      exact nextPads.exitMoves free fails _ _
  | some target =>
      have planned := @Plan.ofInstruction_pushOrJump setting.toAttempt left.point left.store
        offset target byte (by rw [atBranch, leads])
      cases next : Plan.nextIs setting.toAttempt left.point byte with
      | true =>
          rw [next] at planned
          exact pads.branch free atBranch pushes size leads fails fetched true planned Bool.noConfusion
      | false =>
          rw [next] at planned
          exact pads.jump free atBranch pushes size leads distinct literal fetched planned next

/-- If a branch looks for the byte of the literal that it stands for, a run without limits has the same
outcomes with a branch that looks at nothing. -/
theorem run?_iff_of_branch (free : setting.Free) (store : Store)
    (peeks : setting.program.PeeksAt address byte offset) (noPop : .pop ∉ setting.program.code)
    (distinct : setting.Distinguishes byte)
    (isCode : code = setting.program.code.setIfInBounds address (.push offset))
    (avoids : (start setting store).Avoids setting (EndsBefore address)) (outcome : Outcome) :
    (∃ dispatches ending, run? setting dispatches (start setting store) = some ending ∧
        ending.outcome = outcome) ↔
      ∃ dispatches ending, run? (setting.withCode code) dispatches
        (start (setting.withCode code) store) = some ending ∧ ending.outcome = outcome := by
  have size : code.size = setting.program.code.size := by rw [isCode, Array.size_setIfInBounds]
  have pushes : ∀ {instruction}, setting.program.code[address]? = some instruction →
      code[address]? = some (.push offset) := by
    intro instruction fetched
    rw [isCode, Array.getElem?_setIfInBounds_self_of_lt (Array.getElem?_eq_some_iff.1 fetched).1]
  have apart : ∀ {other : Nat}, other ≠ address → code[other]? = setting.program.code[other]? := by
    intro other apart
    rw [isCode, Array.getElem?_setIfInBounds_ne apart.symm]
  cases peeks with
  | orJump branch literal =>
      have behind := (apart (Nat.succ_ne_self address)).trans literal
      have fails : ∀ point, (fun _ => false) point = true → (setting.withCode code).FailsAt point :=
        fun _ => Bool.noConfusion
      refine run?_iff_of_pads free store branch isCode (.inr ⟨rfl, avoids⟩) noPop fails ?_ outcome
      intro left right pads atBranch
      exact pads.orJump free atBranch branch behind (pushes branch) size distinct fails
  | @ifNext target branch leads literal =>
      have elsewhere : target ≠ address := by
        rintro rfl
        rw [branch] at literal
        cases literal
      have fails : ∀ point, setting.missesAt target byte point = true →
          (setting.withCode code).FailsAt point :=
        fun _ misses => @Setting.failsAt_of_byte (setting.withCode code) target byte
          ((apart elsewhere).trans literal) distinct _ misses
      refine run?_iff_of_pads free store branch isCode (.inr ⟨rfl, avoids⟩) noPop fails ?_ outcome
      intro left right pads atBranch
      have planned := @Plan.ofInstruction_pushIfNext setting.toAttempt left.point left.store
        offset target byte (by rw [atBranch, leads])
      refine pads.branch free atBranch (pushes branch) size leads fails (by rw [atBranch, branch]) _
        planned fun misses => ?_
      rw [Attempt.missesAt, beq_self_eq_true, Bool.true_and, Bool.not_eq_true']
      exact misses

end Search

/-- A branch that looks for the byte of the literal that it stands for, right behind it or at its
target, gives the same answers as one that looks at nothing.  If case is ignored, no character before
the end of the span but the byte itself may be the same as the byte.  An empty iteration right before
the branch may not end the run: it would step over a branch that looks at nothing. -/
theorem Engine.peeking_branches_are_pushes {program : Program} {address : Nat} {byte : UInt8}
    {offset : Int} (peeks : program.PeeksAt address byte offset) (noPop : .pop ∉ program.code)
    {config : MatchConfig} (unlimited : config.toLimits = .unlimited) {input : Input}
    {monitor : Monitor} (permitted : ∀ call, monitor.permits call = true)
    (distinct : ((withConfig program config).setting input monitor).Distinguishes byte)
    (before : Region)
    (checked : ∀ check, check + 1 = address →
      ¬ (withConfig program config).Answers input before monitor
        (.stopped (.corrupt check .noLoopBack)) before)
    (outcome : Outcome) (region : Region) :
    (withConfig program config).Answers input before monitor outcome region ↔
      (withConfig (program.withPush address offset) config).Answers input before monitor outcome
        region := by
  have free : ((withConfig program config).setting input monitor).Free := ⟨unlimited, permitted⟩
  have avoids : (Search.start ((withConfig program config).setting input monitor)
      (withConfig program config).store).Avoids ((withConfig program config).setting input monitor)
      (Search.EndsBefore address) := by
    rintro dispatches ending ended ⟨check, isBefore, bad⟩
    have answer := answers_of_run? ended before
    rw [bad] at answer
    exact checked check isBefore answer
  refine answers_iff ?options ?slots (fun outcome => ?_) outcome region
  case options => rfl
  case slots => rfl
  exact Search.run?_iff_of_branch free _ peeks noPop distinct rfl avoids outcome

/-- Case is ignored, and an iteration that is not empty ends right before the branch. -/
theorem Engine.peeking_branches_are_pushes_behind_iteration :
    let program : Program :=
      { code := #[.emptyCheckStart 0, .byte 120, .emptyCheckEnd 0 none, .pushOrJump 3 97, .byte 97,
          .byte 98, .accept]
        templates := #[], classes := #[], repeatRanges := #[], groupCount := 0
        emptyCheckCount := 1, loggedStarts := .empty, loggedEnds := .empty
        options := { ignoreCase := true }, encoding := .utf8 }
    let config : MatchConfig := ⟨.unlimited, .none⟩
    let input : Input := .whole "xaÉ".toUTF8
    let found : Region := ⟨#[some 0], #[some 1]⟩
    program.PeeksAt 3 97 3 ∧
      (withConfig program config).Answers input .empty .patient (.matched found) found ∧
      (withConfig (program.withPush 3 3) config).Answers input .empty .patient (.matched found)
        found := by
  intro program config input found
  have peeks : program.PeeksAt 3 97 3 := .orJump rfl rfl
  have noPop : .pop ∉ program.code := by simp [program]
  have distinct : ((withConfig program config).setting input .patient).Distinguishes 97 := by
    have table : ∀ position < 4, ∀ character ∈
        ((withConfig program config).setting input .patient).text.charAt? position 4,
        Encoding.utf8.fold character.code = Encoding.utf8.fold 97 →
          ((withConfig program config).setting input .patient).text.byte position = 97 := by
      decide +kernel
    intro _ position character here same
    exact table position (Text.charAt?_eq_some_iff.1 here).1.1 character here same
  have answers : (withConfig program config).Answers input .empty .patient (.matched found)
      found := @answers_of_runWithMonitor? _ _ _ 9 _ _ _ (by decide +kernel)
  have checked : ∀ check, check + 1 = 3 → ¬ (withConfig program config).Answers input .empty
      .patient (.stopped (.corrupt check .noLoopBack)) .empty := by
    intro check _ corrupt
    cases (answers.unique corrupt).1
  refine ⟨peeks, answers, ?_⟩
  exact (peeking_branches_are_pushes peeks noPop rfl (fun _ => rfl) distinct .empty checked
    (.matched found) found).1 answers

/-- A branch that looks for a small letter passes over the large one, which the literal accepts where
case is ignored.  And behind an empty iteration it ends the run. -/
theorem Engine.peeking_branches_differ_from_pushes :
    let folding : Program :=
      { code := #[.pushOrJump 3 97, .byte 97, .accept, .fail]
        templates := #[], classes := #[], repeatRanges := #[], groupCount := 0
        emptyCheckCount := 0, loggedStarts := .empty, loggedEnds := .empty
        options := { ignoreCase := true }, encoding := .utf8 }
    let checked : Program :=
      { code := #[.emptyCheckStart 0, .emptyCheckEnd 0 none, .pushOrJump 3 97, .byte 97, .accept,
          .fail]
        templates := #[], classes := #[], repeatRanges := #[], groupCount := 0
        emptyCheckCount := 1, loggedStarts := .empty, loggedEnds := .empty, options := .none
        encoding := .utf8 }
    let config : MatchConfig := ⟨.unlimited, .none⟩
    let found : Region := ⟨#[some 0], #[some 1]⟩
    (folding.PeeksAt 0 97 3 ∧ .pop ∉ folding.code ∧
      (withConfig folding config).Answers (.whole "A".toUTF8) .empty .patient .unmatched
        ⟨#[none], #[none]⟩ ∧
      (withConfig (folding.withPush 0 3) config).Answers (.whole "A".toUTF8) .empty .patient
        (.matched found) found) ∧
    checked.PeeksAt 2 97 3 ∧ .pop ∉ checked.code ∧
      (withConfig checked config).Answers (.whole "a".toUTF8) .empty .patient
        (.stopped (.corrupt 1 .noLoopBack)) .empty ∧
      (withConfig (checked.withPush 2 3) config).Answers (.whole "a".toUTF8) .empty .patient
        (.matched found) found := by
  intro folding checked config found
  refine ⟨⟨.orJump rfl rfl, by simp [folding], ?_, ?_⟩, .orJump rfl rfl, by simp [checked], ?_, ?_⟩
  · exact @answers_of_runWithMonitor? _ _ _ 9 _ _ _ (by decide +kernel)
  · exact @answers_of_runWithMonitor? _ _ _ 9 _ _ _ (by decide +kernel)
  · exact @answers_of_runWithMonitor? _ _ _ 9 _ _ _ (by decide +kernel)
  · exact @answers_of_runWithMonitor? _ _ _ 9 _ _ _ (by decide +kernel)

end PatternMachine
