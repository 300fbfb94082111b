import PatternMachine.Proofs.Nesting.Assembly
import PatternMachine.Proofs.Safety

/-!
# Structured programs are never malformed

A program that is put together from blocks is checked by its listing.  So its runs are sound,
whatever they are given, and none of them ends because of a malformed instruction.
-/

namespace PatternMachine

variable {program : Program} {listing : Listing}

/-- Whenever a run of a checked program dispatches an instruction, that finds what it looks for, and
the run does not end because of a malformed one. -/
theorem Listing.Checks.sound_runs (checks : listing.Checks program) {engine : Engine}
    (used : engine.Used) (runs : engine.program = program) (input : Input) (monitor : Monitor)
    (dispatches : Nat) :
    let setting := engine.setting input monitor
    (∀ search ∈ Search.dispatched setting dispatches (.start setting engine.store),
        search.IsReady program) ∧
      ∀ report after, engine.exec? dispatches input monitor = some (report, after) →
        ∀ address reason, report.outcome ≠ .stopped (.corrupt address reason) := by
  subst runs
  intro setting
  have start : listing.Sound setting.program (.start setting engine.store) :=
    checks.sound_start used.slots.2
  have steps : ∀ {search}, listing.Sound setting.program search →
      Search.Results (listing.Sound setting.program) Ending.IsSound (search.step setting) :=
    fun sound => checks.step_results sound
  refine ⟨?_, ?_⟩
  · intro search mem
    refine (Search.dispatched_invariant start ?_ search mem).isReady checks
    intro search next sound stepped
    have kept := steps sound
    rw [stepped] at kept
    exact kept
  · intro report after ran
    obtain ⟨ending, ended, same, _⟩ := Engine.ending_of_exec? ran
    rw [same]
    exact Search.run?_of_steps steps start ended

namespace Engine

/-- Every block can be assembled on a builder without code.  A program that has the code of a block,
and all that the block names, is never found malformed: whatever an engine for it has been used for,
whatever it runs on and whatever limits it, each instruction that a run comes to is there and finds
the mark, the iteration or the active entry of a repeat that it looks for. -/
theorem structured_programs_never_report_corruption (block : Block) :
    (∀ builder : Builder, builder.code = #[] → builder.uses = #[] →
      ∃ program, (block.finish builder).build.1 = .ok program ∧
        program.code.toList = block.listing.map Line.instruction) ∧
    ∀ program : Program, program.code.toList = block.listing.map Line.instruction →
      block.isValid program = true → block.loops.Nodup →
      ∀ (engine : Engine), engine.Used → engine.program = program →
      ∀ (input : Input) (monitor : Monitor) (dispatches : Nat),
        let setting := engine.setting input monitor
        (∀ search ∈ Search.dispatched setting dispatches (.start setting engine.store),
            search.IsReady program) ∧
          ∀ report after, engine.exec? dispatches input monitor = some (report, after) →
            ∀ address reason, report.outcome ≠ .stopped (.corrupt address reason) := by
  refine ⟨fun builder noCode noUses => block.finish_build noCode noUses, ?_⟩
  intro program code valid apart engine used runs input monitor dispatches
  exact (Block.checks code valid apart).sound_runs used runs input monitor dispatches

/-- A guarded repeat of two alternatives, with lookarounds, a group and an atomic star in them, is
left after its second iteration, when a third one has failed. -/
theorem structured_programs_never_report_corruption_of_nested_loops :
    let block : Block :=
      .bounded 0 true false (some ⟨0, some [1]⟩)
        (.choice
          (.sequence (.enclosed .look (.leaf (.byte 97)))
            (.sequence
              (.enclosed (.capture 1)
                (.enclosed .atomic (.star (some ⟨1, none⟩) (.leaf (.byte 97)))))
              (.leaf (.byte 98))))
          (.sequence (.enclosed .lookNot (.leaf (.byte 97)))
            (.sequence (.enclosed (.behindNot 1) (.leaf (.byte 99))) (.leaf (.byte 99)))))
    let builder : Builder :=
      { Builder.new .utf8 with groupCount := 1, emptyCheckCount := 2, repeatRanges := #[⟨1, 3⟩] }
    let input := Input.whole ⟨#[97, 98, 99, 97]⟩
    ∃ program, (block.finish builder).build.1 = .ok program ∧ block.isValid program = true ∧
      block.loops.Nodup ∧
      let engine := withConfig program ⟨.unlimited, .none⟩
      let setting := engine.setting input .patient
      let run := Search.dispatched setting 55 (.start setting engine.store)
      (engine.exec? 55 input .patient).map (fun answer => answer.1.outcome) =
          some (.matched ⟨#[some 0, some 0], #[some 3, some 1]⟩) ∧
        run.length = 55 ∧ ∀ search ∈ run, search.IsReady program := by
  intro block builder input
  let program : Program :=
    { code := #[.repeatStart 0 26 true, .emptyCheckStart 0, .push 15, .lookStart, .byte 97,
        .lookEnd, .openGroup 1 true, .atomicStart, .push 5, .emptyCheckStart 1, .byte 97,
        .emptyCheckEnd 1 none, .jump (-4), .atomicEnd, .closeGroup 1 true, .byte 98, .jump 8,
        .lookNotStart 3, .byte 97, .lookNotFail, .lookBehindNotStart 3 1, .byte 99,
        .lookBehindNotFail, .byte 99, .emptyCheckEnd 0 (some [1]), .repeatNext 0 true false,
        .accept]
      templates := #[], classes := #[], repeatRanges := #[⟨1, 3⟩], groupCount := 1
      emptyCheckCount := 2, loggedStarts := GroupMask.empty.insert 1
      loggedEnds := GroupMask.empty.insert 1, options := .none, encoding := .utf8 }
  have built : (block.finish builder).build.1 = .ok program := by decide +kernel
  have code : program.code.toList = block.listing.map Line.instruction := by decide +kernel
  have valid : block.isValid program = true := by decide +kernel
  have apart : block.loops.Nodup := by decide
  have safe := (structured_programs_never_report_corruption block).2 program code valid apart
    (withConfig program ⟨.unlimited, .none⟩) (.fresh program _) rfl input .patient 55
  refine ⟨program, built, valid, apart, ?_, ?_, safe.1⟩
  · decide +kernel
  · decide +kernel

end Engine

end PatternMachine
