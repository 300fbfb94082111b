import PatternMachine.Proofs.Guarded.Run

/-!
# Runs read nothing outside their tables

An engine may be made for any program and run any number of times.  Each of its runs stays within
the span it is given, and is the run under guard, in which an access outside a text, a table or the
registers would have no result.
-/

namespace PatternMachine

namespace Engine

/-- Whether an engine has come about by making it and running it a number of times. -/
inductive Used : Engine → Prop where
  /-- The engine is new. -/
  | fresh (program : Program) (config : MatchConfig) : Used (.withConfig program config)
  /-- The engine has run once more. -/
  | again {engine after : Engine} {dispatches : Nat} {input : Input} {monitor : Monitor}
      {report : Report} (used : Used engine)
      (ran : engine.exec? dispatches input monitor = some (report, after)) : Used after

variable {engine : Engine}

/-- A run that has ended has an ending, which its report and the engine after it are made of. -/
theorem ending_of_exec? {dispatches : Nat} {input : Input} {monitor : Monitor} {report : Report}
    {after : Engine} (ran : engine.exec? dispatches input monitor = some (report, after)) :
    ∃ ending, Search.run? (engine.setting input monitor) dispatches
        (.start (engine.setting input monitor) engine.store) = some ending ∧
      report.outcome = ending.outcome ∧ after = { engine with store := ending.last.store } := by
  obtain ⟨ending, ended, answer⟩ := Option.map_eq_some_iff.1 ran
  cases answer
  exact ⟨ending, ended, rfl, rfl⟩

/-- An engine keeps the registers of its program from run to run. -/
theorem Used.slots (used : engine.Used) :
    engine.store.registers.groups.size = engine.program.regionSize ∧
      engine.store.registers.repeats.size = engine.program.repeatRanges.size := by
  induction used with
  | fresh program config => exact ⟨Array.size_replicate, Array.size_replicate⟩
  | again used ran ih =>
      obtain ⟨ending, ended, _, rfl⟩ := ending_of_exec? ran
      have fits := (Search.fits_start ih.1 ih.2).run? ended
      exact ⟨fits.store.groupSlots, fits.store.repeatSlots⟩

/-- Every run of an engine starts within its span. -/
theorem Used.fits_start (used : engine.Used) (input : Input) (monitor : Monitor) :
    (Search.start (engine.setting input monitor) engine.store).Fits
      (engine.setting input monitor).toAttempt :=
  Search.fits_start used.slots.1 used.slots.2

end Engine

namespace Guarded

/-- A run about to dispatch its first instruction.  The slots of its matches are counted first. -/
def start (setting : Setting) (store : Store) : Option Search := do
  let _slots ← regionSize setting.program
  let cursor ← cursorAt setting.text setting.input.start
  some { Search.start setting store with point := ⟨0, cursor⟩ }

/-- The first slot of a region that is reported. -/
def firstSlot : Outcome → Option (Option Nat × Option Nat)
  | .matched region => do
      let first ← region.starts[0]?
      let last ← region.stops[0]?
      some (first, last)
  | _ => some (none, none)

/-- One run, and the engine after it.  Where the match lies is looked up to be logged. -/
def exec (engine : Engine) (dispatches : Nat) (input : Input) (monitor : Monitor) :
    Option (Option (Report × Engine)) := do
  let setting := engine.setting input monitor
  let first ← start setting engine.store
  match ← run setting dispatches first with
  | none => some none
  | some ending =>
      let _logged ← firstSlot ending.outcome
      some (some
        ({ outcome := ending.outcome
           hookCalls := ending.last.hookCalls
           events :=
             (#[engine.openingEvent input] ++ ending.last.events).push (.ended ending.outcome) },
          { engine with store := ending.last.store }))

theorem start_eq {setting : Setting} (addressable : Addressable setting.program) (store : Store) :
    start setting store = some (.start setting store) := by
  have within : setting.input.start ≤ setting.text.size :=
    Nat.le_trans setting.input.start_le_range setting.range_le_size
  rw [start, regionSize_eq addressable.slots, cursorAt_eq within]
  rfl

theorem exists_firstSlot {attempt : Attempt} {outcome : Outcome} (fits : outcome.Fits attempt) :
    ∃ bounds, firstSlot outcome = some bounds := by
  cases outcome with
  | unmatched | stopped failure => exact ⟨_, rfl⟩
  | matched region =>
      have own := fits region rfl
      have filled : 0 < attempt.program.regionSize := Nat.succ_pos _
      rw [firstSlot, Array.getElem?_eq_getElem (by rwa [own.starts]),
        Array.getElem?_eq_getElem (by rwa [own.stops])]
      exact ⟨_, rfl⟩

/-- A run of an engine reads nothing outside, as long as the stack stays small. -/
theorem exec_eq {engine : Engine} (used : engine.Used) (addressable : Addressable engine.program)
    {input : Input} {monitor : Monitor} {dispatches : Nat}
    (stays : ∀ visit ∈ Search.trail (engine.setting input monitor) dispatches
      (.start (engine.setting input monitor) engine.store), visit.after.store.depth < 2 ^ 31) :
    exec engine dispatches input monitor = some (engine.exec? dispatches input monitor) := by
  have fits := used.fits_start input monitor
  have empty : (Search.start (engine.setting input monitor) engine.store).store.depth < 2 ^ 31 :=
    Nat.two_pow_pos 31
  have ran := @run_eq (engine.setting input monitor) _ addressable dispatches fits empty stays
  rw [exec, start_eq addressable, Option.bind_eq_bind, Option.bind_some, ran, Option.bind_eq_bind,
    Option.bind_some, Engine.exec?]
  cases ended : Search.run? (engine.setting input monitor) dispatches
      (.start (engine.setting input monitor) engine.store) with
  | none => rfl
  | some ending =>
      obtain ⟨bounds, found⟩ := exists_firstSlot (fits.run? ended).outcome
      dsimp only
      rw [found]
      rfl

end Guarded

namespace Engine

/-- Whatever program an engine runs, no run of it reads outside a text, a table or the registers:
the run under guard, in which such a reading has no result, is the run.  Every state on the way lies
within the span with all that its frames and registers hold, and so does every region that is
reported.  Machine words must count the slots of a match and reach the ends of literals in their
templates, and the stack must stay small enough for call levels to be counted. -/
theorem runs_stay_in_bounds {engine : Engine} (used : engine.Used)
    (addressable : Guarded.Addressable engine.program) (input : Input) (monitor : Monitor)
    (dispatches : Nat) :
    let setting := engine.setting input monitor
    let first := Search.start setting engine.store
    let trail := Search.trail setting dispatches first
    Visit.peak trail < 2 ^ 31 →
      input.range ≤ input.bytes.size ∧ first.Fits setting.toAttempt ∧
        (∀ visit ∈ trail, visit.before.Fits setting.toAttempt ∧
          visit.after.Fits setting.toAttempt) ∧
        Guarded.exec engine dispatches input monitor =
          some (engine.exec? dispatches input monitor) ∧
        ∀ report after, engine.exec? dispatches input monitor = some (report, after) →
          report.outcome.Fits setting.toAttempt := by
  intro setting first trail shallow
  have fits := used.fits_start input monitor
  refine ⟨input.range_le_size, fits, ?_, ?_, ?_⟩
  · intro visit mem
    obtain ⟨before, _, after⟩ := fits.trail visit mem
    exact ⟨before, after⟩
  · apply Guarded.exec_eq used addressable
    intro visit mem
    exact Nat.lt_of_le_of_lt (Visit.depth_le_peak mem) shallow
  · intro report after ran
    obtain ⟨ending, ended, same, _⟩ := ending_of_exec? ran
    rw [same]
    exact (fits.run? ended).outcome

/-- A group is opened, its frame is thrown away, and the search ends before its start. -/
theorem runs_stay_in_bounds_of_dangling_group :
    let program : Program :=
      { code := #[.openGroup 1 true, .pop, .template 0 0 1, .closeGroup 1 true, .lookBehind 2,
          .accept]
        templates := #[⟨#[98]⟩], classes := #[], repeatRanges := #[], groupCount := 1
        emptyCheckCount := 0, loggedStarts := .empty, loggedEnds := .empty, options := .none
        encoding := .utf8 }
    let engine := withConfig program ⟨.unlimited, .none⟩
    let input := (Input.whole ⟨#[97, 98]⟩).span 1 2
    let region : Region := ⟨#[some 1, some 2], #[some 0, some 2]⟩
    ∃ report after, Guarded.exec engine 6 input .patient = some (some (report, after)) ∧
      report.outcome = .matched region ∧
        region.Fits (engine.setting input .patient).toAttempt := by
  intro program engine input region
  have addressable : Guarded.Addressable engine.program := ⟨by decide, by decide +kernel⟩
  have shallow : Visit.peak (Search.trail (engine.setting input .patient) 6
      (.start (engine.setting input .patient) engine.store)) < 2 ^ 31 := by decide +kernel
  have ended : (engine.exec? 6 input .patient).map (fun answer => answer.1.outcome) =
      some (.matched region) := by decide +kernel
  obtain ⟨⟨report, after⟩, ran, outcome⟩ := Option.map_eq_some_iff.1 ended
  obtain ⟨_, _, _, guarded, fits⟩ :=
    runs_stay_in_bounds (.fresh program _) addressable input .patient 6 shallow
  refine ⟨report, after, ?_, outcome, fits report after ran region outcome⟩
  rw [guarded, ran]

/-- A program declares as many groups as a machine word can count, so that the slots of a match,
which are one more, are too many for it.  Its literals and its stack are small, and the search would
end without a match, but under guard the run has no result. -/
theorem slots_beyond_words_break_runs :
    let program : Program :=
      { code := #[.openGroup 1 false, .fail], templates := #[], classes := #[], repeatRanges := #[]
        groupCount := 2 ^ 64 - 1, emptyCheckCount := 0, loggedStarts := .empty
        loggedEnds := .empty, options := .none, encoding := .utf8 }
    let engine := withConfig program ⟨.unlimited, .none⟩
    let input := Input.whole ⟨#[]⟩
    let setting := engine.setting input .patient
    engine.Used ∧ (∀ instruction ∈ program.code, Guarded.templateEnd instruction < 2 ^ 64) ∧
      Visit.peak (Search.trail setting 2 (.start setting engine.store)) < 2 ^ 31 ∧
      (engine.exec? 2 input .patient).map (fun answer => answer.1.outcome) = some .unmatched ∧
      Guarded.exec engine 2 input .patient = none := by
  intro program engine input setting
  refine ⟨.fresh program _, by decide +kernel, by decide +kernel, by decide +kernel, ?_⟩
  have uncounted : Guarded.regionSize program = none := by decide
  have stuck : Guarded.start setting engine.store = none := by
    rw [Guarded.start, show setting.program = program from rfl, uncounted]
    rfl
  rw [Guarded.exec, show engine.setting input .patient = setting from rfl, stuck]
  rfl

end Engine

end PatternMachine
