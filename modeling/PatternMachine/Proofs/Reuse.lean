import PatternMachine.Proofs.Answers
import PatternMachine.Proofs.Safety

/-!
# Nothing survives a run

An engine serves one call after the other, and each of them may be cut off anywhere.  What a call
leaves behind are registers of the sizes that they were made with, and the next run makes them
blank.  So it goes through the same states as on an engine that has just been made.
-/

namespace PatternMachine

namespace Engine

/-- A call of an engine, with the number of dispatches that it may take. -/
inductive Call where
  | run (dispatches : Nat) (input : Input)
  | runInRegion (dispatches : Nat) (input : Input) (region : Region)
  | runWithMonitor (dispatches : Nat) (input : Input) (region : Region) (monitor : Monitor)

/-- The engine after a call, if the call has ended. -/
def afterCall? (engine : Engine) : Call → Option Engine
  | .run dispatches input => (engine.run? dispatches input).map Prod.snd
  | .runInRegion dispatches input region =>
      (engine.runInRegion? dispatches input region).map Prod.snd
  | .runWithMonitor dispatches input region monitor =>
      (engine.runWithMonitor? dispatches input region monitor).map Prod.snd

/-- The engine after calls made one after the other, if all of them have ended. -/
def afterCalls? (engine : Engine) (calls : List Call) : Option Engine :=
  calls.foldlM afterCall? engine

variable {engine after : Engine}

/-- Whatever is asked of an engine, it makes one run. -/
theorem exec?_of_afterCall? {call : Call} (called : engine.afterCall? call = some after) :
    ∃ dispatches input monitor report,
      engine.exec? dispatches input monitor = some (report, after) := by
  cases call with
  | run dispatches input =>
      obtain ⟨⟨report, _⟩, ran, rfl⟩ := Option.map_eq_some_iff.1 called
      exact ⟨dispatches, input, .patient, report, ran⟩
  | runInRegion dispatches input region =>
      obtain ⟨⟨filled, _⟩, ran, rfl⟩ := Option.map_eq_some_iff.1 called
      exact ⟨dispatches, input, .patient, _, (exec?_of_runWithMonitor? ran).1⟩
  | runWithMonitor dispatches input region monitor =>
      obtain ⟨⟨filled, _⟩, ran, rfl⟩ := Option.map_eq_some_iff.1 called
      exact ⟨dispatches, input, monitor, _, (exec?_of_runWithMonitor? ran).1⟩

/-- An engine that has served calls since it was made has been used, and has kept its program and
its configuration. -/
theorem used_of_afterCalls? {calls : List Call} (used : engine.Used)
    (served : engine.afterCalls? calls = some after) :
    after.Used ∧ after.program = engine.program ∧ after.config = engine.config := by
  induction calls generalizing engine with
  | nil =>
      cases served
      exact ⟨used, rfl, rfl⟩
  | cons call calls ih =>
      rw [afterCalls?, List.foldlM_cons] at served
      obtain ⟨next, called, rest⟩ := Option.bind_eq_some_iff.1 served
      obtain ⟨dispatches, input, monitor, report, ran⟩ := exec?_of_afterCall? called
      have kept := ih (used.again ran) rest
      obtain ⟨ending, _, _, rfl⟩ := ending_of_exec? ran
      exact kept

/-- What a run starts from is the same on every engine for a program. -/
theorem Used.reset_store (used : engine.Used) :
    engine.store.reset = .blank engine.program.regionSize engine.program.repeatRanges.size := by
  obtain ⟨groups, repeats⟩ := used.slots
  rw [Store.reset, Registers.reset, groups, repeats]
  rfl

/-- A run on a used engine starts like one on a new engine. -/
theorem Used.start_eq (used : engine.Used) (setting : Setting) :
    Search.start setting engine.store =
      .start setting (withConfig engine.program engine.config).store := by
  rw [Search.start, Search.start, used.reset_store, (Used.fresh _ _).reset_store]
  rfl

/-- A run on a used engine reports what one on a new engine reports. -/
theorem Used.report_eq (used : engine.Used) (dispatches : Nat) (input : Input)
    (monitor : Monitor) :
    (engine.exec? dispatches input monitor).map Prod.fst =
      ((withConfig engine.program engine.config).exec? dispatches input monitor).map Prod.fst := by
  rw [exec?, exec?, Option.map_map, Option.map_map, used.start_eq]
  rfl

/-- And it fills a region in the same way. -/
theorem Used.filled_eq (used : engine.Used) (dispatches : Nat) (input : Input) (region : Region)
    (monitor : Monitor) :
    (engine.runWithMonitor? dispatches input region monitor).map Prod.fst =
      ((withConfig engine.program engine.config).runWithMonitor? dispatches input region
        monitor).map Prod.fst := by
  have filled := congrArg
    (Option.map fun report : Report =>
      (⟨report, engine.updateRegion region report.outcome⟩ : RegionReport))
    (used.report_eq dispatches input monitor)
  rw [Option.map_map, Option.map_map] at filled
  rw [runWithMonitor?, runWithMonitor?, Option.map_map, Option.map_map]
  exact filled

/-- Nothing survives from one run to the next.  Whatever an engine has been called for and however
each call has ended, the next run reports what it reports on a new engine, and goes through the same
states.  If time is not limited, it does not matter either what the clock says. -/
theorem runs_forget_earlier_calls {program : Program} {config : MatchConfig}
    (timeless : config.timeLimit = none) {calls : List Call}
    (served : (withConfig program config).afterCalls? calls = some engine) (dispatches : Nat)
    (input : Input) (region : Region) (permits : Nat → Bool) (elapsed elapsed' : Nat → Nat) :
    let fresh := withConfig program config
    let setting := engine.setting input ⟨permits, elapsed⟩
    let setting' := fresh.setting input ⟨permits, elapsed'⟩
    (engine.run? dispatches input).map Prod.fst = (fresh.run? dispatches input).map Prod.fst ∧
      (engine.runInRegion? dispatches input region).map Prod.fst =
        (fresh.runInRegion? dispatches input region).map Prod.fst ∧
      (engine.runWithMonitor? dispatches input region ⟨permits, elapsed⟩).map Prod.fst =
        (fresh.runWithMonitor? dispatches input region ⟨permits, elapsed'⟩).map Prod.fst ∧
      Search.trail setting dispatches (.start setting engine.store) =
        Search.trail setting' dispatches (.start setting' fresh.store) := by
  obtain ⟨used, rfl, rfl⟩ := used_of_afterCalls? (.fresh program config) served
  intro fresh setting setting'
  refine ⟨used.report_eq dispatches input .patient,
    used.filled_eq dispatches input region .patient, ?_, ?_⟩
  · rw [runWithMonitor?, exec?_withClock timeless permits elapsed elapsed', ← runWithMonitor?]
    exact used.filled_eq dispatches input region ⟨permits, elapsed'⟩
  · have sameClock : Search.trail (setting'.withClock elapsed) dispatches
        (.start setting' fresh.store) =
          Search.trail setting' dispatches (.start setting' fresh.store) :=
      Search.trail_withClock timeless elapsed dispatches _
    rw [show Search.start setting engine.store = .start setting' fresh.store from
      used.start_eq setting]
    exact sameClock

/-- A run has been cut off inside a star within a repeat, with a group opened for good, and another
one has ended with a match. -/
theorem runs_forget_earlier_calls_of_cut_off_star :
    let program : Program :=
      { code := #[.openGroup 1 false, .repeatStart 0 1 true, .anyCharStar false none, .accept]
        templates := #[], classes := #[], repeatRanges := #[⟨1, 1⟩], groupCount := 1
        emptyCheckCount := 0, loggedStarts := .empty, loggedEnds := .empty, options := .none
        encoding := .utf8 }
    let fresh := withConfig program ⟨{ Limits.unlimited with stackLimit := .atMost 2 }, .none⟩
    let long := Input.whole ⟨#[97, 98, 99, 100]⟩
    let short := Input.whole ⟨#[97]⟩
    ∃ engine, fresh.afterCalls? [.run 4 short, .runInRegion 4 long .empty] = some engine ∧
      engine.store.depth = 2 ∧ engine.store ≠ fresh.store ∧
        (engine.run? 4 short).map Prod.fst = (fresh.run? 4 short).map Prod.fst := by
  intro program fresh long short
  have served : ((fresh.afterCalls? [.run 4 short, .runInRegion 4 long .empty]).map fun engine =>
      decide (engine.store.depth = 2 ∧ engine.store ≠ fresh.store)) = some true := by
    decide +kernel
  obtain ⟨engine, served, left⟩ := Option.map_eq_some_iff.1 served
  obtain ⟨deep, changed⟩ := of_decide_eq_true left
  exact ⟨engine, served, deep, changed,
    (runs_forget_earlier_calls rfl served 4 short .empty (fun _ => true) (fun _ => 0)
      fun _ => 0).1⟩

end Engine

end PatternMachine
