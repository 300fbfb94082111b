import PatternMachine.Engine
import PatternMachine.Proofs.Monitors

/-!
# What callers are answered

A run that is asked to fill a region is a run like any other, and the caller's region is written
only after it.  A match is answered by its length, and the region becomes that of the match, with a
slot for every group.  Nothing that a run has recorded before an error reaches the caller.
-/

namespace PatternMachine

/-! ### The region of a match -/

/-- Whether a region has a number of slots and reports a whole match that begins at a position. -/
structure Region.OfMatch (slots start : Nat) (region : Region) : Prop where
  starts : region.starts.size = slots
  stops : region.stops.size = slots
  whole : ∃ stop, region.span? 0 = some (start, stop)

theorem Store.span?_region (store : Store) {slots : Nat} (filled : 0 < slots) (start stop : Nat) :
    (store.region slots start stop).span? 0 = some (start, stop) := by
  simp [region, Region.span?, filled]

theorem Store.region_ofMatch (store : Store) {slots : Nat} (filled : 0 < slots) (start stop : Nat) :
    (store.region slots start stop).OfMatch slots start where
  starts := by simp [region]
  stops := by simp [region]
  whole := ⟨stop, store.span?_region filled start stop⟩

/-- The length of a match is the distance of its bounds. -/
theorem Region.matchLength?_of_span? {region : Region} {start stop : Nat}
    (whole : region.span? 0 = some (start, stop)) : region.matchLength? = some (stop - start) := by
  rw [matchLength?, whole]
  rfl

/-- Whether an outcome reports a match only by a region of one. -/
def Outcome.OfMatch (setting : Setting) (outcome : Outcome) : Prop :=
  ∀ region, outcome = .matched region →
    region.OfMatch setting.program.regionSize setting.input.start

namespace Search

variable {setting : Setting} {search : Search}

/-- Whether the best candidate of a search, if it has one, reports a match. -/
def BestOfMatch (setting : Setting) (search : Search) : Prop :=
  ∀ candidate, search.best = some candidate →
    candidate.region.OfMatch setting.program.regionSize setting.input.start

theorem candidateRegion_ofMatch (setting : Setting) (search : Search) :
    (search.candidateRegion setting).OfMatch setting.program.regionSize setting.input.start :=
  search.store.region_ofMatch (Nat.succ_pos _) _ _

theorem BestOfMatch.consider (own : search.BestOfMatch setting) :
    (search.consider setting).BestOfMatch setting := by
  unfold Search.consider
  dsimp only
  split
  · intro candidate same
    cases same
    exact search.candidateRegion_ofMatch setting
  · exact own

theorem BestOfMatch.conclude (own : search.BestOfMatch setting) :
    (Outcome.ofOption (search.best.map Candidate.region)).OfMatch setting := by
  intro region matched
  cases best : search.best with
  | none =>
      rw [best] at matched
      cases matched
  | some candidate =>
      rw [best] at matched
      cases matched
      exact own candidate best

/-- No move records or reports anything but regions of matches. -/
theorem BestOfMatch.attempt (own : search.BestOfMatch setting) (move : Move) :
    Results (BestOfMatch setting) (fun ending => ending.outcome.OfMatch setting)
      (move.attempt setting search) := by
  cases attempted : move.attempt setting search with
  | ok next =>
      obtain rfl := Move.eq_onSearch attempted
      cases move with
      | perform effect =>
          cases effect with
          | note event =>
              rw [Move.onSearch, note_eq]
              exact own
          | _ => exact own
      | consider => exact own.consider
      | _ => exact own
  | error ending =>
      cases Move.stops_of_attempt attempted with
      | denied | rejected =>
          intro region matched
          cases matched
      | tried | concluded => exact own.conclude
      | matched =>
          intro region matched
          cases matched
          exact search.candidateRegion_ofMatch setting

/-- A run that ends with a match reports the region of one. -/
theorem ofMatch_of_run? {store : Store} {dispatches : Nat} {ending : Ending}
    (ended : run? setting dispatches (start setting store) = some ending) :
    ending.outcome.OfMatch setting := by
  refine @run?_results setting _ (BestOfMatch setting) (fun _ => True)
    (fun ending => ending.outcome.OfMatch setting) ?_ ?_ dispatches ending ?_ ended
  · intro search move own _
    exact own.attempt move
  · intro search own move mem
    trivial
  · intro candidate none
    cases none

end Search

/-! ### Runs of an engine -/

namespace Engine

variable {engine after : Engine} {dispatches : Nat} {input : Input} {monitor : Monitor}

/-- What is reported of a run that has ended. -/
def reportOf (engine : Engine) (input : Input) (ending : Ending) : Report where
  outcome := ending.outcome
  hookCalls := ending.last.hookCalls
  events := (#[engine.openingEvent input] ++ ending.last.events).push (.ended ending.outcome)

theorem exec?_eq_some_iff {report : Report} :
    engine.exec? dispatches input monitor = some (report, after) ↔
      ∃ ending, Search.run? (engine.setting input monitor) dispatches
          (.start (engine.setting input monitor) engine.store) = some ending ∧
        engine.reportOf input ending = report ∧
          { engine with store := ending.last.store } = after := by
  rw [exec?, Option.map_eq_some_iff]
  simp only [Prod.mk.injEq]
  rfl

/-- A run that fills a region is a run, and the region is updated from its outcome. -/
theorem runWithMonitor?_of_exec? {report : Report} (before : Region)
    (ran : engine.exec? dispatches input monitor = some (report, after)) :
    engine.runWithMonitor? dispatches input before monitor =
      some (⟨report, engine.updateRegion before report.outcome⟩, after) := by
  rw [runWithMonitor?, ran, Option.map_some]

theorem exec?_of_runWithMonitor? {before : Region} {filled : RegionReport}
    (ran : engine.runWithMonitor? dispatches input before monitor = some (filled, after)) :
    engine.exec? dispatches input monitor = some (filled.toReport, after) ∧
      filled.region = engine.updateRegion before filled.outcome := by
  obtain ⟨⟨report, after⟩, free, same⟩ := Option.map_eq_some_iff.1 ran
  cases same
  exact ⟨free, rfl⟩

/-- An engine whose search ends as that of another one answers as the other one. -/
theorem exists_runWithMonitor? {engine' : Engine} {before : Region} {filled : RegionReport}
    (options : engine'.options = engine.options)
    (slots : engine'.program.regionSize = engine.program.regionSize)
    (ran : engine.runWithMonitor? dispatches input before monitor = some (filled, after))
    (follows : ∀ ending, Search.run? (engine.setting input monitor) dispatches
        (.start (engine.setting input monitor) engine.store) = some ending →
      ending.outcome = filled.outcome →
      ∃ dispatches' ending', Search.run? (engine'.setting input monitor) dispatches'
        (.start (engine'.setting input monitor) engine'.store) = some ending' ∧
          ending'.outcome = ending.outcome) :
    ∃ dispatches' filled' after',
      engine'.runWithMonitor? dispatches' input before monitor = some (filled', after') ∧
        filled'.outcome = filled.outcome ∧ filled'.region = filled.region := by
  obtain ⟨free, updated⟩ := exec?_of_runWithMonitor? ran
  obtain ⟨ending, ended, reported, _⟩ := exec?_eq_some_iff.1 free
  have outcome : ending.outcome = filled.outcome := congrArg Report.outcome reported
  obtain ⟨dispatches', ending', ended', same⟩ := follows ending ended outcome
  refine ⟨dispatches', _, _,
    runWithMonitor?_of_exec? before (exec?_eq_some_iff.2 ⟨ending', ended', rfl, rfl⟩),
    same.trans outcome, ?_⟩
  rw [updated, ← outcome, ← same]
  unfold updateRegion
  rw [options, slots]
  rfl

/-- Whether a run of an engine ends with an outcome, and what it makes of the caller's region. -/
def Answers (engine : Engine) (input : Input) (before : Region) (monitor : Monitor)
    (outcome : Outcome) (region : Region) : Prop :=
  ∃ dispatches report after,
    engine.runWithMonitor? dispatches input before monitor = some (report, after) ∧
      report.outcome = outcome ∧ report.region = region

/-- A search that ends is an answer. -/
theorem answers_of_run? {dispatches : Nat} {ending : Ending}
    (ended : Search.run? (engine.setting input monitor) dispatches
      (.start (engine.setting input monitor) engine.store) = some ending) (before : Region) :
    engine.Answers input before monitor ending.outcome (engine.updateRegion before ending.outcome) :=
  ⟨dispatches, _, _,
    runWithMonitor?_of_exec? before (exec?_eq_some_iff.2 ⟨ending, ended, rfl, rfl⟩), rfl, rfl⟩

/-- An answer that is computed. -/
theorem answers_of_runWithMonitor? {dispatches : Nat} {before region : Region} {outcome : Outcome}
    (ran : (engine.runWithMonitor? dispatches input before monitor).map
      (fun answer => (answer.1.outcome, answer.1.region)) = some (outcome, region)) :
    engine.Answers input before monitor outcome region := by
  obtain ⟨⟨report, after⟩, ran, answer⟩ := Option.map_eq_some_iff.1 ran
  obtain ⟨outcome, region⟩ := Prod.mk.inj answer
  exact ⟨dispatches, report, after, ran, outcome, region⟩

/-- A run has one answer. -/
theorem Answers.unique {before region region' : Region} {outcome outcome' : Outcome}
    (answers : engine.Answers input before monitor outcome region)
    (answers' : engine.Answers input before monitor outcome' region') :
    outcome' = outcome ∧ region' = region := by
  obtain ⟨few, report, after, ran, rfl, rfl⟩ := answers
  obtain ⟨many, report', after', ran', rfl, rfl⟩ := answers'
  obtain ⟨free, updated⟩ := exec?_of_runWithMonitor? ran
  obtain ⟨free', updated'⟩ := exec?_of_runWithMonitor? ran'
  obtain ⟨ending, ended, reported, _⟩ := exec?_eq_some_iff.1 free
  obtain ⟨ending', ended', reported', _⟩ := exec?_eq_some_iff.1 free'
  obtain rfl := Search.run?_unique ended ended'
  have same : report'.outcome = report.outcome :=
    congrArg Report.outcome (reported'.symm.trans reported)
  exact ⟨same, by rw [updated, updated', same]⟩

/-- Engines whose searches have the same outcomes give the same answers. -/
theorem answers_iff {engine' : Engine} {before : Region} (options : engine'.options = engine.options)
    (slots : engine'.program.regionSize = engine.program.regionSize)
    (same : ∀ outcome,
      (∃ dispatches ending, Search.run? (engine.setting input monitor) dispatches
        (.start (engine.setting input monitor) engine.store) = some ending ∧
          ending.outcome = outcome) ↔
      ∃ dispatches ending, Search.run? (engine'.setting input monitor) dispatches
        (.start (engine'.setting input monitor) engine'.store) = some ending ∧
          ending.outcome = outcome) (outcome : Outcome) (region : Region) :
    engine.Answers input before monitor outcome region ↔
      engine'.Answers input before monitor outcome region := by
  constructor
  · rintro ⟨dispatches, report, after, ran, rfl, rfl⟩
    refine exists_runWithMonitor? options slots ran fun ending ended _ => ?_
    exact (same ending.outcome).1 ⟨dispatches, ending, ended, rfl⟩
  · rintro ⟨dispatches, report, after, ran, rfl, rfl⟩
    refine exists_runWithMonitor? options.symm slots.symm ran fun ending ended _ => ?_
    exact (same ending.outcome).2 ⟨dispatches, ending, ended, rfl⟩

/-- No hook has refused anything when a run starts. -/
theorem permittedBy_start (setting : Setting) (store : Store) (permits : Nat → Bool) :
    (Search.start setting store).PermittedBy permits :=
  Search.permittedBy_of_not_called (Nat.zero_div checkInterval)

/-- A run under a hook is the run without one, or has been stopped by a refusal. -/
theorem exec?_of_hooked {report : Report}
    (ran : engine.exec? dispatches input monitor = some (report, after)) :
    report.outcome = .stopped .aborted ∧ monitor.permits report.hookCalls = false ∨
      engine.exec? dispatches input monitor.unhooked = some (report, after) := by
  obtain ⟨ending, ended, rfl, rfl⟩ := exec?_eq_some_iff.1 ran
  rcases Search.run?_of_hooked (permittedBy_start _ _ _) ended with refused | free
  · exact .inl ⟨refused.aborted, refused.refused⟩
  · exact .inr (exec?_eq_some_iff.2 ⟨ending, free, rfl, rfl⟩)

/-- A run without a hook is the run under a hook that permits each of its calls, and a refusal of
one of them stops the run. -/
theorem exec?_hooked {report : Report}
    (ran : engine.exec? dispatches input monitor.unhooked = some (report, after)) :
    ((∀ call, 0 < call → call ≤ report.hookCalls → monitor.permits call = true) →
      engine.exec? dispatches input monitor = some (report, after)) ∧
    (∀ call, 0 < call → call ≤ report.hookCalls → monitor.permits call = false →
      ∃ report' after', engine.exec? dispatches input monitor = some (report', after') ∧
        report'.outcome = .stopped .aborted) := by
  obtain ⟨ending, ended, rfl, rfl⟩ := exec?_eq_some_iff.1 ran
  let setting := engine.setting input monitor
  have free : Search.run? setting.unhooked dispatches (.start setting engine.store) =
      some ending := ended
  obtain ⟨permitted, refused⟩ := Search.run?_hooked (permittedBy_start _ _ _) free
  constructor
  · intro permits
    exact exec?_eq_some_iff.2 ⟨ending, permitted permits, rfl, rfl⟩
  · intro call positive within refuses
    have beyond : ¬ ending.last.PermittedBy monitor.permits := by
      intro permits
      rw [permits call positive within] at refuses
      cases refuses
    obtain ⟨ending', ended', stopped⟩ := refused beyond
    exact ⟨_, _, exec?_eq_some_iff.2 ⟨ending', ended', rfl, rfl⟩, stopped.aborted⟩

/-- What the clock says makes no difference to a run whose time is not limited. -/
theorem exec?_withClock (timeless : engine.config.timeLimit = none) (permits : Nat → Bool)
    (elapsed elapsed' : Nat → Nat) :
    engine.exec? dispatches input ⟨permits, elapsed⟩ =
      engine.exec? dispatches input ⟨permits, elapsed'⟩ := by
  let setting := engine.setting input ⟨permits, elapsed'⟩
  have same : Search.run? (setting.withClock elapsed) dispatches (.start setting engine.store) =
      Search.run? setting dispatches (.start setting engine.store) :=
    Search.run?_withClock timeless elapsed dispatches _
  rw [exec?, exec?]
  exact congrArg _ same

theorem ofMatch_of_exec? {report : Report}
    (ran : engine.exec? dispatches input monitor = some (report, after)) :
    report.outcome.OfMatch (engine.setting input monitor) := by
  obtain ⟨ending, ended, rfl, _⟩ := exec?_eq_some_iff.1 ran
  exact Search.ofMatch_of_run? ended

/-- What the caller of a run that fills a region gets for an outcome: an answer, and the region from
what it was before. -/
def Fills (engine : Engine) (before : Region) (outcome : Outcome) (filled : RegionReport) : Prop :=
  match outcome with
  | .stopped failure => filled.outcome.matchLength? = .error failure ∧ filled.region = before
  | .matched found =>
      (∃ start stop, found.span? 0 = some (start, stop) ∧
        filled.outcome.matchLength? = .ok (some (stop - start))) ∧
      filled.region = found ∧ found.starts.size = engine.program.groupCount + 1 ∧
        found.stops.size = engine.program.groupCount + 1
  | .unmatched =>
      filled.outcome.matchLength? = .ok none ∧
        filled.region =
          if engine.program.options.posixRegion || engine.config.options.posixRegion then before
          else
            ⟨Array.replicate (engine.program.groupCount + 1) none,
              Array.replicate (engine.program.groupCount + 1) none⟩

theorem fills_of_runWithMonitor? {before : Region} {filled : RegionReport}
    (ran : engine.runWithMonitor? dispatches input before monitor = some (filled, after)) :
    engine.Fills before filled.outcome filled := by
  obtain ⟨ran, updated⟩ := exec?_of_runWithMonitor? ran
  have ofMatch := ofMatch_of_exec? ran
  cases outcome : filled.outcome with
  | stopped failure =>
      rw [outcome] at updated
      exact ⟨congrArg Outcome.matchLength? outcome, updated⟩
  | matched found =>
      rw [outcome] at updated
      have own := ofMatch found outcome
      obtain ⟨stop, whole⟩ := own.whole
      refine ⟨⟨_, stop, whole, ?_⟩, updated, own.starts, own.stops⟩
      rw [outcome, Outcome.matchLength?, Region.matchLength?_of_span? whole]
  | unmatched =>
      rw [outcome] at updated
      refine ⟨congrArg Outcome.matchLength? outcome, ?_⟩
      rw [updated, updateRegion, Region.clear_resize]
      rfl

/-- Runs with a region are runs without one, with a hook or without, and the caller gets what is
promised for the outcome.  A hook makes no difference but that the run ends where it refuses. -/
theorem region_runs_agree_with_runs (engine : Engine) (dispatches : Nat) (input : Input)
    (before : Region) (monitor : Monitor) :
    (∀ filled after,
      engine.runWithMonitor? dispatches input before monitor = some (filled, after) →
        engine.Fills before filled.outcome filled ∧
          (filled.outcome = .stopped .aborted ∧ monitor.permits filled.hookCalls = false ∨
            engine.exec? dispatches input monitor.unhooked = some (filled.toReport, after))) ∧
    (∀ report after, engine.exec? dispatches input monitor.unhooked = some (report, after) →
      ∃ filled after',
        engine.runWithMonitor? dispatches input before monitor = some (filled, after') ∧
          ((∀ call, 0 < call → call ≤ report.hookCalls → monitor.permits call = true) →
            filled.toReport = report ∧ after' = after) ∧
          ∀ call, 0 < call → call ≤ report.hookCalls → monitor.permits call = false →
            filled.outcome = .stopped .aborted) ∧
    (∀ report after, engine.run? dispatches input = some (report, after) →
      ∃ filled, engine.runInRegion? dispatches input before = some (filled, after) ∧
        filled.toReport = report ∧ engine.Fills before report.outcome filled) ∧
    (engine.config.timeLimit = none →
      engine.exec? dispatches input monitor.unhooked = engine.run? dispatches input) := by
  refine ⟨?_, ?_, ?_, ?_⟩
  · intro filled after ran
    exact ⟨fills_of_runWithMonitor? ran, exec?_of_hooked (exec?_of_runWithMonitor? ran).1⟩
  · intro report after ran
    obtain ⟨permitted, refused⟩ := exec?_hooked ran
    by_cases refuses : ∃ call, 0 < call ∧ call ≤ report.hookCalls ∧ monitor.permits call = false
    · obtain ⟨call, positive, within, refuses⟩ := refuses
      obtain ⟨report', after', ran', aborted⟩ := refused call positive within refuses
      refine ⟨_, _, runWithMonitor?_of_exec? before ran', ?_, fun _ _ _ _ => aborted⟩
      intro permits
      rw [permits call positive within] at refuses
      cases refuses
    · have permits : ∀ call, 0 < call → call ≤ report.hookCalls → monitor.permits call = true := by
        intro call positive within
        apply Bool.of_not_eq_false
        intro refused
        exact refuses ⟨call, positive, within, refused⟩
      refine ⟨_, _, runWithMonitor?_of_exec? before (permitted permits), fun _ => ⟨rfl, rfl⟩, ?_⟩
      intro call positive within refused
      exact absurd ⟨call, positive, within, refused⟩ refuses
  · intro report after ran
    have filled := runWithMonitor?_of_exec? before ran
    exact ⟨_, filled, rfl, fills_of_runWithMonitor? filled⟩
  · intro timeless
    exact exec?_withClock timeless _ _ _

/-- A search for the longest match has recorded one when it has failed too often.  The caller's
lists, which differ in length, stay as they are; if it may fail more often, they become those of the
match. -/
theorem region_runs_agree_with_runs_of_recorded_candidate :
    let program : Program :=
      { code := #[.push 2, .accept, .fail], templates := #[], classes := #[], repeatRanges := #[],
        groupCount := 0, emptyCheckCount := 0, loggedStarts := .empty, loggedEnds := .empty,
        options := .none, encoding := .utf8 }
    let config : MatchConfig := ⟨.unlimited, { findLongest := true }⟩
    let bounded := withConfig program (config.withRetryLimit 1)
    let unbounded := withConfig program config
    let input := Input.whole ⟨#[97]⟩
    let before : Region := ⟨#[some 7, none, some 2], #[some 9]⟩
    let whole : Region := ⟨#[some 0], #[some 0]⟩
    (Search.run? (bounded.setting input .patient) 3
        (.start (bounded.setting input .patient) bounded.store)).map (fun ending =>
          ending.last.best) = some (some ⟨0, whole⟩) ∧
      (∃ filled after, bounded.runWithMonitor? 3 input before .patient = some (filled, after) ∧
        filled.outcome.matchLength? = .error .retryLimit ∧ filled.region = before) ∧
      ∃ filled after, unbounded.runWithMonitor? 3 input before .patient = some (filled, after) ∧
        filled.outcome.matchLength? = .ok (some 0) ∧ filled.region = whole := by
  intro program config bounded unbounded input before whole
  have stopped : (bounded.runWithMonitor? 3 input before .patient).map
      (fun answer => answer.1.outcome) = some (.stopped .retryLimit) := by decide +kernel
  have matched : (unbounded.runWithMonitor? 3 input before .patient).map
      (fun answer => answer.1.outcome) = some (.matched whole) := by decide +kernel
  obtain ⟨⟨filled, after⟩, ran, outcome⟩ := Option.map_eq_some_iff.1 stopped
  obtain ⟨⟨filled', after'⟩, ran', outcome'⟩ := Option.map_eq_some_iff.1 matched
  have promised :=
    ((region_runs_agree_with_runs bounded 3 input before .patient).1 filled after ran).1
  have promised' :=
    ((region_runs_agree_with_runs unbounded 3 input before .patient).1 filled' after' ran').1
  rw [outcome] at promised
  rw [outcome'] at promised'
  obtain ⟨⟨start, stop, bounds, answered⟩, updated, _⟩ := promised'
  have same : (0, 0) = (start, stop) := Option.some.inj bounds
  cases same
  exact ⟨by decide +kernel, ⟨filled, after, ran, promised⟩, filled', after', ran', answered,
    updated⟩

end Engine

end PatternMachine
