import PatternMachine.Engine
import PatternMachine.Proofs.Lockstep

/-!
# What budgets do to answers

A budget of frames or failures never changes what a run answers; it only replaces the answer by the
report that the budget is used up.  Which budgets suffice is read off the run without any: they have
to cover the greatest height of its stack and the number of its failures.
-/

namespace PatternMachine

namespace Limit

theorem exceededBy_zero (limit : Limit) : limit.exceededBy 0 = false := by
  cases limit with
  | unlimited => rfl
  | atMost bound => exact decide_eq_false (Nat.not_lt_zero bound)

theorem exceededBy_max (limit : Limit) (left right : Nat) :
    limit.exceededBy (max left right) = (limit.exceededBy left || limit.exceededBy right) := by
  cases limit with
  | unlimited => rfl
  | atMost bound =>
      simp only [exceededBy, ← Bool.decide_or]
      exact decide_eq_decide.2 (by omega)

/-- A limit written as a number is kept if the number is 0 or large enough. -/
theorem exceededBy_ofNat_eq_false_iff {number count : Nat} :
    (ofNat number).exceededBy count = false ↔ number = 0 ∨ count ≤ number := by
  rw [← Bool.not_eq_true, exceededBy_ofNat]
  constructor
  · intro kept
    by_cases none : number = 0
    · exact .inl none
    · exact .inr (Nat.le_of_not_lt fun beyond => kept ⟨none, beyond⟩)
  · rintro (none | enough) ⟨some, beyond⟩
    · exact some none
    · exact absurd beyond (Nat.not_lt.2 enough)

end Limit

namespace Visit

/-- How often the search failed. -/
def failures (visits : List Visit) : Nat :=
  visits.countP fun visit => visit.move == .fail

theorem exceededBy_peak (limit : Limit) (visits : List Visit) :
    limit.exceededBy (peak visits) = false ↔
      ∀ visit ∈ visits, limit.exceededBy visit.after.store.depth = false := by
  induction visits with
  | nil => exact ⟨fun _ _ mem => absurd mem List.not_mem_nil, fun _ => limit.exceededBy_zero⟩
  | cons visit visits ih =>
      rw [peak_cons, Limit.exceededBy_max, Bool.or_eq_false_iff, ih, List.forall_mem_cons]

/-- A move counts a failure if it is one. -/
theorem failures_of_attempt {setting : Setting} {visit : Visit}
    (attempted : visit.move.attempt setting visit.before = .ok visit.after) :
    visit.after.failures =
      visit.before.failures + if visit.move = .fail then 1 else 0 := by
  rw [Move.eq_onSearch attempted]
  cases visit.move with
  | perform effect =>
      cases effect with
      | note event =>
          rw [Move.onSearch, Search.note_eq]
          rfl
      | _ => rfl
  | consider =>
      rw [Move.onSearch, Search.consider_eq]
      rfl
  | _ => rfl

/-- The failures of a connected trail add up. -/
theorem exceededBy_failures {limit : Limit} {first last : Search} {visits : List Visit}
    (leads : Leads first last visits)
    (counted : ∀ visit ∈ visits, visit.after.failures =
      visit.before.failures + if visit.move = .fail then 1 else 0)
    (kept : limit.exceededBy first.failures = false) :
    limit.exceededBy (first.failures + failures visits) = false ↔
      ∀ visit ∈ visits, limit.exceededBy visit.after.failures = false := by
  induction visits generalizing first with
  | nil => exact ⟨fun _ _ mem => absurd mem List.not_mem_nil, fun _ => kept⟩
  | cons visit visits ih =>
      obtain ⟨rfl, leads⟩ := leads
      have here := counted visit List.mem_cons_self
      have total : visit.before.failures + failures (visit :: visits) =
          visit.after.failures + failures visits := by
        rw [here, failures, List.countP_cons, failures]
        by_cases isFail : visit.move = .fail
        · simp only [isFail, beq_self_eq_true, if_true]
          omega
        · simp only [isFail, if_false, beq_iff_eq]
          omega
      rw [total, List.forall_mem_cons]
      constructor
      · intro enough
        have now := Limit.exceededBy_mono (Nat.le_add_right _ _) enough
        exact ⟨now, (ih leads (fun other mem => counted other (List.mem_cons_of_mem visit mem))
          now).1 enough⟩
      · rintro ⟨now, later⟩
        exact (ih leads (fun other mem => counted other (List.mem_cons_of_mem visit mem))
          now).2 later

end Visit

/-- Whether a state needs no more frames and failures than budgets allow; 0 is no budget. -/
def Search.Keeps (frames failures : Nat) (search : Search) : Prop :=
  (frames = 0 ∨ search.store.depth ≤ frames) ∧ (failures = 0 ∨ search.failures ≤ failures)

/-- Whether a run ends for want of a budget. -/
def Outcome.isExhausted : Outcome → Bool
  | .stopped failure => failure.isResourceExhausted
  | _ => false

/-- Budgets of frames and failures, written as numbers, and no limit on time. -/
def Limits.budgets (frames failures : Nat) : Limits :=
  ⟨.ofNat frames, .ofNat failures, none⟩

theorem Search.keeps_iff {frames failures : Nat} {search : Search} :
    search.Keeps frames failures ↔ (Limits.budgets frames failures).overrun? search = none := by
  rw [Limits.overrun?_eq_none_iff]
  exact and_congr Limit.exceededBy_ofNat_eq_false_iff.symm
    Limit.exceededBy_ofNat_eq_false_iff.symm

namespace Engine

variable (engine : Engine)

/-- The same engine without limits. -/
def unlimited : Engine :=
  { engine with config := ⟨.unlimited, engine.config.options⟩ }

/-- The same engine under budgets, traced or not. -/
def budgeted (frames failures : Nat) (trace : Bool) : Engine :=
  { engine with config := ⟨.budgets frames failures, { engine.config.options with trace }⟩ }

/-- The trail of a run without a hook. -/
def trail (dispatches : Nat) (input : Input) : List Visit :=
  Search.trail (engine.setting input .patient) dispatches
    (.start (engine.setting input .patient) engine.store)

theorem bounds_budgeted (input : Input) (frames failures : Nat) (trace : Bool) {monitor : Monitor}
    (permitted : ∀ call, monitor.permits call = true) :
    ((engine.budgeted frames failures trace).setting input monitor).Bounds
      (engine.unlimited.setting input .patient) where
  timeless := rfl
  permitted := permitted
  isFree := ⟨rfl, fun _ => rfl⟩
  same := ⟨engine.program.options.trace || trace, rfl⟩

/-- The outcome of a run is that of its search. -/
theorem exec?_outcome (dispatches : Nat) (input : Input) (monitor : Monitor) :
    (engine.exec? dispatches input monitor).map (fun answer => answer.1.outcome) =
      (Search.run? (engine.setting input monitor) dispatches
        (.start (engine.setting input monitor) engine.store)).map Ending.outcome := by
  rw [exec?, Option.map_map]
  rfl

/-- A run under budgets answers what the run without limits answers, or reports the first budget
that the run without limits gets beyond. -/
theorem budgeted_outcome (input : Input) (dispatches frames failures : Nat) (trace : Bool)
    {monitor : Monitor} (permitted : ∀ call, monitor.permits call = true) :
    ((engine.budgeted frames failures trace).exec? dispatches input monitor).map
        (fun answer => answer.1.outcome) =
      match (Limits.budgets frames failures).firstOverrun?
        (engine.unlimited.trail dispatches input) with
      | some failure => some (.stopped failure)
      | none => (engine.unlimited.run? dispatches input).map fun answer => answer.1.outcome := by
  have bounds := engine.bounds_budgeted input frames failures trace permitted
  have within : (Limits.budgets frames failures).overrun?
      (.start (engine.unlimited.setting input .patient) engine.store) = none :=
    Search.keeps_iff.1 ⟨.inr (Nat.zero_le _), .inr (Nat.zero_le _)⟩
  have same : (Search.start ((engine.budgeted frames failures trace).setting input monitor)
      engine.store).quiet =
        (Search.start (engine.unlimited.setting input .patient) engine.store).quiet := rfl
  rw [exec?_outcome, run?, exec?_outcome]
  exact bounds.run?_outcome same within dispatches

/-- Which budgets are enough is decided by the greatest height of the stack and by the number of
failures. -/
theorem firstOverrun?_eq_none_iff (input : Input) (dispatches frames failures : Nat) :
    (Limits.budgets frames failures).firstOverrun? (engine.trail dispatches input) = none ↔
      (frames = 0 ∨ Visit.peak (engine.trail dispatches input) ≤ frames) ∧
        (failures = 0 ∨ Visit.failures (engine.trail dispatches input) ≤ failures) := by
  obtain ⟨last, leads⟩ := Search.leads_trail (engine.setting input .patient) dispatches
    (.start (engine.setting input .patient) engine.store)
  have retries := Visit.exceededBy_failures leads
    (fun visit mem => Visit.failures_of_attempt (Search.attempt_of_mem_trail mem))
    (Limit.exceededBy_zero (.ofNat failures))
  have room := Visit.exceededBy_peak (.ofNat frames) (engine.trail dispatches input)
  rw [← Limit.exceededBy_ofNat_eq_false_iff, ← Limit.exceededBy_ofNat_eq_false_iff, room,
    Limits.firstOverrun?, List.findSome?_eq_none_iff]
  have started : (Search.start (engine.setting input .patient) engine.store).failures +
      Visit.failures (engine.trail dispatches input) =
        Visit.failures (engine.trail dispatches input) := Nat.zero_add _
  rw [show Search.trail _ _ _ = engine.trail dispatches input from rfl, started] at retries
  rw [retries]
  constructor
  · intro kept
    exact ⟨fun visit mem => (Limits.overrun?_eq_none_iff.1 (kept visit mem)).1,
      fun visit mem => (Limits.overrun?_eq_none_iff.1 (kept visit mem)).2⟩
  · rintro ⟨room, retries⟩ visit mem
    exact Limits.overrun?_eq_none_iff.2 ⟨room visit mem, retries visit mem⟩

/-- The first budget that a run gets beyond belongs to the first state that does not keep the
budgets. -/
theorem exists_of_firstOverrun? {frames failures : Nat} {visits : List Visit}
    {failure : MatchError}
    (beyond : (Limits.budgets frames failures).firstOverrun? visits = some failure) :
    ∃ earlier visit later, visits = earlier ++ visit :: later ∧
      (∀ kept ∈ earlier, kept.after.Keeps frames failures) ∧
      ¬ visit.after.Keeps frames failures ∧
      failure = if frames ≠ 0 ∧ frames < visit.after.store.depth then .stackLimit frames
        else .retryLimit := by
  obtain ⟨earlier, visit, later, parts, overrun, kept⟩ := List.findSome?_eq_some_iff.1 beyond
  refine ⟨earlier, visit, later, parts, ?_, ?_, ?_⟩
  · intro other mem
    exact Search.keeps_iff.2 (kept other mem)
  · intro keeps
    rw [Search.keeps_iff.1 keeps] at overrun
    cases overrun
  · simp only [Limits.overrun?, Limits.budgets, Limit.exceededBy_ofNat, Limit.toNat_ofNat]
      at overrun
    split at overrun
    · next high =>
        rw [if_pos high]
        exact (Option.some.inj overrun).symm
    · next low =>
        rw [if_neg low]
        split at overrun
        · exact (Option.some.inj overrun).symm
        · cases overrun

variable {engine}

/-- A run under budgets that has an answer has the answer of the run without limits. -/
theorem unlimited_outcome {input : Input} {dispatches frames failures : Nat} {trace : Bool}
    {monitor : Monitor} (permitted : ∀ call, monitor.permits call = true) {report : Report}
    {after : Engine}
    (ended : (engine.budgeted frames failures trace).exec? dispatches input monitor =
      some (report, after)) (answered : report.outcome.isExhausted = false) :
    (engine.unlimited.run? dispatches input).map (fun answer => answer.1.outcome) =
      some report.outcome := by
  have outcome := engine.budgeted_outcome input dispatches frames failures trace permitted
  rw [ended, Option.map_some] at outcome
  split at outcome
  · next failure beyond =>
      obtain ⟨visit, _, overrun⟩ := List.exists_of_findSome?_eq_some beyond
      rw [Option.some.inj outcome, Outcome.isExhausted,
        Limits.isResourceExhausted_of_overrun? overrun] at answered
      cases answered
  · exact outcome.symm

/-- A run that goes on for longer has the same outcome. -/
theorem run?_outcome_mono {input : Input} {few many : Nat} {outcome : Outcome}
    (more : few ≤ many)
    (ended : (engine.run? few input).map (fun answer => answer.1.outcome) = some outcome) :
    (engine.run? many input).map (fun answer => answer.1.outcome) = some outcome := by
  rw [run?, exec?_outcome] at ended ⊢
  obtain ⟨ending, ran, same⟩ := Option.map_eq_some_iff.1 ended
  rw [Search.run?_mono more ran, Option.map_some, same]

/-- Budgets never change an answer.  If the run without limits ends, the run under budgets ends in
the same way as long as the budgets cover the greatest height of the stack and the number of
failures; otherwise it reports the budget that the run without limits gets beyond first.  And
whether that run ends or not, no two budgets lead to different answers. -/
theorem budgets_never_change_answers (engine : Engine) (input : Input) :
    (∀ dispatches report after, engine.unlimited.run? dispatches input = some (report, after) →
      ∀ frames failures trace monitor, (∀ call, monitor.permits call = true) →
        ∃ report' after', (engine.budgeted frames failures trace).exec? dispatches input monitor =
            some (report', after') ∧
          if (frames = 0 ∨ Visit.peak (engine.unlimited.trail dispatches input) ≤ frames) ∧
              (failures = 0 ∨
                Visit.failures (engine.unlimited.trail dispatches input) ≤ failures) then
            report'.outcome = report.outcome
          else
            ∃ earlier visit later,
              engine.unlimited.trail dispatches input = earlier ++ visit :: later ∧
              (∀ kept ∈ earlier, kept.after.Keeps frames failures) ∧
              ¬ visit.after.Keeps frames failures ∧
              report'.outcome = .stopped
                (if frames ≠ 0 ∧ frames < visit.after.store.depth then .stackLimit frames
                  else .retryLimit)) ∧
    (∀ frames failures trace monitor frames' failures' trace' monitor',
      (∀ call, monitor.permits call = true) → (∀ call, monitor'.permits call = true) →
      ∀ dispatches report after dispatches' report' after',
        (engine.budgeted frames failures trace).exec? dispatches input monitor =
          some (report, after) →
        (engine.budgeted frames' failures' trace').exec? dispatches' input monitor' =
          some (report', after') →
        report.outcome.isExhausted = false → report'.outcome.isExhausted = false →
        report.outcome = report'.outcome) := by
  constructor
  · intro dispatches report after ended frames failures trace monitor permitted
    have outcome := engine.budgeted_outcome input dispatches frames failures trace permitted
    have enough := engine.unlimited.firstOverrun?_eq_none_iff input dispatches frames failures
    rw [ended, Option.map_some] at outcome
    cases overrun : (Limits.budgets frames failures).firstOverrun?
        (engine.unlimited.trail dispatches input) with
    | none =>
        rw [overrun] at outcome
        obtain ⟨⟨report', after'⟩, ran, same⟩ := Option.map_eq_some_iff.1 outcome
        refine ⟨report', after', ran, ?_⟩
        rw [if_pos (enough.1 overrun)]
        exact same
    | some failure =>
        rw [overrun] at outcome
        obtain ⟨⟨report', after'⟩, ran, same⟩ := Option.map_eq_some_iff.1 outcome
        refine ⟨report', after', ran, ?_⟩
        rw [if_neg fun kept => by rw [enough.2 kept] at overrun; cases overrun]
        obtain ⟨earlier, visit, later, parts, kept, beyond, rfl⟩ :=
          exists_of_firstOverrun? overrun
        exact ⟨earlier, visit, later, parts, kept, beyond, same⟩
  · intro frames failures trace monitor frames' failures' trace' monitor' permitted permitted'
      dispatches report after dispatches' report' after' ran ran' answered answered'
    have free := run?_outcome_mono (Nat.le_max_left dispatches dispatches')
      (unlimited_outcome permitted ran answered)
    have free' := run?_outcome_mono (Nat.le_max_right dispatches dispatches')
      (unlimited_outcome permitted' ran' answered')
    exact Option.some.inj (free.symm.trans free')

/-- A program that leaves two choices, fails and accepts needs two frames and one failure. -/
theorem budgets_never_change_answers_of_two_choices :
    let program : Program :=
      { code := #[.push 3, .push 2, .fail, .accept], templates := #[], classes := #[],
        repeatRanges := #[], groupCount := 0, emptyCheckCount := 0, loggedStarts := .empty,
        loggedEnds := .empty, options := .none, encoding := .utf8 }
    let engine := withConfig program ⟨.unlimited, .none⟩
    let input := Input.whole ⟨#[]⟩
    ∃ report after, engine.unlimited.run? 4 input = some (report, after) ∧
      (∃ report' after', (engine.budgeted 2 1 true).exec? 4 input .patient =
          some (report', after') ∧ report'.outcome = report.outcome) ∧
      ∃ report' after', (engine.budgeted 1 0 false).exec? 4 input .patient =
          some (report', after') ∧ report'.outcome = .stopped (.stackLimit 1) := by
  intro program engine input
  have ended : (engine.unlimited.run? 4 input).isSome = true := by decide +kernel
  have peak : Visit.peak (engine.unlimited.trail 4 input) = 2 := by decide +kernel
  have failures : Visit.failures (engine.unlimited.trail 4 input) = 1 := by decide +kernel
  obtain ⟨⟨report, after⟩, ran⟩ := Option.isSome_iff_exists.1 ended
  have decided := (engine.budgets_never_change_answers input).1 4 report after ran
  rw [peak, failures] at decided
  refine ⟨report, after, ran, ?_, ?_⟩
  · exact decided 2 1 true .patient fun _ => rfl
  · obtain ⟨report', after', ran', outcome⟩ := decided 1 0 false .patient fun _ => rfl
    rw [if_neg (by decide)] at outcome
    obtain ⟨_, visit, _, _, _, beyond, same⟩ := outcome
    have high : 1 < visit.after.store.depth := by
      apply Nat.lt_of_not_le
      intro low
      exact beyond ⟨.inr low, .inl rfl⟩
    rw [if_pos ⟨Nat.one_ne_zero, high⟩] at same
    exact ⟨report', after', ran', same⟩

end Engine

end PatternMachine
