import PatternMachine.Engine
import PatternMachine.Proofs.Expression.Simulation

/-!
# Running an expression finds its preferred match

An expression that is assembled, built and run on a text ends with the first way in which it can
match, or without a match if there is none.
-/

namespace PatternMachine

/-- Where an attempt begins: at the start of the span, with no group set. -/
def Input.standing (input : Input) : Standing :=
  ⟨input.start, fun _ => (none, none)⟩

/-- Where a group lies, if both its start and its end are set. -/
def Standing.span? (standing : Standing) (group : Nat) : Option (Nat × Nat) :=
  match standing.captures group with
  | (some first, some last) => some (first, last)
  | _ => none

/-- The region of a match that started at a position, with a number of slots. -/
def Standing.region (standing : Standing) (slots start : Nat) : Region :=
  let spans := (Array.range slots).map fun group =>
    if group = 0 then some (start, standing.position) else standing.span? group
  ⟨spans.map fun span => span.map Prod.fst, spans.map fun span => span.map Prod.snd⟩

/-- What the expressions of a builder are matched against under options. -/
def Builder.subject (builder : Builder) (options : Options) (input : Input) : Subject where
  text := ⟨input.bytes, builder.encoding⟩
  range := input.range
  ignoresCase := (builder.options.union options).ignoreCase
  multiline := (builder.options.union options).multiline
  classes := builder.classes

namespace Store

theorem captures_reset (store : Store) : store.reset.captures = fun _ => (none, none) := by
  funext group
  rw [captures, boundsOf_reset]
  rfl

theorem grounded_reset (store : Store) : store.reset.Grounded := by
  intro group index refers
  rw [boundsOf_reset] at refers
  rcases refers with refers | refers <;> cases refers

theorem region_of_captures {store : Store} {standing : Standing}
    (captures : store.captures = standing.captures) (slots start : Nat) :
    store.region slots start standing.position = standing.region slots start := by
  have spans : store.span? = standing.span? := by
    funext group
    rw [span?, Standing.span?, ← captures]
    rfl
  rw [region, Standing.region, spans]

end Store

/-- What has been enumerated from the start of a run decides how the run ends. -/
theorem Enumerates.endsWith {setting : Setting} (free : setting.Free)
    (plain : setting.options.isFindCondition = false) {exit first last : Nat} {base : Store}
    {stage : Stage} {standings : List Standing} (empty : base.backtrack.1 = none)
    (accepts : setting.program.code[exit]? = some .accept)
    (ways : Enumerates setting.toAttempt exit base first last stage standings) :
    stage.EndsWith setting (.ofOption (standings.head?.map fun standing =>
      standing.region setting.program.regionSize setting.input.start)) := by
  cases ways with
  | done reaches same =>
      apply Stage.EndsWith.of_reaches free reaches
      apply Stage.endsWith_unmatched
      rw [same, empty]
  | @found _ cursor store standing _ reaches position captures _ _ =>
      apply Stage.EndsWith.of_reaches free reaches
      have matched : (Stage.dispatching ⟨exit, cursor⟩ store).EndsWith setting
          (.matched (store.region setting.program.regionSize setting.input.start
            cursor.position)) := Stage.endsWith_matched free plain accepts
      rw [position, Store.region_of_captures captures] at matched
      exact matched

/-- An expression can be built on every builder that has no code yet.  Its program, run without
limits and without conditions on candidates on any text, ends with the first way in which the
expression matches from the start of the span, or without a match. -/
theorem Expression.run_eq_first_success (expression : Expression) (builder : Builder)
    (noCode : builder.code = #[]) (noUses : builder.uses = #[])
    (valid : expression.Valid builder.groupCount builder.classes) (options : Options)
    (plain : (builder.options.union options).isFindCondition = false) (input : Input) :
    ∃ program, (expression.finish builder).build.1 = .ok program ∧
      ∃ dispatches report after,
        (Engine.withConfig program ⟨.unlimited, options⟩).run? dispatches input =
          some (report, after) ∧
        report.outcome = .ofOption
          ((expression.successes (builder.subject options input) input.standing).head?.map
            fun standing => standing.region (builder.groupCount + 1) input.start) := by
  obtain ⟨program, stop, built, laidOut, accepts, groups, classes, programOptions, encoding⟩ :=
    expression.finish_build noCode noUses
  refine ⟨program, built, ?_⟩
  let engine := Engine.withConfig program ⟨.unlimited, options⟩
  let setting := engine.setting input .patient
  have free : setting.Free := ⟨rfl, fun _ => rfl⟩
  have subject : setting.subject = builder.subject options input := by
    rw [Builder.subject, ← programOptions, ← classes, ← encoding]
    rfl
  have slots : setting.program.regionSize = builder.groupCount + 1 := congrArg Nat.succ groups
  have meets : Meets setting.toAttempt (setting.text.cursorAt input.start) engine.store.reset
      input.standing := by
    refine ⟨rfl, engine.store.captures_reset, input.start_le_range, engine.store.grounded_reset, ?_⟩
    rw [Store.reset, Registers.reset, Registers.blank, Array.size_replicate]
    exact Array.size_replicate
  have exit : stop < program.code.size := (Array.getElem?_eq_some_iff.1 accepts).1
  rw [← groups, ← classes] at valid
  have simulated : Simulates setting.toAttempt expression 0 stop builder.emptyCheckCount
      program.emptyCheckCount := simulates laidOut valid exit (Nat.le_refl _)
  have ways := simulated _ _ _ meets
  have ends := ways.endsWith free (by rw [← programOptions] at plain; exact plain)
    (by rw [Store.backtrack, Store.reset, Store.unwind_blank]; rfl) accepts
  obtain ⟨dispatches, ending, ran, outcome⟩ := ends (.start setting engine.store) rfl rfl rfl
  rw [subject, slots] at outcome
  obtain ⟨report, after, answered, same⟩ : ∃ report after,
      engine.run? dispatches input = some (report, after) ∧ report.outcome = ending.outcome := by
    rw [Engine.run?, Engine.exec?]
    rw [ran]
    exact ⟨_, _, rfl, rfl⟩
  exact ⟨dispatches, report, after, answered, same.trans outcome⟩

/-- The expression `(a|ab)(?!b)c` takes its second alternative on the text `abc`. -/
theorem Expression.run_eq_first_success_on_abc :
    let alternatives : Expression := .choice (.literal ⟨#[0x61]⟩) (.literal ⟨#[0x61, 0x62]⟩)
    let expression : Expression :=
      .sequence (.sequence (.capture 1 alternatives) (.lookNot (.literal ⟨#[0x62]⟩)))
        (.literal ⟨#[0x63]⟩)
    let builder := (Builder.new .utf8).setGroups 1
    let input := Input.whole ⟨#[0x61, 0x62, 0x63]⟩
    expression.Valid builder.groupCount builder.classes ∧
      ∃ program, (expression.finish builder).build.1 = .ok program ∧
        ∃ dispatches report after,
          (Engine.withConfig program ⟨.unlimited, .none⟩).run? dispatches input =
            some (report, after) ∧
          report.outcome = .matched ⟨#[some 0, some 0], #[some 3, some 2]⟩ := by
  intro alternatives expression builder input
  have valid : expression.Valid builder.groupCount builder.classes := by
    simp [expression, alternatives, Expression.Valid, builder, Builder.setGroups]
  refine ⟨valid, ?_⟩
  obtain ⟨program, built, dispatches, report, after, ran, outcome⟩ :=
    expression.run_eq_first_success builder rfl rfl valid .none rfl input
  refine ⟨program, built, dispatches, report, after, ran, outcome.trans ?_⟩
  decide +kernel

end PatternMachine
