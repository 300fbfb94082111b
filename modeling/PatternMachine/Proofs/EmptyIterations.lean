import PatternMachine.Proofs.Marks
import PatternMachine.Proofs.Subcalls

/-!
# Empty iterations

The end of an iteration looks for the innermost mark of its check.  As marks outlive the ends of
their iterations, that is the mark of the iteration itself only if nothing inside has started another
one of the same check, be it in a subexpression that was called (`Search.calls_disturb_iterations`).
Otherwise the iteration is empty if it ends where it has started, whatever was called or tried
meanwhile (`Search.iterations_end_empty_across_calls`).
-/

namespace PatternMachine

/-! ### The end of an iteration -/

namespace Plan

variable (attempt : Attempt) (point : Point)

/-- Ends an iteration of a check: an empty one is reported and steps over the loop's way back. -/
def iterationEnd (id : Nat) (empty : Bool) : Plan :=
  if empty then
    let report : Effect := .note (.emptyIteration point.address id point.cursor.position)
    if attempt.program.code[point.next]?.map Instruction.isLoopBack = some true then
      .goto (point.next + 1) point.cursor [report]
    else
      ⟨[report], .corrupt .noLoopBack⟩
  else
    .goto point.next point.cursor

variable {attempt point} {store : Store} {id index start : Nat}

/-- Once its mark is found, an iteration is empty if it ends where it has started and has changed
none of the watched groups. -/
theorem emptyCheckEnd_of_found (known : id < attempt.program.emptyCheckCount)
    (found : store.stack.emptyCheck? id = some index)
    (read : store.stack.get? index = some (.emptyCheck id start)) (watched : Option (List Nat)) :
    emptyCheckEnd attempt point store id watched =
      iterationEnd attempt point id (start == point.cursor.position &&
        watched.all (store.groupsUnchanged index)) := by
  simp only [emptyCheckEnd, if_pos known, found, iterationEmpty, read]
  cases watched <;> rfl

/-- The end of an iteration is reported, or it finds the latest iteration of its check, which is
empty only if it has started here. -/
theorem emptyCheckEnd_eq (attempt : Attempt) (point : Point) (store : Store) (id : Nat)
    (watched : Option (List Nat)) :
    (∃ reason, emptyCheckEnd attempt point store id watched = .corrupt reason) ∨
      id < attempt.program.emptyCheckCount ∧ ∃ start index,
        store.stack.latestStart? id = some start ∧
        emptyCheckEnd attempt point store id watched =
          iterationEnd attempt point id (start == point.cursor.position &&
            watched.all (store.groupsUnchanged index)) := by
  by_cases known : id < attempt.program.emptyCheckCount
  · cases latest : store.stack.latestStart? id with
    | none =>
        left
        simp only [emptyCheckEnd, if_pos known, Stack.emptyCheck?_eq_none latest]
        exact ⟨_, rfl⟩
    | some start =>
        obtain ⟨index, found, read⟩ := Stack.exists_of_latestStart? latest
        exact .inr ⟨known, start, index, rfl, emptyCheckEnd_of_found known found read watched⟩
  · left
    simp only [emptyCheckEnd, if_neg known]
    exact ⟨_, rfl⟩

end Plan

/-! ### Iterations on a route -/

namespace Search

/-- Where the latest iteration of a check on a stretch of a route has started, not counting those in
brackets that have ended. -/
def openIteration? (program : Program) (id : Nat) (stretch : List Search) : Option Nat :=
  (openings program stretch).findSome? fun opening => opening.1.iteration? id

variable {setting : Setting} {search iteration : Search} {since before : List Search}
  {store : Store} {dispatches id : Nat}

/-- No iteration is open on a stretch on which none has started. -/
theorem openIteration?_eq_none {program : Program} {stretch : List Search}
    (never : ∀ dispatch ∈ stretch,
      program.code[dispatch.point.address]? ≠ some (.emptyCheckStart id)) :
    openIteration? program id stretch = none := by
  rw [openIteration?, List.findSome?_eq_none_iff]
  rintro ⟨frame, depth⟩ mem
  obtain ⟨dispatch, onStretch, opens⟩ := exists_opening?_of_mem_openings mem
  obtain ⟨instruction, fetched, opens⟩ := Option.bind_eq_some_iff.1 opens
  cases instruction with
  | lookStart | atomicStart =>
      cases opens
      rfl
  | emptyCheckStart started =>
      cases opens
      refine if_neg ?_
      intro same
      rw [eq_of_beq same] at fetched
      exact never dispatch onStretch fetched
  | _ => cases opens

/-- Only checks that the program has start iterations. -/
theorem emptyCheck_known
    (reaches : (start setting store).advance setting dispatches = .ok search)
    (discards : ∀ visit ∈ trail setting dispatches (start setting store), visit.DiscardsChoice)
    (split : route setting dispatches [] (start setting store) = since ++ iteration :: before)
    (starts : setting.program.code[iteration.point.address]? = some (.emptyCheckStart id)) :
    id < setting.program.emptyCheckCount := by
  refine stretch_invariant (fun _ => id < setting.program.emptyCheckCount) reaches discards split ?_
    fun next latest _ _ known => known
  rintro next ⟨left, leaves, _⟩
  by_contra unknown
  refine leaves.not_corrupt starts (.invalidEmptyCheck id) ?_
  simp only [Plan.ofInstruction, Plan.emptyCheckStart, if_neg unknown]

/-- The mark that the end of an iteration finds: the one of the latest iteration since that is still
open, or else its own. -/
theorem exists_found_iteration
    (reaches : (start setting store).advance setting dispatches = .ok search)
    (discards : ∀ visit ∈ trail setting dispatches (start setting store), visit.DiscardsChoice)
    (split : route setting dispatches [] (start setting store) = since ++ iteration :: before)
    (starts : setting.program.code[iteration.point.address]? = some (.emptyCheckStart id))
    (balanced : Balanced setting.program since) :
    ∃ index, search.store.stack.emptyCheck? id = some index ∧
      search.store.stack.get? index = some (.emptyCheck id
        ((openIteration? setting.program id since).getD iteration.point.cursor.position)) ∧
      (openIteration? setting.program id since = none → index = iteration.store.depth) := by
  have opens : iteration.opening? setting.program =
      some (.emptyCheck id iteration.point.cursor.position) := by
    rw [opening?, starts]
    rfl
  have open_marks := openings_eq reaches discards
  rw [split, balanced.openings_append, openings, opens] at open_marks
  cases latest : openIteration? setting.program id since with
  | none =>
      obtain ⟨found, read⟩ := Stack.emptyCheck?_of_openings open_marks
        (List.findSome?_eq_none_iff.1 latest)
      exact ⟨_, found, read, fun _ => rfl⟩
  | some start =>
      have latest_mark : search.store.stack.latestStart? id = some start := by
        rw [openIteration?] at latest
        rw [Stack.latestStart?, open_marks, List.findSome?_append, latest]
        rfl
      obtain ⟨index, found, read⟩ := Stack.exists_of_latestStart? latest_mark
      exact ⟨index, found, read, fun none_open => by cases none_open⟩

/-- The end of an iteration steps over the loop's way back exactly if it stands where the iteration
has started.  What was called, tried or given up meanwhile does not matter, nor do other checks, nor
iterations of the same check in atomic groups and lookaheads that have ended since.  If an iteration
of the same check has started since and is not in such a bracket, the end stands for that one: it
steps over the way back exactly if it stands where the latest one has started.  This holds in runs
that throw away nothing but choices, if each bracket that has ended since has opened since. -/
theorem iterations_end_empty_across_calls
    (reaches : (start setting store).advance setting dispatches = .ok search)
    (discards : ∀ visit ∈ trail setting dispatches (start setting store), visit.DiscardsChoice)
    (split : route setting dispatches [] (start setting store) = since ++ iteration :: before)
    (starts : setting.program.code[iteration.point.address]? = some (.emptyCheckStart id))
    (balanced : Balanced setting.program since)
    (ends : setting.program.code[search.point.address]? = some (.emptyCheckEnd id none)) :
    (openIteration? setting.program id since = none →
      search.CarriesOut setting (.iterationEnd setting.toAttempt search.point id
        (search.point.cursor.position == iteration.point.cursor.position))) ∧
    ∀ latest, openIteration? setting.program id since = some latest →
      search.CarriesOut setting (.iterationEnd setting.toAttempt search.point id
        (search.point.cursor.position == latest)) := by
  have known := emptyCheck_known reaches discards split starts
  obtain ⟨index, found, read, _⟩ :=
    exists_found_iteration reaches discards split starts balanced
  have carriesOut := step_of_fetched ends
  rw [Plan.ofInstruction, Plan.emptyCheckEnd_of_found known found read, Option.all_none,
    Bool.and_true, Bool.beq_comm] at carriesOut
  constructor
  · intro none_open
    rw [none_open] at carriesOut
    exact carriesOut
  · intro latest is_open
    rw [is_open] at carriesOut
    exact carriesOut

/-- The setting of a run on the whole of a text, without limits, for code that needs no tables but
counts its empty-iteration checks. -/
def checkingSetting (checks : Nat) (code : Array Instruction) (bytes : Array UInt8) : Setting :=
  let plain := plainSetting #[] code bytes
  { plain with program := { plain.program with emptyCheckCount := checks } }

/-- A loop calls a subexpression that iterates itself with the same check, within an atomic group.
The first iteration of the loop is not empty, as the call has taken a character; the second one is,
as the call takes none, after an iteration that was given up. -/
theorem iterations_end_empty_across_calls_of_same_check :
    let setting := checkingSetting 1
      #[.push 5, .emptyCheckStart 0, .call 6, .emptyCheckEnd 0 none, .jump (-4), .accept,
        .atomicStart, .push 5, .emptyCheckStart 0, .byte 97, .emptyCheckEnd 0 none, .jump (-4),
        .atomicEnd, .callReturn] #[97]
    (∃ since before,
      route setting 14 [] (outset setting) = since ++ after setting 1 :: before ∧
        (∃ inner ∈ since,
          setting.program.code[inner.point.address]? = some (.emptyCheckStart 0)) ∧
        (after setting 14).CarriesOut setting (.goto 4 ⟨1, 0⟩)) ∧
    ∃ since before,
      route setting 25 [] (outset setting) = since ++ after setting 17 :: before ∧
        (∃ call ∈ since, setting.program.code[call.point.address]? = some (.call 6)) ∧
        (after setting 25).CarriesOut setting (.goto 5 ⟨1, 0⟩ [.note (.emptyIteration 3 0 1)]) := by
  intro setting
  constructor
  · have split : route setting 14 [] (outset setting) =
        (route setting 14 [] (outset setting)).take 10 ++ after setting 1 ::
          (route setting 14 [] (outset setting)).drop 11 := by decide +kernel
    have reaches : (outset setting).advance setting 14 = .ok (after setting 14) :=
      @advance_after setting 0 14 (by decide +kernel)
    have starts : setting.program.code[(after setting 1).point.address]? =
        some (.emptyCheckStart 0) := by decide +kernel
    have ends : setting.program.code[(after setting 14).point.address]? =
        some (.emptyCheckEnd 0 none) := by decide +kernel
    have carriesOut := (iterations_end_empty_across_calls reaches (by decide +kernel) split starts
      (by decide +kernel) ends).1 (by decide +kernel)
    have goesOn : Plan.iterationEnd setting.toAttempt (after setting 14).point 0
        ((after setting 14).point.cursor.position == (after setting 1).point.cursor.position) =
          .goto 4 ⟨1, 0⟩ := by decide +kernel
    rw [goesOn] at carriesOut
    exact ⟨_, _, split, by decide +kernel, carriesOut⟩
  · have split : route setting 25 [] (outset setting) =
        (route setting 25 [] (outset setting)).take 5 ++ after setting 17 ::
          (route setting 25 [] (outset setting)).drop 6 := by decide +kernel
    have reaches : (outset setting).advance setting 25 = .ok (after setting 25) :=
      @advance_after setting 0 25 (by decide +kernel)
    have starts : setting.program.code[(after setting 17).point.address]? =
        some (.emptyCheckStart 0) := by decide +kernel
    have ends : setting.program.code[(after setting 25).point.address]? =
        some (.emptyCheckEnd 0 none) := by decide +kernel
    have carriesOut := (iterations_end_empty_across_calls reaches (by decide +kernel) split starts
      (by decide +kernel) ends).1 (by decide +kernel)
    have stepsOver : Plan.iterationEnd setting.toAttempt (after setting 25).point 0
        ((after setting 25).point.cursor.position == (after setting 17).point.cursor.position) =
          .goto 5 ⟨1, 0⟩ [.note (.emptyIteration 3 0 1)] := by decide +kernel
    rw [stepsOver] at carriesOut
    exact ⟨_, _, split, by decide +kernel, carriesOut⟩

/-- What becomes of iterations otherwise.  A call that iterates with the check of its caller leaves
its own mark on top: the caller's iteration has taken a character, but it is said to be empty, and
the match has one character instead of two.  A mark that was thrown away is missed, and so is one
that lies in a bracket that has ended. -/
theorem calls_disturb_iterations :
    (let setting := checkingSetting 1
      #[.push 6, .emptyCheckStart 0, .byte 97, .call 7, .emptyCheckEnd 0 none, .jump (-5), .accept,
        .push 6, .emptyCheckStart 0, .push 2, .byte 98, .emptyCheckEnd 0 none, .jump (-5),
        .callReturn] #[97, 97]
    (∃ since before,
      route setting 10 [] (outset setting) = since ++ after setting 1 :: before ∧
        Balanced setting.program since) ∧
      (∀ visit ∈ trail setting 10 (outset setting), visit.DiscardsChoice) ∧
      setting.program.code[(after setting 1).point.address]? = some (.emptyCheckStart 0) ∧
      setting.program.code[(after setting 10).point.address]? = some (.emptyCheckEnd 0 none) ∧
      (after setting 1).point.cursor.position = 0 ∧ (after setting 10).point.cursor.position = 1 ∧
      (after setting 11).point = ⟨6, ⟨1, 0⟩⟩ ∧
      (run? setting 12 (outset setting)).map (fun ending => ending.outcome) =
        some (.matched ⟨#[some 0], #[some 1]⟩)) ∧
    (let setting := checkingSetting 1
      #[.emptyCheckStart 0, .call 7, .pop, .pop, .pop, .emptyCheckEnd 0 none, .jump (-6),
        .callReturn] #[]
    (∃ since before,
      route setting 6 [] (outset setting) = since ++ outset setting :: before ∧
        Balanced setting.program since) ∧
      setting.program.code[(outset setting).point.address]? = some (.emptyCheckStart 0) ∧
      setting.program.code[(after setting 6).point.address]? = some (.emptyCheckEnd 0 none) ∧
      (outset setting).point.cursor.position = (after setting 6).point.cursor.position ∧
      (run? setting 7 (outset setting)).map (fun ending => ending.outcome) =
        some (.stopped (.corrupt 5 (.missingMark Mark.emptyCheck.name)))) ∧
    (let setting := checkingSetting 1
      #[.atomicStart, .emptyCheckStart 0, .call 5, .emptyCheckEnd 0 none, .jump (-3), .atomicEnd,
        .callReturn] #[]
    (∃ since before,
      route setting 5 [] (outset setting) = since ++ after setting 1 :: before) ∧
      (∀ visit ∈ trail setting 5 (outset setting), visit.DiscardsChoice) ∧
      setting.program.code[(after setting 1).point.address]? = some (.emptyCheckStart 0) ∧
      setting.program.code[(after setting 5).point.address]? = some (.emptyCheckEnd 0 none) ∧
      (after setting 1).point.cursor.position = (after setting 5).point.cursor.position ∧
      (run? setting 6 (outset setting)).map (fun ending => ending.outcome) =
        some (.stopped (.corrupt 3 (.missingMark Mark.emptyCheck.name)))) := by
  refine ⟨?same, ?discarded, ?ended⟩
  case same =>
    intro setting
    refine ⟨⟨(route setting 10 [] (outset setting)).take 7,
      (route setting 10 [] (outset setting)).drop 8, ?_, ?_⟩, ?_⟩
    · decide +kernel
    · decide +kernel
    · decide +kernel
  case discarded =>
    intro setting
    refine ⟨⟨(route setting 6 [] (outset setting)).take 5,
      (route setting 6 [] (outset setting)).drop 6, ?_, ?_⟩, ?_⟩
    · decide +kernel
    · decide +kernel
    · decide +kernel
  case ended =>
    intro setting
    refine ⟨⟨(route setting 5 [] (outset setting)).take 3,
      (route setting 5 [] (outset setting)).drop 4, ?_⟩, ?_⟩
    · decide +kernel
    · decide +kernel

end Search

end PatternMachine
