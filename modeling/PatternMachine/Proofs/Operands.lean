import PatternMachine.Proofs.Nesting.Listing
import PatternMachine.Proofs.Subcalls

/-!
# Operands that a program does not have

Groups, repeats, checks, classes, templates and targets are referred to by number, and nothing keeps
an instruction from naming one that does not exist.  The dispatch that comes to such an operand is
the last one of its run.  Most instructions look at their operands before anything else, whatever
the text and the captures are.  Three do not: a class is looked up for a character, the groups of an
alternative reference one after the other, and the groups that an empty check watches are never
looked up at all.
-/

namespace PatternMachine

/-- What an instruction refers to by a number. -/
inductive Operand where
  | group (number : Nat)
  | boundedRepeat (id : Nat)
  | emptyCheck (id : Nat)
  | charClass (index : Nat)
  | template (index : Nat)
  | target (address : Int)
  deriving DecidableEq, Repr

/-- Whether a program has what an operand refers to. -/
def Program.provides (program : Program) : Operand → Bool
  | .group number => program.hasGroup number
  | .boundedRepeat id => id < program.repeatRanges.size
  | .emptyCheck id => id < program.emptyCheckCount
  | .charClass index => index < program.classes.size
  | .template index => index < program.templates.size
  | .target address => 0 ≤ address && address < program.code.size

namespace Instruction

/-- The operands of an instruction at an address. -/
def operands (address : Nat) : Instruction → List Operand
  | .template index _ _ => [.template index]
  | .charClass (.entry index) => [.charClass index]
  | .openGroup number _ | .closeGroup number _ => [.group number]
  | .clearGroups first stop => (List.range' first (stop - first)).map .group
  | .backReference reference => reference.groups.map .group
  | .emptyCheckStart id => [.emptyCheck id]
  | .emptyCheckEnd id watched => .emptyCheck id :: (watched.getD []).map .group
  | .jump offset | .push offset | .pushOrJump offset _ | .pushIfNext offset _
  | .lookNotStart offset | .lookBehindNotStart offset _ => [.target (address + offset)]
  | .repeatStart id offset _ => [.boundedRepeat id, .target (address + offset)]
  | .repeatNext id _ _ => [.boundedRepeat id]
  | .call target => [.target target]
  | _ => []

/-- Whether a dispatch comes to an operand of its instruction. -/
def ComesTo (attempt : Attempt) (point : Point) (store : Store) (operand : Operand) :
    Instruction → Prop
  | .charClass _ => (attempt.text.charAt? point.cursor.position attempt.range).isSome
  | .backReference (.anyOf numbers folded) =>
      ∃ earlier number later, numbers = earlier ++ number :: later ∧ operand = .group number ∧
        ∀ stop, attempt.repeatAny? store point.cursor.position (folded || attempt.ignoresCase)
          earlier ≠ .ok (some stop)
  | .emptyCheckEnd _ _ => ∀ number, operand ≠ .group number
  | _ => True

end Instruction

variable {attempt : Attempt} {point : Point} {store : Store}

/-! ### Looking operands up -/

namespace Program

variable {program : Program}

theorem target?_eq_none_of_absent {address : Nat} {offset : Int}
    (absent : program.provides (.target (address + offset)) = false) :
    program.target? address offset = none := by
  simp only [provides, Bool.and_eq_false_imp, decide_eq_true_eq, decide_eq_false_iff_not] at absent
  refine if_neg fun ⟨positive, inside⟩ => absent positive ?_
  omega

theorem literal?_eq_none_of_absent {index : Nat}
    (absent : program.provides (.template index) = false) (offset length : Nat) :
    program.literal? index offset length = none := by
  have outside : program.templates.size ≤ index := by simpa [provides] using absent
  rw [literal?, Array.getElem?_eq_none outside]

end Program

namespace Attempt

/-- Several groups are tried one after the other. -/
theorem repeatAny?_append (position : Nat) (ignoreCase : Bool) (earlier later : List Nat) :
    attempt.repeatAny? store position ignoreCase (earlier ++ later) =
      (attempt.repeatAny? store position ignoreCase earlier).bind fun
        | some stop => .ok (some stop)
        | none => attempt.repeatAny? store position ignoreCase later := by
  induction earlier with
  | nil => rfl
  | cons group earlier ih =>
      rw [List.cons_append, repeatAny?, repeatAny?]
      split
      · split
        · split
          · rfl
          · exact ih
        · exact ih
      · rfl

theorem exists_error_repeatAny? {position group : Nat} {ignoreCase : Bool}
    {earlier later : List Nat} (absent : attempt.program.hasGroup group = false)
    (untaken : ∀ stop, attempt.repeatAny? store position ignoreCase earlier ≠ .ok (some stop)) :
    ∃ reason, attempt.repeatAny? store position ignoreCase (earlier ++ group :: later) =
      .error reason := by
  rw [repeatAny?_append]
  cases tried : attempt.repeatAny? store position ignoreCase earlier with
  | error reason => exact ⟨reason, rfl⟩
  | ok stop =>
      cases stop with
      | some stop => exact absurd tried (untaken stop)
      | none =>
          refine ⟨.invalidGroup group, ?_⟩
          simp [Except.bind, repeatAny?, absent]

theorem exists_error_repeatAtLevel? {groups : List Nat} {group : Nat} (mem : group ∈ groups)
    (absent : attempt.program.hasGroup group = false) (position : Nat) (folded : Bool)
    (level : Int) :
    ∃ reason, attempt.repeatAtLevel? store position folded level groups = .error reason := by
  cases found : groups.find? fun group => !attempt.program.hasGroup group with
  | some first => exact ⟨.invalidGroup first, by rw [repeatAtLevel?, found]⟩
  | none => exact absurd (List.find?_eq_none.1 found group mem) (by simp [absent])

end Attempt

namespace Plan

/-- A reference finds the program malformed if it comes to a group that is not there. -/
theorem exists_corrupt_backReference {reference : BackReference} {group : Nat}
    (named : group ∈ reference.groups) (absent : attempt.program.hasGroup group = false)
    (comesTo : (Instruction.backReference reference).ComesTo attempt point store (.group group)) :
    ∃ reason, backReference attempt point store reference = .corrupt reason := by
  have repeats : ∃ reason, reference.repeat? attempt store point.cursor.position =
      .error reason := by
    cases reference with
    | first | second | group number folded =>
        rw [List.mem_singleton.1 named] at absent
        exact ⟨_, by rw [BackReference.repeat?, Attempt.repeatGroup?, absent]; rfl⟩
    | anyOf numbers folded =>
        obtain ⟨earlier, number, later, rfl, same, untaken⟩ := comesTo
        cases same
        exact Attempt.exists_error_repeatAny? absent untaken
    | atLevel folded level numbers =>
        exact Attempt.exists_error_repeatAtLevel? named absent _ folded level
  obtain ⟨reason, failed⟩ := repeats
  exact ⟨reason, by rw [backReference, failed]⟩

/-- Groups are cleared only if all of them are there. -/
theorem exists_corrupt_clearGroups {first stop group : Nat} (above : first ≤ group)
    (below : group < stop) (absent : attempt.program.hasGroup group = false) :
    clearGroups attempt point first stop = .corrupt (.invalidGroup stop) := by
  refine if_pos ?_
  simp only [Program.hasGroup, Bool.and_eq_false_imp, bne_iff_ne, decide_eq_false_iff_not] at absent
  by_cases zero : first = 0
  · exact .inl zero
  · have := absent (by omega)
    omega

theorem branch_of_absent {offset : Int}
    (absent : attempt.program.provides (.target (point.address + offset)) = false)
    (plan : Nat → Plan) : branch attempt point offset plan = .corrupt .addressOutOfRange := by
  rw [branch, Program.target?_eq_none_of_absent absent]

/-- An instruction that comes to an operand that is not there finds the program malformed, and does
nothing else. -/
theorem exists_corrupt_of_absent {instruction : Instruction} {operand : Operand}
    (named : operand ∈ instruction.operands point.address)
    (absent : attempt.program.provides operand = false)
    (comesTo : instruction.ComesTo attempt point store operand) :
    ∃ reason, ofInstruction attempt point store instruction = .corrupt reason := by
  cases instruction with
  | template index offset length =>
      cases List.mem_singleton.1 named
      refine ⟨.invalidTemplate index, ?_⟩
      rw [ofInstruction, Program.literal?_eq_none_of_absent absent]
  | charClass members =>
      cases members with
      | entry index =>
          cases List.mem_singleton.1 named
          obtain ⟨character, there⟩ := Option.isSome_iff_exists.1 comesTo
          have outside : attempt.program.classes.size ≤ index := by
            simpa [Program.provides] using absent
          refine ⟨.invalidClass index, ?_⟩
          simp only [ofInstruction, charClass, there, ClassOperand.resolve?,
            Array.getElem?_eq_none outside]
      | narrow bits negated | wide ranges negated | mixed bits ranges negated => cases named
  | openGroup number logged =>
      cases List.mem_singleton.1 named
      have missing : attempt.program.hasGroup number = false := absent
      exact ⟨.invalidGroup number, by simp [ofInstruction, openGroup, missing]⟩
  | closeGroup number logged =>
      cases List.mem_singleton.1 named
      have missing : attempt.program.hasGroup number = false := absent
      exact ⟨.invalidGroup number, by simp [ofInstruction, closeGroup, missing]⟩
  | clearGroups first stop =>
      obtain ⟨group, mem, rfl⟩ := List.mem_map.1 named
      rw [List.mem_range'_1] at mem
      exact ⟨_, exists_corrupt_clearGroups mem.1 (by omega) absent⟩
  | backReference reference =>
      obtain ⟨group, mem, rfl⟩ := List.mem_map.1 named
      exact exists_corrupt_backReference mem absent comesTo
  | emptyCheckStart id =>
      cases List.mem_singleton.1 named
      refine ⟨.invalidEmptyCheck id, if_neg ?_⟩
      simpa [Program.provides] using absent
  | emptyCheckEnd id watched =>
      rcases List.mem_cons.1 named with rfl | mem
      · refine ⟨.invalidEmptyCheck id, if_neg ?_⟩
        simpa [Program.provides] using absent
      · obtain ⟨group, _, rfl⟩ := List.mem_map.1 mem
        exact absurd rfl (comesTo group)
  | jump offset | push offset | pushOrJump offset next | pushIfNext offset next
  | lookNotStart offset | lookBehindNotStart offset length =>
      cases List.mem_singleton.1 named
      exact ⟨_, branch_of_absent absent _⟩
  | repeatStart id offset greedy =>
      simp only [ofInstruction, repeatStart]
      cases ranged : attempt.program.repeatRanges[id]? with
      | none => exact ⟨_, rfl⟩
      | some range =>
          rcases List.mem_cons.1 named with rfl | mem
          · have known := (Array.getElem?_eq_some_iff.1 ranged).1
            simp [Program.provides, known] at absent
          · cases List.mem_singleton.1 mem
            exact ⟨_, branch_of_absent absent _⟩
  | repeatNext id greedy direct =>
      cases List.mem_singleton.1 named
      have outside : attempt.program.repeatRanges.size ≤ id := by
        simpa [Program.provides] using absent
      refine ⟨.invalidRepeat id, ?_⟩
      simp only [ofInstruction, repeatNext, Array.getElem?_eq_none outside]
  | call target =>
      cases List.mem_singleton.1 named
      refine ⟨.addressOutOfRange, if_neg ?_⟩
      simpa [Program.provides] using absent
  | _ => cases named

end Plan

/-! ### The end of the run -/

namespace Search

/-- A dispatch that comes to an operand that the program does not have ends the run, unless the hook
stops it right there, and blames its own instruction.  A template, a repeat, a check, a target, a
group that is opened, closed, cleared or referred to alone or for a level is come to at every
dispatch, whatever the text, the position and the captures are. -/
theorem absent_operand_ends_run {setting : Setting} {search : Search} {instruction : Instruction}
    (fetched : setting.program.code[search.point.address]? = some instruction) {operand : Operand}
    (named : operand ∈ instruction.operands search.point.address)
    (absent : setting.program.provides operand = false)
    (comesTo : instruction.ComesTo setting.toAttempt search.point search.store operand) :
    ∃ reason, search.step setting = (search.work setting).bind fun worked =>
      .error ⟨.stopped (.corrupt search.point.address reason),
        worked.note setting (.dispatched search.point search.store.depth)⟩ := by
  obtain ⟨reason, plan⟩ := Plan.exists_corrupt_of_absent named absent comesTo
  refine ⟨reason, ?_⟩
  rw [step_of_fetched fetched, plan]
  cases worked : search.work setting with
  | error ending => rfl
  | ok next =>
      have attempted : Move.work.attempt setting search = .ok next := worked
      have stays : (next.note setting (.dispatched search.point search.store.depth)).point =
          search.point := by
        rw [note_eq, Move.eq_onSearch attempted]
        rfl
      change (next.note setting (.dispatched search.point search.store.depth)).reject reason = _
      rw [reject, stays]
      rfl

/-- A class that is not in the table is found missing where a character is to be tested. -/
theorem absent_operand_ends_run_of_class :
    let setting := plainSetting #[] #[.charClass (.entry 0), .accept] #[97]
    setting.program.code[(outset setting).point.address]? = some (.charClass (.entry 0)) ∧
      .charClass 0 ∈ Instruction.operands 0 (.charClass (.entry 0)) ∧
      setting.program.provides (.charClass 0) = false ∧
      (Instruction.charClass (.entry 0)).ComesTo setting.toAttempt (outset setting).point
        (outset setting).store (.charClass 0) ∧
      ∃ reason, (outset setting).step setting = ((outset setting).work setting).bind fun worked =>
        .error ⟨.stopped (.corrupt 0 reason), worked.note setting (.dispatched ⟨0, ⟨0, 0⟩⟩ 0)⟩ := by
  intro setting
  have fetched : setting.program.code[(outset setting).point.address]? =
      some (.charClass (.entry 0)) := by decide +kernel
  have named : .charClass 0 ∈ Instruction.operands 0 (.charClass (.entry 0)) := .head _
  have absent : setting.program.provides (.charClass 0) = false := by decide +kernel
  have comesTo : (Instruction.charClass (.entry 0)).ComesTo setting.toAttempt (outset setting).point
      (outset setting).store (.charClass 0) := by
    change (setting.text.charAt? 0 setting.range).isSome = true
    decide +kernel
  exact ⟨fetched, named, absent, comesTo, absent_operand_ends_run fetched named absent comesTo⟩

/-- Not every operand is come to.  A class that is not in the table goes unnoticed at the end of the
text, a group that is not there behind one that is repeated, and a watched group always. -/
theorem absent_operands_go_unnoticed :
    (let setting := plainSetting #[] #[.charClass (.entry 0), .accept] #[]
    setting.program.provides (.charClass 0) = false ∧
      (run? setting 1 (outset setting)).map (fun ending => ending.outcome) = some .unmatched) ∧
    (let plain := plainSetting #[]
      #[.openGroup 1 true, .closeGroup 1 true, .backReference (.anyOf [1, 7] false), .accept] #[]
    let setting : Setting := { plain with program := { plain.program with groupCount := 1 } }
    setting.program.provides (.group 7) = false ∧
      (run? setting 4 (outset setting)).map (fun ending => ending.outcome) =
        some (.matched ⟨#[some 0, some 0], #[some 0, some 0]⟩)) ∧
    (let plain := plainSetting #[]
      #[.emptyCheckStart 0, .emptyCheckEnd 0 (some [7]), .jump (-2), .accept] #[]
    let setting : Setting := { plain with program := { plain.program with emptyCheckCount := 1 } }
    setting.program.provides (.group 7) = false ∧
      (run? setting 3 (outset setting)).map (fun ending => ending.outcome) =
        some (.matched ⟨#[some 0], #[some 0]⟩)) := by
  refine ⟨?unread, ?behind, ?watched⟩
  case unread => exact ⟨by decide +kernel, by decide +kernel⟩
  case behind => exact ⟨by decide +kernel, by decide +kernel⟩
  case watched => exact ⟨by decide +kernel, by decide +kernel⟩

end Search

end PatternMachine
