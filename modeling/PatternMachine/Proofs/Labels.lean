import PatternMachine.Engine
import PatternMachine.Proofs.Building
import PatternMachine.Proofs.Calls
import PatternMachine.Proofs.Move
import Mathlib.Algebra.Group.Int.Defs
import Mathlib.Algebra.Group.Nat.Defs
import Mathlib.Data.Nat.Find

/-!
# Labels and addresses

A builder writes targets into code, and the search reads them there.  What both have to agree with
is the draft that the calls of the builder describe, in which instructions still name labels.  A
draft also knows what an earlier program has left behind: bindings outlive the code they were made
for.
-/

namespace PatternMachine

/-! ### Drafts -/

/-- A line of a draft: an instruction, and the label that stands for its target. -/
structure Draft.Line where
  instruction : Instruction
  label : Option Label
  targeted : label.isSome → instruction.hasTarget
  deriving DecidableEq

/-- A program as the calls of a builder describe it. -/
structure Draft where
  lines : List Draft.Line
  /-- How many labels were made. -/
  labels : Nat
  /-- Where each label was last bound, if it was. -/
  bound : Label → Option Nat

namespace Draft.Line

/-- A line that names no label. -/
def plain (instruction : Instruction) : Draft.Line :=
  ⟨instruction, none, nofun⟩

/-- The labels that are named by lines which start at an address. -/
def uses (first : Nat) : List Draft.Line → List LabelUse
  | [] => []
  | line :: lines => (line.label.map fun label => ⟨first, label⟩).toList ++ uses (first + 1) lines

theorem uses_append (first : Nat) (lines more : List Draft.Line) :
    uses first (lines ++ more) = uses first lines ++ uses (first + lines.length) more := by
  induction lines generalizing first with
  | nil => rfl
  | cons line lines ih =>
      rw [List.cons_append, uses, uses, ih, List.append_assoc, List.length_cons, Nat.add_assoc,
        Nat.add_comm 1]

theorem of_mem_uses {first : Nat} {lines : List Draft.Line} {use : LabelUse}
    (mem : use ∈ uses first lines) :
    ∃ index line, lines[index]? = some line ∧ line.label = some use.label ∧
      use.address = first + index := by
  induction lines generalizing first with
  | nil => cases mem
  | cons line lines ih =>
      rcases List.mem_append.1 mem with own | later
      · obtain ⟨label, named, rfl⟩ := Option.map_eq_some_iff.1 (Option.mem_toList.1 own)
        exact ⟨0, line, rfl, named, rfl⟩
      · obtain ⟨index, line', read, named, address⟩ := ih later
        refine ⟨index + 1, line', read, named, ?_⟩
        omega

/-- A line is the only one that names a label for its address. -/
theorem filterMap_uses (bound : Label → Option Nat) (first index : Nat) (lines : List Draft.Line) :
    ((uses first lines).filterMap fun use =>
        if use.address = first + index then bound use.label else none) =
      ((lines[index]?.bind Draft.Line.label).bind bound).toList := by
  induction lines generalizing first index with
  | nil => rfl
  | cons line lines ih =>
      rw [uses, List.filterMap_append]
      cases index with
      | zero =>
          have later : ((uses (first + 1) lines).filterMap fun use =>
              if use.address = first + 0 then bound use.label else none) = [] := by
            rw [List.filterMap_eq_nil_iff]
            intro use mem
            obtain ⟨index, _, _, _, address⟩ := of_mem_uses mem
            rw [if_neg]
            omega
          rw [later, List.append_nil]
          cases named : line.label with
          | none => simp [named]
          | some label => cases isBound : bound label <;> simp [named, isBound]
      | succ index =>
          have own : ((line.label.map fun label => (⟨first, label⟩ : LabelUse)).toList.filterMap
              fun use => if use.address = first + (index + 1) then bound use.label else none) =
                [] := by
            cases line.label with
            | none => rfl
            | some label => simp
          have shifted := ih (first + 1) index
          rw [Nat.add_assoc, Nat.add_comm 1] at shifted
          rw [own, List.nil_append, shifted, List.getElem?_cons_succ]

end Draft.Line

namespace Builder

/-- What a folded literal is appended as. -/
def foldedInstruction (encoding : Encoding) (bytes : ByteArray) : Instruction :=
  match ((⟨bytes, encoding⟩ : Text).charactersFrom 0).map fun (_, code) => encoding.fold code with
  | [code] => .foldedChar code
  | codes => .foldedChars codes

/-- The line that a call appends, if it appends one. -/
def Call.line? (encoding : Encoding) : Call → Option Draft.Line
  | .emit instruction => some (.plain instruction)
  | .literal bytes => some (.plain (.literal bytes))
  | .foldedLiteral bytes => some (.plain (foldedInstruction encoding bytes))
  | .jump label => some ⟨.jump 0, label, fun _ => rfl⟩
  | .push label => some ⟨.push 0, label, fun _ => rfl⟩
  | .pushOrJump label next => some ⟨.pushOrJump 0 next, label, fun _ => rfl⟩
  | .pushIfNext label next => some ⟨.pushIfNext 0 next, label, fun _ => rfl⟩
  | .repeatStart id exit greedy => some ⟨.repeatStart id 0 greedy, exit, fun _ => rfl⟩
  | .lookNotStart label => some ⟨.lookNotStart 0, label, fun _ => rfl⟩
  | .lookBehindNotStart label length => some ⟨.lookBehindNotStart 0 length, label, fun _ => rfl⟩
  | .call label => some ⟨.call 0, label, fun _ => rfl⟩
  | _ => none

/-- The lines that a sequence of calls appends, to one program or to several. -/
def Call.lines (encoding : Encoding) (calls : List Call) : List Draft.Line :=
  calls.filterMap (Call.line? encoding)

end Builder

namespace Draft

/-- The draft that was not begun. -/
def blank : Draft :=
  ⟨[], 0, fun _ => none⟩

/-- Binds a label that was made to the line that comes next. -/
def bind (draft : Draft) (label : Label) : Draft where
  lines := draft.lines
  labels := draft.labels
  bound := fun other =>
    if label.index = other.index ∧ label.index < draft.labels then some draft.lines.length
    else draft.bound other

/-- What a call makes of a draft.  Building takes the lines away and leaves the bindings. -/
def after (encoding : Encoding) (draft : Draft) (call : Builder.Call) : Draft :=
  match call.line? encoding with
  | some line => { draft with lines := draft.lines ++ [line] }
  | none =>
      match call with
      | .newLabel => { draft with labels := draft.labels + 1 }
      | .bind label => draft.bind label
      | .build => { draft with lines := [] }
      | _ => draft

/-- The draft that a sequence of calls describes. -/
def ofCalls (encoding : Encoding) (calls : List Builder.Call) : Draft :=
  calls.foldl (after encoding) blank

/-- Whether every label that a line names is bound. -/
def Settled (draft : Draft) : Prop :=
  ∀ line ∈ draft.lines, ∀ label, line.label = some label → ∃ target, draft.bound label = some target

/-- Whether the line at an address names a label that is not bound. -/
def OpenAt (draft : Draft) (address : Nat) : Prop :=
  ∃ line label, draft.lines[address]? = some line ∧ line.label = some label ∧
    draft.bound label = none

theorem settled_of_not_openAt {draft : Draft} (closed : ∀ address, ¬ draft.OpenAt address) :
    draft.Settled := by
  intro line mem label named
  obtain ⟨address, read⟩ := List.getElem?_of_mem mem
  cases isBound : draft.bound label with
  | some target => exact ⟨target, rfl⟩
  | none => exact absurd ⟨line, label, read, named, isBound⟩ (closed address)

/-- Whether a draft has no more than a number of lines, and no label is bound farther on. -/
structure Within (draft : Draft) (count : Nat) : Prop where
  lines : draft.lines.length ≤ count
  bound : ∀ label target, draft.bound label = some target → target ≤ count

theorem Within.after {draft : Draft} {count : Nat} (within : draft.Within count)
    (encoding : Encoding) (call : Builder.Call) :
    (draft.after encoding call).Within (count + (call.line? encoding).toList.length) := by
  unfold Draft.after
  cases appends : call.line? encoding with
  | some line =>
      refine ⟨?_, fun label target isBound => Nat.le_succ_of_le (within.bound label target isBound)⟩
      rw [List.length_append]
      exact Nat.add_le_add_right within.lines 1
  | none =>
      cases call with
      | bind label =>
          refine ⟨within.lines, ?_⟩
          intro other target isBound
          dsimp only [Draft.bind] at isBound
          split at isBound
          · cases isBound
            exact within.lines
          · exact within.bound other target isBound
      | build => exact ⟨Nat.zero_le _, within.bound⟩
      | newLabel => exact ⟨within.lines, within.bound⟩
      | _ => exact within

/-- No label is bound farther on than lines were ever appended. -/
theorem within_ofCalls (encoding : Encoding) (calls : List Builder.Call) :
    (ofCalls encoding calls).Within (Builder.Call.lines encoding calls).length := by
  have along : ∀ (draft : Draft) (count : Nat), draft.Within count →
      (calls.foldl (after encoding) draft).Within
        (count + (Builder.Call.lines encoding calls).length) := by
    induction calls with
    | nil =>
        intro draft count within
        exact within
    | cons call calls ih =>
        intro draft count within
        have rest := ih _ _ (within.after encoding call)
        have lines : (Builder.Call.lines encoding (call :: calls)).length =
            (call.line? encoding).toList.length +
              (Builder.Call.lines encoding calls).length := by
          rw [Builder.Call.lines, List.filterMap_cons]
          cases call.line? encoding with
          | none => exact (Nat.zero_add _).symm
          | some line => exact Nat.add_comm _ 1
        rw [lines, ← Nat.add_assoc]
        exact rest
  have start : blank.Within 0 := ⟨Nat.le_refl 0, fun _ _ isBound => nomatch isBound⟩
  have reached := along blank 0 start
  rw [Nat.zero_add] at reached
  exact reached

end Draft

/-! ### Builders and drafts -/

namespace Builder

/-- Appends a line. -/
def append (builder : Builder) (line : Draft.Line) : Builder :=
  match line.label with
  | some label => builder.emitTo line.instruction label
  | none => builder.emit line.instruction

theorem after_eq_append {builder : Builder} {call : Call} {line : Draft.Line}
    (appends : call.line? builder.encoding = some line) :
    builder.after call = builder.append line := by
  cases call with
  | foldedLiteral bytes =>
      cases appends
      simp only [after, foldedLiteral, append, Draft.Line.plain, foldedInstruction]
      generalize List.map _ _ = codes
      rcases codes with _ | ⟨code, _ | _⟩ <;> rfl
  | emit | literal | jump | push | pushOrJump | pushIfNext | repeatStart | lookNotStart
  | lookBehindNotStart | call =>
      cases appends
      rfl
  | _ => cases appends

section Append

variable (builder : Builder) (line : Draft.Line)

theorem code_append : (builder.append line).code = builder.code.push line.instruction := by
  unfold append
  cases line.label <;> rfl

theorem uses_append :
    (builder.append line).uses.toList = builder.uses.toList ++
      (line.label.map fun label => (⟨builder.code.size, label⟩ : LabelUse)).toList := by
  unfold append
  cases line.label with
  | none => exact (List.append_nil _).symm
  | some label => exact Array.toList_push

theorem labels_append : (builder.append line).labels = builder.labels := by
  unfold append
  cases line.label <;> rfl

theorem encoding_append : (builder.append line).encoding = builder.encoding := by
  unfold append
  cases line.label <;> rfl

end Append

/-- Whether a builder holds what a draft says. -/
structure Holds (encoding : Encoding) (draft : Draft) (builder : Builder) : Prop where
  encoding : builder.encoding = encoding
  code : builder.code.toList = draft.lines.map Draft.Line.instruction
  uses : builder.uses.toList = Draft.Line.uses 0 draft.lines
  labels : builder.labels.size = draft.labels
  bound : ∀ label, builder.address? label = draft.bound label

namespace Holds

variable {encoding : Encoding} {draft : Draft} {builder : Builder}

theorem size_eq (holds : builder.Holds encoding draft) :
    builder.code.size = draft.lines.length := by
  rw [← Array.length_toList, holds.code, List.length_map]

theorem append (holds : builder.Holds encoding draft) (line : Draft.Line) :
    (builder.append line).Holds encoding { draft with lines := draft.lines ++ [line] } where
  encoding := (builder.encoding_append line).trans holds.encoding
  code := by
    rw [code_append, Array.toList_push, holds.code, List.map_append]
    rfl
  uses := by
    rw [uses_append, holds.uses, holds.size_eq, Draft.Line.uses_append, Nat.zero_add,
      Draft.Line.uses, Draft.Line.uses, List.append_nil]
  labels := by rw [labels_append, holds.labels]
  bound := by
    intro label
    rw [address?, labels_append]
    exact holds.bound label

theorem newLabel (holds : builder.Holds encoding draft) :
    builder.newLabel.2.Holds encoding { draft with labels := draft.labels + 1 } where
  encoding := holds.encoding
  code := holds.code
  uses := holds.uses
  labels := by rw [size_newLabel, holds.labels]
  bound := fun label => (address?_newLabel builder label).trans (holds.bound label)

theorem bind (holds : builder.Holds encoding draft) (label : Label) :
    (builder.bind label).Holds encoding (draft.bind label) where
  encoding := holds.encoding
  code := holds.code
  uses := holds.uses
  labels := by rw [size_bind, holds.labels, Draft.bind]
  bound := by
    intro other
    rw [address?_bind, holds.labels, holds.size_eq, holds.bound, Draft.bind]

theorem build (holds : builder.Holds encoding draft) {program : Program}
    (built : builder.build.1 = .ok program) :
    builder.build.2.Holds encoding { draft with lines := [] } := by
  unfold Builder.build at built ⊢
  split at built
  · exact ⟨holds.encoding, rfl, rfl, holds.labels, holds.bound⟩
  · cases built

/-- A call does to a builder what it does to the draft. -/
theorem after (holds : builder.Holds encoding draft) (call : Call)
    (succeeds : call = .build → ∃ program, builder.build.1 = .ok program) :
    (builder.after call).Holds encoding (draft.after encoding call) := by
  unfold Draft.after
  cases appends : call.line? encoding with
  | some line =>
      rw [← holds.encoding] at appends
      rw [after_eq_append appends]
      exact holds.append line
  | none =>
      cases call with
      | newLabel => exact holds.newLabel
      | bind label => exact holds.bind label
      | build =>
          obtain ⟨program, built⟩ := succeeds rfl
          exact holds.build built
      | setOptions | setGroups | addRepeat | addEmptyCheck | addTemplate | addClass =>
          exact ⟨holds.encoding, holds.code, holds.uses, holds.labels, holds.bound⟩
      | _ => cases appends

theorem afterCalls (holds : builder.Holds encoding draft) {calls : List Call}
    (succeed : ∀ index : Nat, calls[index]? = some .build →
      ∃ program, (builder.afterCalls (calls.take index)).build.1 = .ok program) :
    (builder.afterCalls calls).Holds encoding (calls.foldl (Draft.after encoding) draft) := by
  induction calls generalizing builder draft with
  | nil => exact holds
  | cons call calls ih =>
      refine ih (holds.after call fun isBuild => succeed 0 (congrArg some isBuild)) ?_
      intro index isBuild
      exact succeed (index + 1) isBuild

end Holds

/-- The builder after a sequence of calls holds the draft that the calls describe, if nothing that
was to be built on the way has failed. -/
theorem holds_ofCalls {encoding : Encoding} {calls : List Call}
    (succeed : ∀ index : Nat, calls[index]? = some .build →
      ∃ program, ((new encoding).afterCalls (calls.take index)).build.1 = .ok program) :
    ((new encoding).afterCalls calls).Holds encoding (Draft.ofCalls encoding calls) := by
  have fresh : (new encoding).Holds encoding .blank := ⟨rfl, rfl, rfl, rfl, fun _ => rfl⟩
  exact fresh.afterCalls succeed

/-! ### What is built -/

/-- The first use of a label that is not bound is reported. -/
theorem resolve_error {builder : Builder} {before after : List LabelUse} {use : LabelUse}
    (bound : ∀ use ∈ before, ∃ target, builder.address? use.label = some target)
    (unbound : builder.address? use.label = none) (code : Array Instruction) :
    (before ++ use :: after).foldlM builder.resolve code =
      .error (.corrupt use.address .addressOutOfRange) := by
  obtain ⟨code', folded, _⟩ := builder.resolve_all before code bound
  rw [List.foldlM_append, folded]
  simp only [List.foldlM_cons, resolve, unbound]
  rfl

namespace Holds

variable {encoding : Encoding} {draft : Draft} {builder : Builder}

theorem settled (holds : builder.Holds encoding draft) (settled : draft.Settled) :
    builder.Settled := by
  intro use mem
  rw [← Array.mem_toList_iff, holds.uses] at mem
  obtain ⟨index, line, read, named, _⟩ := Draft.Line.of_mem_uses mem
  obtain ⟨target, isBound⟩ := settled line (List.mem_of_getElem? read) use.label named
  exact ⟨target, (holds.bound use.label).trans isBound⟩

/-- A line becomes its instruction, with the address of its label for a target. -/
theorem resolved (holds : builder.Holds encoding draft) {address : Nat} {line : Draft.Line}
    (read : draft.lines[address]? = some line) :
    builder.resolved address = some
      (match line.label.bind draft.bound with
      | some target => line.instruction.withTarget address target
      | none => line.instruction) := by
  have instruction : builder.code[address]? = some line.instruction := by
    rw [← Array.getElem?_toList, holds.code, List.getElem?_map, read]
    rfl
  have targets : builder.targetsAt address = (line.label.bind draft.bound).toList := by
    have same := Draft.Line.filterMap_uses draft.bound 0 address draft.lines
    rw [Nat.zero_add, read] at same
    rw [targetsAt, holds.uses, funext holds.bound]
    exact same
  rw [Builder.resolved, instruction, targets]
  cases line.label.bind draft.bound <;> rfl

/-- A draft all of whose labels are bound becomes a program. -/
theorem build_ok (holds : builder.Holds encoding draft) (settled : draft.Settled) :
    ∃ program, builder.build.1 = .ok program ∧ program.code.size = draft.lines.length ∧
      ∀ (address : Nat) (line : Draft.Line), draft.lines[address]? = some line →
        program.code[address]? = some
          (match line.label.bind draft.bound with
          | some target => line.instruction.withTarget address target
          | none => line.instruction) := by
  obtain ⟨code, agrees, built⟩ := Builder.build_ok (holds.settled settled)
  refine ⟨_, built, ?_, fun address line read => ?_⟩
  · exact (size_eq_of_resolved agrees).trans holds.size_eq
  · exact (agrees address).trans (holds.resolved read)

/-- The first line whose label is not bound is reported. -/
theorem build_error (holds : builder.Holds encoding draft) {address : Nat}
    (isOpen : draft.OpenAt address) (first : ∀ earlier < address, ¬ draft.OpenAt earlier) :
    builder.build.1 = .error (.corrupt address .addressOutOfRange) := by
  obtain ⟨line, label, read, named, unbound⟩ := isOpen
  obtain ⟨inside, rfl⟩ := List.getElem?_eq_some_iff.1 read
  have parts : draft.lines =
      draft.lines.take address ++ draft.lines[address] :: draft.lines.drop (address + 1) := by
    rw [← List.drop_eq_getElem_cons inside, List.take_append_drop]
  have length : (draft.lines.take address).length = address :=
    List.length_take_of_le (Nat.le_of_lt inside)
  have uses : builder.uses.toList = Draft.Line.uses 0 (draft.lines.take address) ++
      ⟨address, label⟩ :: Draft.Line.uses (address + 1) (draft.lines.drop (address + 1)) := by
    rw [holds.uses, parts, Draft.Line.uses_append, ← parts, length, Nat.zero_add,
      Draft.Line.uses, named]
    rfl
  have bound : ∀ use ∈ Draft.Line.uses 0 (draft.lines.take address),
      ∃ target, builder.address? use.label = some target := by
    intro use mem
    obtain ⟨index, line, read', named', _⟩ := Draft.Line.of_mem_uses mem
    obtain ⟨below, _⟩ := List.getElem?_eq_some_iff.1 read'
    rw [length] at below
    rw [List.getElem?_take_of_lt below] at read'
    rw [holds.bound]
    cases isBound : draft.bound use.label with
    | some target => exact ⟨target, rfl⟩
    | none => exact absurd ⟨line, use.label, read', named', isBound⟩ (first index below)
  rw [Builder.build, ← Array.foldlM_toList, uses,
    resolve_error bound ((holds.bound label).trans unbound)]

end Holds

end Builder

/-! ### Where branches lead -/

/-- The id of a repeat that an instruction enters although the program has no range for it. -/
def Instruction.unknownRepeat? (program : Program) : Instruction → Option Nat
  | .repeatStart id _ _ => if id < program.repeatRanges.size then none else some id
  | _ => none

theorem Program.target?_sub (program : Program) (address target : Nat) :
    program.target? address (target - address) =
      if target < program.code.size then some target else none := by
  split
  · next inside => exact target?_of_sub inside
  · next outside =>
      have sum : (address : Int) + ((target : Int) - address) = target := by omega
      simp [target?, sum, outside]

namespace Plan

variable (attempt : Attempt) (point : Point) (store : Store)

/-- What an instruction does that branches to an index of the code. -/
def toward (target : Nat) : Instruction → Plan
  | .jump _ => .goto target point.cursor
  | .push _ => .goto point.next point.cursor [choiceAt point target]
  | .pushOrJump _ next =>
      if nextIs attempt point next then .goto point.next point.cursor [choiceAt point target]
      else .goto target point.cursor
  | .pushIfNext _ next =>
      .goto point.next point.cursor
        (if nextIs attempt point next then [choiceAt point target] else [])
  | .repeatStart id _ greedy =>
      let required := attempt.program.repeatRanges[id]?.any fun range => range.lower != 0
      if required then .goto point.next point.cursor [.enterRepeat id point.next]
      else if greedy then
        .goto point.next point.cursor [.enterRepeat id point.next, choiceAt point target]
      else .goto target point.cursor [.enterRepeat id point.next, choiceAt point point.next]
  | .lookNotStart _ => .goto point.next point.cursor [.push (.lookNot ⟨target, point.cursor⟩)]
  | .lookBehindNotStart _ length =>
      match attempt.text.stepBack? 0 length point.cursor.position with
      | some position =>
          .goto point.next (attempt.text.cursorAt position)
            [.push (.behindNot ⟨target, point.cursor⟩)]
      | none => .goto target point.cursor
  | .call _ => .goto target point.cursor [.push (.call point.next)]
  | _ => .fail

theorem branch_sub (target : Nat) (plan : Nat → Plan) :
    branch attempt point (target - point.address) plan =
      if target < attempt.program.code.size then plan target
      else .corrupt .addressOutOfRange := by
  rw [branch, Program.target?_sub]
  by_cases inside : target < attempt.program.code.size
  · rw [if_pos inside, if_pos inside]
  · rw [if_neg inside, if_neg inside]

/-- An instruction that was given a target branches to it, if there is such an index, and after a
repeat has been found to have a range. -/
theorem ofInstruction_withTarget {instruction : Instruction} (targeted : instruction.hasTarget)
    (target : Nat) :
    ofInstruction attempt point store (instruction.withTarget point.address target) =
      (instruction.unknownRepeat? attempt.program).elim
        (if target < attempt.program.code.size then toward attempt point target instruction
          else .corrupt .addressOutOfRange)
        fun id => .corrupt (.invalidRepeat id) := by
  cases instruction with
  | jump | push | pushOrJump | pushIfNext | lookNotStart =>
      exact branch_sub attempt point target _
  | lookBehindNotStart => exact branch_sub attempt point target _
  | call => rfl
  | repeatStart id offset greedy =>
      simp only [Instruction.withTarget, ofInstruction, repeatStart, Instruction.unknownRepeat?,
        toward]
      by_cases known : id < attempt.program.repeatRanges.size
      · rw [if_pos known, Array.getElem?_eq_getElem known]
        dsimp only
        rw [branch_sub]
        by_cases free : attempt.program.repeatRanges[id].lower = 0
        · simp [free]
        · simp [free]
      · rw [if_neg known, Array.getElem?_eq_none (Nat.le_of_not_lt known)]
        rfl
  | _ => cases targeted

end Plan

/-! ### The law of labels -/

namespace Builder

/-- Builder and search agree on labels, however the calls of the builder are mixed and whatever it
has built before.  If every label in use is bound, the program has the instructions that were
appended, and only those with labels were given targets.  Their offsets are 32-bit numbers, and
their dispatch branches to where the label was last bound, or reports the branch if that is not in
the code.  Entering a repeat that has no range is reported instead.  If some label in use is not
bound, the first instruction that names such a label is reported by the builder. -/
theorem labels_lead_to_their_bindings {encoding : Encoding} {calls : List Call}
    (succeed : ∀ index : Nat, calls[index]? = some .build →
      ∃ program, ((new encoding).afterCalls (calls.take index)).build.1 = .ok program)
    (few : (Call.lines encoding calls).length < 2 ^ 31) :
    let builder := (new encoding).afterCalls calls
    let draft := Draft.ofCalls encoding calls
    (draft.Settled → ∃ program, builder.build.1 = .ok program ∧
      program.code.size = draft.lines.length ∧
      ∀ (address : Nat) (line : Draft.Line), draft.lines[address]? = some line →
        (line.label = none → program.code[address]? = some line.instruction) ∧
        ∀ label, line.label = some label → ∃ target, draft.bound label = some target ∧
          program.code[address]? = some (line.instruction.withTarget address target) ∧
          (-2 ^ 31 ≤ (target : Int) - address ∧ (target : Int) - address < 2 ^ 31) ∧
          ∀ (setting : Setting) (search : Search), setting.program = program →
            search.point.address = address →
            search.step setting = (search.work setting).bind fun worked =>
              (worked.note setting (.dispatched search.point search.store.depth)).carryOut setting
                ((line.instruction.unknownRepeat? program).elim
                  (if target < program.code.size then
                    .toward setting.toAttempt search.point target line.instruction
                  else .corrupt .addressOutOfRange)
                  fun id => .corrupt (.invalidRepeat id))) ∧
    (¬ draft.Settled → ∃ address, draft.OpenAt address ∧
      (∀ earlier < address, ¬ draft.OpenAt earlier) ∧
      builder.build.1 = .error (.corrupt address .addressOutOfRange)) := by
  intro builder draft
  have holds : builder.Holds encoding draft := holds_ofCalls succeed
  have within : draft.Within (Call.lines encoding calls).length := Draft.within_ofCalls _ _
  constructor
  · intro settled
    obtain ⟨program, built, size, code⟩ := holds.build_ok settled
    refine ⟨program, built, size, fun address line read => ⟨fun unlabelled => ?_, ?_⟩⟩
    · have instruction := code address line read
      rw [unlabelled] at instruction
      exact instruction
    · intro label named
      obtain ⟨target, isBound⟩ := settled line (List.mem_of_getElem? read) label named
      have instruction := code address line read
      rw [named, Option.bind_some, isBound] at instruction
      refine ⟨target, isBound, instruction, ?_, ?_⟩
      · have near := within.bound label target isBound
        obtain ⟨inside, _⟩ := List.getElem?_eq_some_iff.1 read
        have short := within.lines
        omega
      · rintro setting search rfl rfl
        have targeted := line.targeted (by rw [named]; rfl)
        rw [Search.step_of_fetched instruction]
        simp only [Plan.ofInstruction_withTarget _ _ _ targeted]
  · intro unsettled
    have isOpen : ∃ address, draft.OpenAt address := by
      by_contra closed
      exact unsettled (Draft.settled_of_not_openAt (not_exists.1 closed))
    classical
    refine ⟨Nat.find isOpen, Nat.find_spec isOpen, fun earlier => Nat.find_min isOpen, ?_⟩
    exact holds.build_error (Nat.find_spec isOpen) fun earlier => Nat.find_min isOpen

/-- The second program of a builder calls a label that the first one, which was longer, has left
behind its end, and jumps to one that was left at its start. -/
theorem labels_lead_to_their_bindings_of_second_program :
    let calls : List Call :=
      [.newLabel, .newLabel, .bind ⟨0⟩, .emit .fail, .emit .fail, .bind ⟨1⟩, .build, .call ⟨1⟩,
        .jump ⟨0⟩]
    ∃ program, ((new .utf8).afterCalls calls).build.1 = .ok program ∧ program.code.size = 2 ∧
      program.code[0]? = some (.call 2) ∧ program.code[1]? = some (.jump (-1)) ∧
      ∀ (setting : Setting) (search : Search), setting.program = program →
        search.point.address = 0 →
        search.step setting = (search.work setting).bind fun worked =>
          (worked.note setting (.dispatched search.point search.store.depth)).carryOut setting
            (.corrupt .addressOutOfRange) := by
  intro calls
  have succeed : ∀ index : Nat, calls[index]? = some .build →
      ∃ program, ((new .utf8).afterCalls (calls.take index)).build.1 = .ok program := by
    intro index isBuild
    rcases index with _ | _ | _ | _ | _ | _ | _ | _ | _ | index
    case succ.succ.succ.succ.succ.succ.zero => exact ⟨_, rfl⟩
    all_goals cases isBuild
  have settled : (Draft.ofCalls .utf8 calls).Settled := by
    intro line mem label named
    rcases List.mem_cons.1 mem with rfl | mem
    · cases named
      exact ⟨2, rfl⟩
    · obtain rfl := List.mem_singleton.1 mem
      cases named
      exact ⟨0, rfl⟩
  obtain ⟨program, built, size, code⟩ :=
    (labels_lead_to_their_bindings succeed (show 4 < 2 ^ 31 by decide)).1 settled
  obtain ⟨stale, isBound, call, _, executed⟩ := (code 0 _ rfl).2 ⟨1⟩ rfl
  obtain ⟨start, isBound', jump, _, _⟩ := (code 1 _ rfl).2 ⟨0⟩ rfl
  obtain rfl : 2 = stale := Option.some.inj isBound
  obtain rfl : 0 = start := Option.some.inj isBound'
  refine ⟨program, built, size, call, jump, fun setting search runs stands => ?_⟩
  have outside : ¬ 2 < program.code.size := by
    rw [size]
    decide
  have dispatched := executed setting search runs stands
  simp only [Instruction.unknownRepeat?, if_neg outside] at dispatched
  exact dispatched

/-- The repeat that is entered here has no range, and its label is bound to the end of the code.
The run reports the repeat and not the branch. -/
theorem repeat_without_range_hides_its_label :
    let calls : List Call := [.newLabel, .repeatStart 0 ⟨0⟩ true, .bind ⟨0⟩]
    ∃ program, ((new .utf8).afterCalls calls).build.1 = .ok program ∧
      (Draft.ofCalls .utf8 calls).bound ⟨0⟩ = some program.code.size ∧
      ∃ report after,
        (Engine.new program).run? 1 (.whole ⟨#[97]⟩) = some (report, after) ∧
          report.outcome = .stopped (.corrupt 0 (.invalidRepeat 0)) ∧
          report.outcome ≠ .stopped (.corrupt 0 .addressOutOfRange) := by
  refine ⟨_, rfl, rfl, _, _, rfl, rfl, ?_⟩
  intro same
  cases same

end Builder

end PatternMachine
