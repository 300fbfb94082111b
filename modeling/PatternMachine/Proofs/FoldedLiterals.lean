import PatternMachine.Engine
import PatternMachine.Proofs.Boundaries.Text
import PatternMachine.Proofs.Expression.Leaf
import PatternMachine.Proofs.Labels
import PatternMachine.Proofs.Recoding

/-!
# Literals that are folded ahead

A literal that ignores case may be folded when it is appended to a program, or in each run that
comes to it.  Instructions for one byte, one character and several characters take part in this, and
not all of them remember the character before the cursor in the same way.  In a text that encodes
characters they agree, because each of them consumes what the list of folded characters consumes.
So it makes no difference to any run of a program whether a literal in it is folded ahead.
-/

namespace PatternMachine

/-! ### Instructions -/

namespace Instruction

/-- Whether an instruction is what another one becomes when a literal is folded ahead. -/
inductive FoldsTo (encoding : Encoding) : Instruction → Instruction → Prop
  | other (instruction : Instruction) : FoldsTo encoding instruction instruction
  | literal (bytes : ByteArray) :
      FoldsTo encoding (.literal bytes) (Builder.foldedInstruction encoding bytes)

theorem literal_cases (bytes : ByteArray) :
    (∃ value, literal bytes = .byte value) ∨ literal bytes = .bytes bytes := by
  unfold literal
  split
  · exact .inl ⟨_, rfl⟩
  · exact .inr rfl

theorem foldedInstruction_cases (encoding : Encoding) (bytes : ByteArray) :
    (∃ code, Builder.foldedInstruction encoding bytes = .foldedChar code) ∨
      ∃ codes, Builder.foldedInstruction encoding bytes = .foldedChars codes := by
  unfold Builder.foldedInstruction
  split
  · exact .inl ⟨_, rfl⟩
  · exact .inr ⟨_, rfl⟩

variable {encoding : Encoding} {instruction folded : Instruction}

/-- What changes when a literal is folded ahead has no target, and is not the way back of a loop. -/
theorem FoldsTo.eq_or (folds : instruction.FoldsTo encoding folded) :
    folded = instruction ∨
      (instruction.hasTarget = false ∧ folded.hasTarget = false) ∧
        instruction.isLoopBack = false ∧ folded.isLoopBack = false := by
  cases folds with
  | other => exact .inl rfl
  | literal bytes =>
      rcases literal_cases bytes with ⟨_, plain⟩ | plain <;>
        rcases foldedInstruction_cases encoding bytes with ⟨_, ahead⟩ | ⟨_, ahead⟩ <;>
        rw [plain, ahead] <;> exact .inr ⟨⟨rfl, rfl⟩, rfl, rfl⟩

theorem FoldsTo.withTarget (folds : instruction.FoldsTo encoding folded) (address target : Nat) :
    (instruction.withTarget address target).FoldsTo encoding
      (folded.withTarget address target) := by
  rcases folds.eq_or with rfl | ⟨⟨plain, ahead⟩, -⟩
  · exact .other _
  · rwa [withTarget_of_not_hasTarget address target plain,
      withTarget_of_not_hasTarget address target ahead]

theorem FoldsTo.isLoopBack_eq (folds : instruction.FoldsTo encoding folded) :
    folded.isLoopBack = instruction.isLoopBack := by
  rcases folds.eq_or with rfl | ⟨-, plain, ahead⟩
  · rfl
  · rw [plain, ahead]

end Instruction

/-! ### Code -/

/-- Whether code is what other code becomes when literals in it are folded ahead. -/
structure FoldedAhead (encoding : Encoding) (plain ahead : Array Instruction) : Prop where
  size : ahead.size = plain.size
  each : ∀ (address : Nat) (inside : address < plain.size) (inside' : address < ahead.size),
    plain[address].FoldsTo encoding ahead[address]

namespace FoldedAhead

variable {encoding : Encoding} {plain ahead : Array Instruction}

theorem refl (encoding : Encoding) (code : Array Instruction) : FoldedAhead encoding code code :=
  ⟨rfl, fun _ _ _ => .other _⟩

theorem push (foldedAhead : FoldedAhead encoding plain ahead) {instruction folded : Instruction}
    (folds : instruction.FoldsTo encoding folded) :
    FoldedAhead encoding (plain.push instruction) (ahead.push folded) where
  size := by rw [Array.size_push, Array.size_push, foldedAhead.size]
  each := by
    intro address inside inside'
    rw [Array.getElem_push, Array.getElem_push]
    by_cases earlier : address < plain.size
    · rw [dif_pos earlier, dif_pos (foldedAhead.size ▸ earlier)]
      exact foldedAhead.each address earlier _
    · rw [dif_neg earlier, dif_neg (foldedAhead.size ▸ earlier)]
      exact folds

theorem withTarget (foldedAhead : FoldedAhead encoding plain ahead) (use : LabelUse)
    (target : Nat) :
    FoldedAhead encoding (plain.modify use.address (·.withTarget use.address target))
      (ahead.modify use.address (·.withTarget use.address target)) where
  size := by rw [Array.size_modify, Array.size_modify, foldedAhead.size]
  each := by
    intro address inside inside'
    rw [Array.size_modify] at inside inside'
    rw [Array.getElem_modify, Array.getElem_modify]
    have folds := foldedAhead.each address inside inside'
    split
    · exact folds.withTarget _ _
    · exact folds

/-- Code with literals that are folded ahead has an instruction where the other code has one. -/
theorem getElem?_cases (foldedAhead : FoldedAhead encoding plain ahead) (address : Nat) :
    (plain[address]? = none ∧ ahead[address]? = none) ∨
      ∃ instruction folded, plain[address]? = some instruction ∧ ahead[address]? = some folded ∧
        instruction.FoldsTo encoding folded := by
  by_cases inside : address < plain.size
  · have inside' : address < ahead.size := foldedAhead.size ▸ inside
    exact .inr ⟨_, _, Array.getElem?_eq_getElem inside, Array.getElem?_eq_getElem inside',
      foldedAhead.each address inside inside'⟩
  · exact .inl ⟨Array.getElem?_eq_none (Nat.le_of_not_lt inside),
      Array.getElem?_eq_none (Nat.le_of_not_lt (foldedAhead.size ▸ inside))⟩

theorem isLoopBack_eq (foldedAhead : FoldedAhead encoding plain ahead) (address : Nat) :
    ahead[address]?.map Instruction.isLoopBack = plain[address]?.map Instruction.isLoopBack := by
  rcases foldedAhead.getElem?_cases address with ⟨noPlain, noAhead⟩ |
    ⟨instruction, folded, isPlain, isAhead, folds⟩
  · rw [noPlain, noAhead]
  · rw [isPlain, isAhead, Option.map_some, Option.map_some, folds.isLoopBack_eq]

end FoldedAhead

/-! ### Builders -/

namespace Builder

/-- The builder with other code. -/
def withCode (builder : Builder) (code : Array Instruction) : Builder :=
  { builder with code }

/-- Whether a builder is what another one becomes when literals are folded ahead. -/
inductive FoldsTo : Builder → Builder → Prop
  | of_code {builder : Builder} {code : Array Instruction}
      (foldedAhead : FoldedAhead builder.encoding builder.code code) :
      FoldsTo builder (builder.withCode code)

theorem emit_withCode (builder : Builder) (code : Array Instruction)
    {instruction folded : Instruction} (folds : instruction.FoldsTo builder.encoding folded) :
    (builder.withCode code).emit folded =
      (builder.emit instruction).withCode (code.push folded) := by
  cases folds with
  | other => rfl
  | literal bytes =>
      rcases Instruction.literal_cases bytes with ⟨_, plain⟩ | plain <;>
        rcases Instruction.foldedInstruction_cases builder.encoding bytes with
          ⟨_, ahead⟩ | ⟨_, ahead⟩ <;>
        rw [plain, ahead] <;> rfl

/-- Labels are resolved in both codes alike, or the same one of them is not bound. -/
theorem resolve_all_foldedAhead (builder : Builder) {encoding : Encoding}
    {plain ahead : Array Instruction} (foldedAhead : FoldedAhead encoding plain ahead)
    (uses : List LabelUse) :
    (∃ failure, uses.foldlM builder.resolve plain = .error failure ∧
        uses.foldlM builder.resolve ahead = .error failure) ∨
      ∃ plain' ahead', uses.foldlM builder.resolve plain = .ok plain' ∧
        uses.foldlM builder.resolve ahead = .ok ahead' ∧ FoldedAhead encoding plain' ahead' := by
  induction uses generalizing plain ahead with
  | nil => exact .inr ⟨plain, ahead, rfl, rfl, foldedAhead⟩
  | cons use uses ih =>
      simp only [List.foldlM_cons, resolve]
      cases builder.address? use.label with
      | none => exact .inl ⟨_, rfl, rfl⟩
      | some target => exact ih (foldedAhead.withTarget use target)

namespace FoldsTo

variable {plain ahead : Builder}

theorem append (foldsTo : plain.FoldsTo ahead) {line line' : Draft.Line}
    (sameLabel : line'.label = line.label)
    (folds : line.instruction.FoldsTo plain.encoding line'.instruction) :
    (plain.append line).FoldsTo (ahead.append line') := by
  cases foldsTo with
  | @of_code code foldedAhead =>
      unfold Builder.append
      rw [sameLabel]
      cases line.label with
      | none =>
          dsimp only
          rw [emit_withCode plain code folds]
          exact .of_code (foldedAhead.push folds)
      | some label =>
          -- The use of the label is noted at the same address.
          have noted := emit_withCode
            { plain with uses := plain.uses.push ⟨plain.code.size, label⟩ } code folds
          dsimp only [emitTo, withCode] at noted ⊢
          rw [foldedAhead.size, noted]
          exact .of_code (foldedAhead.push folds)

theorem bind (foldsTo : plain.FoldsTo ahead) (label : Label) :
    (plain.bind label).FoldsTo (ahead.bind label) := by
  cases foldsTo with
  | of_code foldedAhead =>
      dsimp only [Builder.bind, withCode]
      rw [foldedAhead.size]
      exact .of_code foldedAhead

/-- Both builders report the same label, or build programs that differ in literals that are folded
ahead.  They go on with the same code, which is none. -/
theorem build (foldsTo : plain.FoldsTo ahead) :
    plain.build.2.FoldsTo ahead.build.2 ∧
      ((∃ failure, plain.build.1 = .error failure ∧ ahead.build.1 = .error failure) ∨
        ∃ program code, plain.build.1 = .ok program ∧
          ahead.build.1 = .ok (program.withCode code) ∧
          FoldedAhead program.encoding program.code code) := by
  cases foldsTo with
  | @of_code code foldedAhead =>
      have same : ∀ code', (plain.withCode code).uses.foldlM (plain.withCode code).resolve code' =
          plain.uses.toList.foldlM plain.resolve code' := by
        intro code'
        rw [← Array.foldlM_toList]
        rfl
      unfold Builder.build
      rw [← Array.foldlM_toList, same, show (plain.withCode code).code = code from rfl]
      rcases plain.resolve_all_foldedAhead foldedAhead plain.uses.toList with
        ⟨failure, isPlain, isAhead⟩ | ⟨plain', ahead', isPlain, isAhead, foldedAhead'⟩
      · rw [isPlain, isAhead]
        exact ⟨.of_code (.refl _ #[]), .inl ⟨failure, rfl, rfl⟩⟩
      · rw [isPlain, isAhead]
        exact ⟨.of_code (.refl _ #[]), .inr ⟨_, ahead', rfl, rfl, foldedAhead'⟩⟩

theorem encoding_eq (foldsTo : plain.FoldsTo ahead) : ahead.encoding = plain.encoding := by
  cases foldsTo
  rfl

/-- No call tells whether literals were folded ahead. -/
theorem after (foldsTo : plain.FoldsTo ahead) (call : Call) :
    (plain.after call).FoldsTo (ahead.after call) := by
  cases appends : call.line? plain.encoding with
  | some line =>
      rw [after_eq_append appends, after_eq_append (foldsTo.encoding_eq ▸ appends)]
      exact foldsTo.append rfl (.other _)
  | none =>
      cases call with
      | bind label => exact foldsTo.bind label
      | build => exact foldsTo.build.1
      | setOptions | setGroups | addRepeat | addEmptyCheck | addTemplate | addClass | newLabel =>
          cases foldsTo with
          | of_code foldedAhead => exact .of_code foldedAhead
      | _ => cases appends

theorem afterCalls (foldsTo : plain.FoldsTo ahead) (calls : List Call) :
    (plain.afterCalls calls).FoldsTo (ahead.afterCalls calls) := by
  induction calls generalizing plain ahead with
  | nil => exact foldsTo
  | cons call calls ih => exact ih (foldsTo.after call)

end FoldsTo

/-- A builder stays with its encoding. -/
theorem encoding_afterCalls (builder : Builder) (calls : List Call) :
    (builder.afterCalls calls).encoding = builder.encoding := by
  refine afterCalls_induction (motive := (·.encoding = builder.encoding)) rfl ?_ calls
  intro later call same
  rw [← same]
  cases call with
  | foldedLiteral bytes =>
      dsimp only [Builder.after, foldedLiteral]
      split <;> rfl
  | build =>
      dsimp only [Builder.after, Builder.build]
      split <;> rfl
  | _ => rfl

theorem encoding_build {builder : Builder} {program : Program}
    (built : builder.build.1 = .ok program) : program.encoding = builder.encoding := by
  unfold Builder.build at built
  split at built
  · cases built
    rfl
  · cases built

/-- A literal is folded ahead, and everything around it stays. -/
theorem foldsTo_of_calls (encoding : Encoding) (bytes : ByteArray) (before later : List Call) :
    ((new encoding).afterCalls (before ++ .literal bytes :: later)).FoldsTo
      ((new encoding).afterCalls (before ++ .foldedLiteral bytes :: later)) := by
  rw [afterCalls, List.foldl_append, List.foldl_cons, afterCalls, List.foldl_append,
    List.foldl_cons]
  refine FoldsTo.afterCalls ?_ later
  have start : ((new encoding).afterCalls before).FoldsTo ((new encoding).afterCalls before) :=
    .of_code (.refl _ _)
  rw [afterCalls] at start
  rw [after_eq_append rfl, after_eq_append rfl]
  exact start.append rfl (.literal bytes)

end Builder

/-! ### Dispatches -/

namespace Plan

variable {attempt : Attempt}

theorem oneChar_eq_consumed (point : Point) (code : Nat) :
    oneChar attempt point (fun found => attempt.text.encoding.fold found == code) =
      .consumed point.next
        ((attempt.text.matchCodes? point.cursor.position attempt.range [code]).map
          (⟨·, point.cursor.position⟩)) := by
  simp only [oneChar, Text.matchCodes?, beq_iff_eq]
  cases attempt.text.charAt? point.cursor.position attempt.range with
  | none => rfl
  | some character =>
      dsimp only
      split <;> rfl

/-- In a text that encodes characters, the start of one character that was consumed is found
again. -/
theorem foldedChars_eq_consumed (wellFormed : attempt.text.WellFormed) (point : Point)
    (code : Nat) :
    foldedChars attempt point [code] =
      .consumed point.next
        ((attempt.text.matchCodes? point.cursor.position attempt.range [code]).map
          (⟨·, point.cursor.position⟩)) := by
  simp only [foldedChars, Text.matchCodes?]
  cases found : attempt.text.charAt? point.cursor.position attempt.range with
  | none => rfl
  | some character =>
      obtain ⟨-, rfl⟩ := Text.charAt?_eq_some_iff.1 found
      have back := (wellFormed.unbroken point.cursor.position _).lastHead (.refl _ _)
        (Nat.le_refl _) point.cursor.previous
      dsimp only
      split
      · rw [Option.map_some, Option.map_some, Text.cursorBehind, back]
      · rfl

/-- A literal that was folded ahead consumes what the list of its folded characters consumes. -/
theorem ofInstruction_foldedInstruction (wellFormed : attempt.text.WellFormed) (point : Point)
    (store : Store) (bytes : ByteArray) :
    ofInstruction attempt point store
        (Builder.foldedInstruction attempt.program.encoding bytes) =
      foldedChars attempt point
        (Subject.foldedCodes ⟨bytes, attempt.program.encoding⟩ 0) := by
  unfold Builder.foldedInstruction
  split
  · next code isCode =>
      rw [show Subject.foldedCodes ⟨bytes, attempt.program.encoding⟩ 0 = [code] from isCode,
        foldedChars_eq_consumed wellFormed]
      exact oneChar_eq_consumed point code
  · rfl

/-- So does a literal that is folded in the run. -/
theorem ofInstruction_literal (ignores : attempt.ignoresCase = true)
    (wellFormed : attempt.text.WellFormed) (point : Point) (store : Store) (bytes : ByteArray) :
    ofInstruction attempt point store (.literal bytes) =
      foldedChars attempt point
        (Subject.foldedCodes ⟨bytes, attempt.program.encoding⟩ 0) := by
  have folded := @Subject.literalStop?_of_ignoresCase attempt.subject ignores bytes
    point.cursor.position
  unfold Instruction.literal
  split
  · next single =>
    have byte : Text.byte ⟨bytes, attempt.program.encoding⟩ 0 = bytes[0] :=
      Text.byte_of_lt (by rw [single]; exact Nat.one_pos)
    have alone := @Text.foldedCodes_of_size_eq_one ⟨bytes, attempt.program.encoding⟩ single
    simp only [ofInstruction, literalByte]
    rw [attempt.matchByte?_literal point.cursor.position single byte, folded,
      show attempt.subject.text.encoding = attempt.program.encoding from rfl, alone,
      foldedChars_eq_consumed wellFormed]
    rfl
  · simp only [ofInstruction, literal]
    rw [attempt.matchExcerpt?_whole bytes point.cursor.position attempt.input.range_le_size, folded]
    rfl

end Plan

namespace Attempt

variable {attempt : Attempt} {ahead : Array Instruction}

/-- A dispatch makes the same moves, whether literals are folded ahead or in the run. -/
theorem moves_withCode (ignores : attempt.ignoresCase = true)
    (wellFormed : attempt.text.WellFormed)
    (foldedAhead : FoldedAhead attempt.program.encoding attempt.program.code ahead) (point : Point)
    (store : Store) : (attempt.withCode ahead).moves point store = attempt.moves point store := by
  unfold moves
  rw [show (attempt.withCode ahead).program.code = ahead from rfl]
  rcases foldedAhead.getElem?_cases point.address with ⟨noPlain, noAhead⟩ |
    ⟨instruction, folded, isPlain, isAhead, folds⟩
  · rw [noPlain, noAhead]
  · rw [isPlain, isAhead]
    have same : Plan.ofInstruction (attempt.withCode ahead) point store folded =
        Plan.ofInstruction attempt point store instruction := by
      rw [Plan.ofInstruction_withCode foldedAhead.size point store folded
        fun _ _ _ => foldedAhead.isLoopBack_eq point.next]
      cases folds with
      | other => rfl
      | literal bytes =>
          rw [Plan.ofInstruction_foldedInstruction wellFormed,
            Plan.ofInstruction_literal ignores wellFormed]
    dsimp only
    rw [same]
    rfl

end Attempt

/-! ### Runs -/

namespace Search

variable {setting : Setting} {ahead : Array Instruction}
  (ignores : setting.ignoresCase = true) (wellFormed : setting.text.WellFormed)
  (foldedAhead : FoldedAhead setting.program.encoding setting.program.code ahead)

include ignores wellFormed foldedAhead

theorem step_withCode (search : Search) :
    search.step (setting.withCode ahead) = search.step setting := by
  rw [step_eq_play, step_eq_play,
    show (setting.withCode ahead).moves search.point search.store =
      setting.moves search.point search.store from
        Attempt.moves_withCode ignores wellFormed foldedAhead _ _]
  rfl

theorem run?_withCode (dispatches : Nat) (search : Search) :
    run? (setting.withCode ahead) dispatches search = run? setting dispatches search := by
  induction dispatches generalizing search with
  | zero => rfl
  | succ dispatches ih => simp only [run?, step_withCode ignores wellFormed foldedAhead, ih]

end Search

/-- A program runs alike on every input, whether its literals are folded ahead or in the run. -/
theorem Engine.filled_withCode {program : Program} {config : MatchConfig} {input : Input}
    {ahead : Array Instruction} (ignores : (withConfig program config).options.ignoreCase = true)
    (encodes : program.encoding.Encodes input.bytes)
    (foldedAhead : FoldedAhead program.encoding program.code ahead) (dispatches : Nat)
    (region : Region) (monitor : Monitor) :
    ((withConfig (program.withCode ahead) config).runWithMonitor? dispatches input region
        monitor).map Prod.fst =
      ((withConfig program config).runWithMonitor? dispatches input region monitor).map
        Prod.fst := by
  let setting := (withConfig program config).setting input monitor
  have opening : (withConfig (program.withCode ahead) config).openingEvent input =
      (withConfig program config).openingEvent input :=
    congrArg (Event.started input.start input.range input.bytes.size) foldedAhead.size
  have ran : Search.run? (setting.withCode ahead) dispatches
      (.start setting (withConfig program config).store) = _ :=
    @Search.run?_withCode setting ahead ignores encodes.wellFormed foldedAhead dispatches _
  simp only [runWithMonitor?, exec?, Option.map_map, opening]
  exact congrArg _ ran

namespace Builder

/-- It makes no difference whether a literal that ignores case is folded ahead or in the run.  Calls
around it are the same, and may use labels as they like.  Then the same label is reported, or both
programs are built and give the same reports, with whatever limits, on every input that encodes
characters, as long as case is ignored. -/
theorem folding_ahead_is_folding_in_runs (encoding : Encoding) (bytes : ByteArray)
    (before later : List Call) :
    let plain := ((new encoding).afterCalls (before ++ .literal bytes :: later)).build.1
    let ahead := ((new encoding).afterCalls (before ++ .foldedLiteral bytes :: later)).build.1
    (∃ failure, plain = .error failure ∧ ahead = .error failure) ∨
      ∃ program program', plain = .ok program ∧ ahead = .ok program' ∧
        ∀ config, (Engine.withConfig program config).options.ignoreCase = true →
          ∀ input : Input, encoding.Encodes input.bytes → ∀ dispatches region monitor,
            ((Engine.withConfig program' config).runWithMonitor? dispatches input region
                monitor).map Prod.fst =
              ((Engine.withConfig program config).runWithMonitor? dispatches input region
                monitor).map Prod.fst := by
  intro plain ahead
  rcases (foldsTo_of_calls encoding bytes before later).build.2 with
    failed | ⟨program, code, isPlain, isAhead, foldedAhead⟩
  · exact .inl failed
  · refine .inr ⟨program, _, isPlain, isAhead, fun config ignores input encodes dispatches region
      monitor => ?_⟩
    have same := encoding_build isPlain
    rw [encoding_afterCalls] at same
    exact Engine.filled_withCode ignores (by rw [same]; exact encodes) foldedAhead dispatches region
      monitor

/-- The Kelvin sign has three bytes, and is found where one byte is the letter that it folds to.
Here it is optional, so that its instruction is branched over. -/
theorem folding_ahead_is_folding_in_runs_of_kelvin_sign :
    let bytes := "\u212a".toUTF8
    let before : List Call := [.newLabel, .push ⟨0⟩]
    let later : List Call := [.bind ⟨0⟩, .emit .accept]
    let config : MatchConfig := ⟨.unlimited, { ignoreCase := true }⟩
    let outcome := fun (program : Program) =>
      ((Engine.withConfig program config).runWithMonitor? 3 (.whole "k".toUTF8) .empty .patient).map
        fun answer => answer.1.outcome
    ∃ program program',
      ((new .utf8).afterCalls (before ++ .literal bytes :: later)).build.1 = .ok program ∧
      ((new .utf8).afterCalls (before ++ .foldedLiteral bytes :: later)).build.1 = .ok program' ∧
      program.code = #[.push 2, .bytes bytes, .accept] ∧
      program'.code = #[.push 2, .foldedChar 107, .accept] ∧
      outcome program = some (.matched ⟨#[some 0], #[some 1]⟩) ∧
      outcome program' = some (.matched ⟨#[some 0], #[some 1]⟩) := by
  intro bytes before later config outcome
  have code : ((new .utf8).afterCalls (before ++ .literal bytes :: later)).build.1.toOption.map
      (fun program => (program.code, outcome program)) =
        some (#[.push 2, .bytes bytes, .accept], some (.matched ⟨#[some 0], #[some 1]⟩)) := by
    decide +kernel
  have code' : ((new .utf8).afterCalls
      (before ++ .foldedLiteral bytes :: later)).build.1.toOption.map Program.code =
        some #[.push 2, .foldedChar 107, .accept] := by
    decide +kernel
  rcases folding_ahead_is_folding_in_runs .utf8 bytes before later with
    ⟨failure, isPlain, -⟩ | ⟨program, program', isPlain, isAhead, same⟩
  · rw [isPlain] at code
    cases code
  · rw [isPlain] at code
    rw [isAhead] at code'
    have matched : outcome program = some (.matched ⟨#[some 0], #[some 1]⟩) :=
      congrArg Prod.snd (Option.some.inj code)
    have filled := same config (Bool.or_true _) (.whole "k".toUTF8) ⟨"k", rfl⟩ 3 .empty .patient
    refine ⟨program, program', isPlain, isAhead, congrArg Prod.fst (Option.some.inj code),
      Option.some.inj code', matched, ?_⟩
    have outcomes := congrArg (Option.map fun report => report.toReport.outcome) filled
    rw [Option.map_map, Option.map_map] at outcomes
    exact outcomes.trans matched

end Builder

end PatternMachine
