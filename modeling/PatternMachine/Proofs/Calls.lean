import PatternMachine.Program.Builder

/-!
# Programs that were assembled by calls

The calls of a builder are data here, so that a program assembled by any sequence of them can be
spoken of.  What every call keeps holds of every builder (`Builder.afterCalls_induction`).  The
first use of this is that a program knows which of its groups are logged.
-/

namespace PatternMachine

namespace Builder

/-- A call of a builder. -/
inductive Call where
  | setOptions (options : Options)
  | setGroups (groupCount : Nat)
  | addRepeat (range : RepeatRange)
  | addEmptyCheck
  | addTemplate (literal : ByteArray)
  | addClass (charClass : CharClass)
  | newLabel
  | bind (label : Label)
  | emit (instruction : Instruction)
  | literal (bytes : ByteArray)
  | foldedLiteral (bytes : ByteArray)
  | jump (label : Label)
  | push (label : Label)
  | pushOrJump (label : Label) (next : UInt8)
  | pushIfNext (label : Label) (next : UInt8)
  | repeatStart (id : Nat) (exit : Label) (greedy : Bool)
  | lookNotStart (label : Label)
  | lookBehindNotStart (label : Label) (length : Nat)
  | call (label : Label)
  | build

/-- What a call makes of a builder. -/
def after (builder : Builder) : Call → Builder
  | .setOptions options => builder.setOptions options
  | .setGroups groupCount => builder.setGroups groupCount
  | .addRepeat range => (builder.addRepeat range).2
  | .addEmptyCheck => builder.addEmptyCheck.2
  | .addTemplate literal => (builder.addTemplate literal).2
  | .addClass charClass => (builder.addClass charClass).2
  | .newLabel => builder.newLabel.2
  | .bind label => builder.bind label
  | .emit instruction => builder.emit instruction
  | .literal bytes => builder.literal bytes
  | .foldedLiteral bytes => builder.foldedLiteral bytes
  | .jump label => builder.jump label
  | .push label => builder.push label
  | .pushOrJump label next => builder.pushOrJump label next
  | .pushIfNext label next => builder.pushIfNext label next
  | .repeatStart id exit greedy => builder.repeatStart id exit greedy
  | .lookNotStart label => builder.lookNotStart label
  | .lookBehindNotStart label length => builder.lookBehindNotStart label length
  | .call label => builder.call label
  | .build => builder.build.2

/-- What a sequence of calls makes of a builder. -/
def afterCalls (builder : Builder) (calls : List Call) : Builder :=
  calls.foldl after builder

theorem afterCalls_induction {motive : Builder → Prop} {builder : Builder} (start : motive builder)
    (keeps : ∀ builder call, motive builder → motive (builder.after call)) (calls : List Call) :
    motive (builder.afterCalls calls) := by
  induction calls generalizing builder with
  | nil => exact start
  | cons call calls ih => exact ih (keeps builder call start)

end Builder

/-! ### Instructions without targets -/

namespace Instruction

theorem hasTarget_withTarget (instruction : Instruction) (address target : Nat) :
    (instruction.withTarget address target).hasTarget = instruction.hasTarget := by
  cases instruction <;> rfl

/-- An instruction without a target is what it was before it was given one. -/
theorem eq_of_withTarget {instruction other : Instruction} {address target : Nat}
    (plain : other.hasTarget = false)
    (same : instruction.withTarget address target = other) : instruction = other := by
  rw [← same, hasTarget_withTarget] at plain
  rw [← same, withTarget_of_not_hasTarget address target plain]

end Instruction

namespace Builder

variable {builder : Builder}

theorem getElem?_resolve {code resolved : Array Instruction} {use : LabelUse}
    (done : builder.resolve code use = .ok resolved) {address : Nat} {instruction : Instruction}
    (plain : instruction.hasTarget = false) (read : resolved[address]? = some instruction) :
    code[address]? = some instruction := by
  unfold resolve at done
  split at done
  · cases done
    rw [Array.getElem?_modify] at read
    split at read
    · obtain ⟨original, readOriginal, same⟩ := Option.map_eq_some_iff.1 read
      rw [readOriginal, Instruction.eq_of_withTarget plain same]
    · exact read
  · cases done

theorem getElem?_resolve_all {uses : List LabelUse} {code resolved : Array Instruction}
    (done : uses.foldlM builder.resolve code = .ok resolved) {address : Nat}
    {instruction : Instruction} (plain : instruction.hasTarget = false)
    (read : resolved[address]? = some instruction) : code[address]? = some instruction := by
  induction uses generalizing code with
  | nil =>
      cases done
      exact read
  | cons use uses ih =>
      rw [List.foldlM_cons] at done
      cases first : builder.resolve code use with
      | error failure =>
          rw [first] at done
          cases done
      | ok middle =>
          rw [first] at done
          exact getElem?_resolve first plain (ih done)

end Builder

/-! ### Logged groups -/

namespace GroupMask

/-- A set keeps its members when one is added. -/
theorem contains_insert {mask : GroupMask} {group : Nat} (added : Nat)
    (member : mask.contains group = true) : (mask.insert added).contains group = true := by
  unfold insert
  split
  · exact member
  · simp only [contains, BitVec.getLsbD_or] at member ⊢
    rw [member, Bool.true_or]

end GroupMask

/-- Whether openings or closings of a group are logged. -/
def Program.logs (program : Program) (group : Nat) : Bool :=
  program.loggedStarts.contains group || program.loggedEnds.contains group

/-- Whether a program knows which of its groups are opened or closed by logged instructions. -/
def Program.KnowsLogged (program : Program) : Prop :=
  ∀ address group : Nat, group ≠ 0 →
    program.code[address]? = some (.openGroup group true) ∨
      program.code[address]? = some (.closeGroup group true) → program.logs group = true

namespace Builder

variable {builder : Builder}

/-- Whether a builder knows which of its groups are opened or closed by logged instructions. -/
def KnowsLogged (builder : Builder) : Prop :=
  ∀ address group : Nat, group ≠ 0 →
    builder.code[address]? = some (.openGroup group true) ∨
      builder.code[address]? = some (.closeGroup group true) →
    (builder.loggedStarts.contains group || builder.loggedEnds.contains group) = true

namespace KnowsLogged

theorem emit (knows : builder.KnowsLogged) (instruction : Instruction) :
    (builder.emit instruction).KnowsLogged := by
  have starts : ∀ group, builder.loggedStarts.contains group = true →
      (builder.emit instruction).loggedStarts.contains group = true := by
    intro group member
    unfold Builder.emit
    dsimp only
    split
    · exact GroupMask.contains_insert _ member
    · exact member
  have ends : ∀ group, builder.loggedEnds.contains group = true →
      (builder.emit instruction).loggedEnds.contains group = true := by
    intro group member
    unfold Builder.emit
    dsimp only
    split
    · exact GroupMask.contains_insert _ member
    · exact member
  intro address group positive used
  have code : (builder.emit instruction).code = builder.code.push instruction := rfl
  rw [code, Array.getElem?_push] at used
  rw [Bool.or_eq_true]
  split at used
  · rcases used with used | used
    · cases used
      exact .inl (GroupMask.contains_insert_self _ positive)
    · cases used
      exact .inr (GroupMask.contains_insert_self _ positive)
  · rcases Bool.or_eq_true_iff.1 (knows address group positive used) with member | member
    · exact .inl (starts group member)
    · exact .inr (ends group member)

theorem emitTo (knows : builder.KnowsLogged) (instruction : Instruction) (label : Label) :
    (builder.emitTo instruction label).KnowsLogged := by
  have knows' : { builder with
      uses := builder.uses.push ⟨builder.code.size, label⟩ : Builder }.KnowsLogged := knows
  exact knows'.emit instruction

theorem of_no_code (noCode : builder.code = #[]) : builder.KnowsLogged := by
  intro address group _ used
  rw [noCode] at used
  rcases used with used | used <;> cases used

theorem build (builder : Builder) : builder.build.2.KnowsLogged := by
  apply of_no_code
  unfold Builder.build
  split <;> rfl

theorem after (knows : builder.KnowsLogged) (call : Call) : (builder.after call).KnowsLogged := by
  cases call with
  | emit instruction => exact knows.emit instruction
  | literal bytes => exact knows.emit (.literal bytes)
  | foldedLiteral bytes =>
      simp only [Builder.after, Builder.foldedLiteral]
      split <;> exact knows.emit _
  | jump label | push label | pushOrJump label next | pushIfNext label next
  | repeatStart id exit greedy | lookNotStart label | lookBehindNotStart label length
  | call label => exact knows.emitTo _ _
  | build => exact build builder
  | _ => exact knows

end KnowsLogged

/-- Building keeps the instructions without targets, and what is known of logged groups. -/
theorem KnowsLogged.program (knows : builder.KnowsLogged) {program : Program}
    (built : builder.build.1 = .ok program) : program.KnowsLogged := by
  unfold Builder.build at built
  split at built
  · next code done =>
      rw [← Array.foldlM_toList] at done
      cases built
      intro address group positive used
      apply knows address group positive
      rcases used with used | used
      · exact .inl (getElem?_resolve_all done rfl used)
      · exact .inr (getElem?_resolve_all done rfl used)
  · cases built

/-- Every program that was assembled by calls knows which of its groups are logged. -/
theorem knowsLogged_of_calls {encoding : Encoding} {calls : List Call} {program : Program}
    (built : ((new encoding).afterCalls calls).build.1 = .ok program) : program.KnowsLogged := by
  have knows : ((new encoding).afterCalls calls).KnowsLogged :=
    afterCalls_induction (KnowsLogged.of_no_code rfl) (fun _ call knows => knows.after call) calls
  exact knows.program built

end Builder

end PatternMachine
