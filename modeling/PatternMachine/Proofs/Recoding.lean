import PatternMachine.Proofs.References
import PatternMachine.Proofs.Stage

/-!
# Programs with other code

Other code in a program leaves everything else that it declares.  An instruction does the same in
other code that is as long, but for the end of an empty iteration: there it matters whether the way
back of a loop comes next.
-/

namespace PatternMachine

/-- The program with other code. -/
def Program.withCode (program : Program) (code : Array Instruction) : Program :=
  { program with code }

/-- The attempt to match with other code. -/
def Attempt.withCode (attempt : Attempt) (code : Array Instruction) : Attempt :=
  { attempt with program := attempt.program.withCode code }

/-- The setting of a run of other code. -/
def Setting.withCode (setting : Setting) (code : Array Instruction) : Setting :=
  { setting with program := setting.program.withCode code }

theorem Setting.Free.withCode {setting : Setting} (free : setting.Free)
    (code : Array Instruction) : (setting.withCode code).Free :=
  ⟨free.unlimited, free.permitted⟩

/-- The attempt with other code, and with other options where these do not concern instructions:
those of the program by itself, whether to report, and whether to look for the longest candidate. -/
def Attempt.recode (attempt : Attempt) (code : Array Instruction) (own : Options)
    (trace findLongest : Bool) : Attempt :=
  { attempt with
    program := { attempt.program with code, options := own }
    options := { attempt.options with trace, findLongest } }

namespace Plan

variable {attempt : Attempt} {code : Array Instruction}
  (size : code.size = attempt.program.code.size)

include size

/-- All that an instruction looks at in the code is how long that is, and, if it ends an iteration,
whether the way back of a loop comes next. -/
theorem ofInstruction_recode (own : Options) (trace findLongest : Bool) (point : Point)
    (store : Store) (instruction : Instruction)
    (loopBacks : ∀ id watched, instruction = .emptyCheckEnd id watched →
      code[point.next]?.map Instruction.isLoopBack =
        attempt.program.code[point.next]?.map Instruction.isLoopBack) :
    ofInstruction (attempt.recode code own trace findLongest) point store instruction =
      ofInstruction attempt point store instruction := by
  have branches : ∀ offset plan, branch (attempt.recode code own trace findLongest) point offset
      plan = branch attempt point offset plan := by
    intro offset plan
    simp only [branch, Program.target?, Attempt.recode, size]
  cases instruction with
  | jump offset | push offset | lookNotStart offset => exact branches offset _
  | pushOrJump offset next | pushIfNext offset next => exact branches offset _
  | lookBehindNotStart offset length => exact branches offset _
  | repeatStart id offset greedy =>
      simp only [ofInstruction, repeatStart, branches]
      rfl
  | emptyCheckEnd id watched =>
      simp only [ofInstruction, emptyCheckEnd, Attempt.recode, loopBacks id watched rfl]
  | call target => simp only [ofInstruction, call, Attempt.recode, size]
  | backReference reference =>
      have same := @BackReference.repeat?_congr attempt (attempt.recode code own trace findLongest)
        store store rfl (fun _ => rfl) (fun _ => rfl) rfl (fun _ _ => rfl) point.cursor.position
        reference
      simp only [ofInstruction, backReference, same]
      rfl
  | assert assertion => cases assertion <;> rfl
  | _ => rfl

theorem ofInstruction_withCode (point : Point) (store : Store) (instruction : Instruction)
    (loopBacks : ∀ id watched, instruction = .emptyCheckEnd id watched →
      code[point.next]?.map Instruction.isLoopBack =
        attempt.program.code[point.next]?.map Instruction.isLoopBack) :
    ofInstruction (attempt.withCode code) point store instruction =
      ofInstruction attempt point store instruction :=
  ofInstruction_recode size attempt.program.options attempt.options.trace
    attempt.options.findLongest point store instruction loopBacks

omit size in
/-- The end of an iteration does the same in other code, or it is an empty one and no way back of a
loop comes next. -/
theorem emptyCheckEnd_withCode_or {replaced : Instruction} {point : Point}
    (next : attempt.program.code[point.next]? = some replaced) (noLoop : replaced.isLoopBack = false)
    (store : Store) (id : Nat) (watched : Option (List Nat)) :
    emptyCheckEnd (attempt.withCode code) point store id watched =
        emptyCheckEnd attempt point store id watched ∨
      (emptyCheckEnd attempt point store id watched).exit = .corrupt .noLoopBack := by
  unfold emptyCheckEnd
  rw [show (attempt.withCode code).program.emptyCheckCount = attempt.program.emptyCheckCount from rfl,
    next, Option.map_some, noLoop]
  split
  · split
    · exact .inl rfl
    · split
      · exact .inr rfl
      · exact .inl rfl
  · exact .inl rfl

end Plan

end PatternMachine
