import PatternMachine.Proofs.Building
import PatternMachine.Proofs.Expression.Semantics

/-!
# Expressions as programs

An expression is assembled by the calls that a compiler would make.  `Expression.LaidOut` says where
its instructions stand then and what their targets are; it is read off code, so it says nothing of
builders and labels.  `Expression.Assembles.laidOut` brings the two together.
-/

namespace PatternMachine

namespace Expression

/-- Appends an expression. -/
def assemble : Expression → Builder → Builder
  | literal bytes, builder => builder.literal bytes
  | charClass operand, builder => builder.emit (.charClass operand)
  | anyChar acrossLines, builder => builder.emit (.anyChar acrossLines)
  | sequence first second, builder => second.assemble (first.assemble builder)
  | choice left right, builder =>
      let (alternative, builder) := builder.newLabel
      let (exit, builder) := builder.newLabel
      let builder := (left.assemble (builder.push alternative)).jump exit
      (right.assemble (builder.bind alternative)).bind exit
  | capture group body, builder =>
      (body.assemble (builder.emit (.openGroup group true))).emit (.closeGroup group true)
  | star body, builder =>
      let (id, builder) := builder.addEmptyCheck
      let (top, builder) := builder.newLabel
      let (exit, builder) := builder.newLabel
      let builder := ((builder.bind top).push exit).emit (.emptyCheckStart id)
      (((body.assemble builder).emit (.emptyCheckEnd id none)).jump top).bind exit
  | look body, builder => (body.assemble (builder.emit .lookStart)).emit .lookEnd
  | lookNot body, builder =>
      let (after, builder) := builder.newLabel
      ((body.assemble (builder.lookNotStart after)).emit .lookNotFail).bind after
  | atomic body, builder => (body.assemble (builder.emit .atomicStart)).emit .atomicEnd

/-- Whether the instructions of an expression stand from `start` up to `stop`, and its
empty-iteration checks are those from `first` up to `last`. -/
def LaidOut (code : Nat → Option Instruction) :
    Expression → (start stop first last : Nat) → Prop
  | literal bytes, start, stop, first, last =>
      code start = some (Instruction.literal bytes) ∧ stop = start + 1 ∧ last = first
  | charClass operand, start, stop, first, last =>
      code start = some (.charClass operand) ∧ stop = start + 1 ∧ last = first
  | anyChar acrossLines, start, stop, first, last =>
      code start = some (.anyChar acrossLines) ∧ stop = start + 1 ∧ last = first
  | sequence left right, start, stop, first, last =>
      ∃ middle split, left.LaidOut code start middle first split ∧
        right.LaidOut code middle stop split last
  | choice left right, start, stop, first, last =>
      ∃ middle split : Nat, code start = some (.push ((middle + 1 : Nat) - start)) ∧
        left.LaidOut code (start + 1) middle first split ∧
        code middle = some (.jump (stop - middle)) ∧
        right.LaidOut code (middle + 1) stop split last
  | capture group body, start, stop, first, last =>
      ∃ middle, code start = some (.openGroup group true) ∧
        body.LaidOut code (start + 1) middle first last ∧
        code middle = some (.closeGroup group true) ∧ stop = middle + 1
  | star body, start, stop, first, last =>
      ∃ middle : Nat, code start = some (.push (stop - start)) ∧
        code (start + 1) = some (.emptyCheckStart first) ∧
        body.LaidOut code (start + 1 + 1) middle (first + 1) last ∧
        code middle = some (.emptyCheckEnd first none) ∧
        code (middle + 1) = some (.jump (start - (middle + 1 : Nat))) ∧ stop = middle + 1 + 1
  | look body, start, stop, first, last =>
      ∃ middle, code start = some .lookStart ∧ body.LaidOut code (start + 1) middle first last ∧
        code middle = some .lookEnd ∧ stop = middle + 1
  | lookNot body, start, stop, first, last =>
      ∃ middle, code start = some (.lookNotStart (stop - start)) ∧
        body.LaidOut code (start + 1) middle first last ∧
        code middle = some .lookNotFail ∧ stop = middle + 1
  | atomic body, start, stop, first, last =>
      ∃ middle, code start = some .atomicStart ∧ body.LaidOut code (start + 1) middle first last ∧
        code middle = some .atomicEnd ∧ stop = middle + 1

theorem LaidOut.first_le {code : Nat → Option Instruction} {expression : Expression}
    {start stop first last : Nat} (laidOut : expression.LaidOut code start stop first last) :
    first ≤ last := by
  induction expression generalizing start stop first last with
  | literal | charClass | anyChar => exact Nat.le_of_eq laidOut.2.2.symm
  | sequence left right leftIH rightIH =>
      obtain ⟨_, _, atLeft, atRight⟩ := laidOut
      exact Nat.le_trans (leftIH atLeft) (rightIH atRight)
  | choice left right leftIH rightIH =>
      obtain ⟨_, _, _, atLeft, _, atRight⟩ := laidOut
      exact Nat.le_trans (leftIH atLeft) (rightIH atRight)
  | star body ih =>
      obtain ⟨_, _, _, atBody, _⟩ := laidOut
      exact Nat.le_of_succ_le (ih atBody)
  | capture group body ih | look body ih | lookNot body ih | atomic body ih =>
      obtain ⟨_, _, atBody, _⟩ := laidOut
      exact ih atBody

/-- Every expression has some code. -/
theorem LaidOut.start_lt {code : Nat → Option Instruction} {expression : Expression}
    {start stop first last : Nat} (laidOut : expression.LaidOut code start stop first last) :
    start < stop := by
  induction expression generalizing start stop first last with
  | literal | charClass | anyChar =>
      rw [laidOut.2.1]
      exact Nat.lt_succ_self start
  | sequence left right leftIH rightIH =>
      obtain ⟨_, _, atLeft, atRight⟩ := laidOut
      exact Nat.lt_trans (leftIH atLeft) (rightIH atRight)
  | choice left right leftIH rightIH =>
      obtain ⟨_, _, _, atLeft, _, atRight⟩ := laidOut
      have := leftIH atLeft
      have := rightIH atRight
      omega
  | star body ih =>
      obtain ⟨_, _, _, atBody, _, _, rfl⟩ := laidOut
      have := ih atBody
      omega
  | capture group body ih | look body ih | lookNot body ih | atomic body ih =>
      obtain ⟨_, _, atBody, _, rfl⟩ := laidOut
      have := ih atBody
      omega

/-- `later` is what has become of `earlier` by appending an expression. -/
structure Assembles (expression : Expression) (earlier later : Builder) : Prop where
  appends : Builder.Appends earlier later
  settled : ∀ use ∈ later.uses, use ∈ earlier.uses ∨
    ∃ target, later.address? use.label = some target
  laidOut : earlier.Placed → ∀ final, Builder.Extends later final →
    expression.LaidOut final.resolved earlier.code.size later.code.size
      earlier.emptyCheckCount later.emptyCheckCount

namespace Assembles

variable {earlier middle later : Builder} {body : Expression}

/-- A single instruction without a target is an expression's whole code. -/
theorem of_emit {expression : Expression} {instruction : Instruction}
    (laidOut : ∀ code start id, code start = some instruction →
      expression.LaidOut code start (start + 1) id id) :
    Assembles expression earlier (earlier.emit instruction) where
  appends := earlier.appends_emit instruction
  settled := fun use mem => .inl mem
  laidOut := by
    intro placed final growth
    rw [Builder.code_emit, Array.size_push]
    exact laidOut _ _ _ (Builder.resolved_emit placed growth)

theorem sequence {left right : Expression} (first : Assembles left earlier middle)
    (second : Assembles right middle later) : Assembles (.sequence left right) earlier later where
  appends := first.appends.trans second.appends
  settled := by
    intro use mem
    rcases second.settled use mem with mem | bound
    · rcases first.settled use mem with mem | ⟨target, bound⟩
      · exact .inl mem
      · exact .inr ⟨target, second.appends.bound _ _ bound⟩
    · exact .inr bound
  laidOut := by
    intro placed final growth
    exact ⟨_, _, first.laidOut placed final (second.appends.toExtends.trans growth),
      second.laidOut (first.appends.placed placed) final growth⟩

/-- A body between two instructions without targets. -/
theorem bracket {opening closing : Instruction} {expression : Expression}
    (assembled : Assembles body (earlier.emit opening) middle)
    (laidOut : ∀ code start stop first last, code start = some opening →
      body.LaidOut code (start + 1) stop first last → code stop = some closing →
      expression.LaidOut code start (stop + 1) first last) :
    Assembles expression earlier (middle.emit closing) where
  appends := ((earlier.appends_emit opening).trans assembled.appends).trans
    (middle.appends_emit closing)
  settled := assembled.settled
  laidOut := by
    intro placed final growth
    have growth' := (middle.appends_emit closing).toExtends.trans growth
    have placed' := (earlier.appends_emit opening).placed placed
    have inside := assembled.laidOut placed' final growth'
    rw [Builder.code_emit, Array.size_push] at inside
    rw [Builder.code_emit, Array.size_push]
    apply laidOut
    · exact Builder.resolved_emit placed (assembled.appends.toExtends.trans growth')
    · exact inside
    · exact Builder.resolved_emit (assembled.appends.placed placed') growth

/-- A body between an instruction that leads behind it and one without a target. -/
theorem lookNot (assembled : Assembles body
      (earlier.newLabel.2.lookNotStart earlier.newLabel.1) middle) :
    Assembles (.lookNot body) earlier
      ((middle.emit .lookNotFail).bind earlier.newLabel.1) := by
  have opened := earlier.newLabel.2.appends_emitTo (.lookNotStart 0) earlier.newLabel.1
  have closed := middle.appends_emit .lookNotFail
  have inside : earlier.newLabel.1.index < earlier.newLabel.2.labels.size := by
    rw [Builder.size_newLabel]
    exact Nat.lt_succ_self _
  have unbound : (middle.emit .lookNotFail).address? earlier.newLabel.1 = none :=
    ((opened.trans assembled.appends).trans closed).unbound inside
      earlier.address?_newLabel_self
  have bound : ((middle.emit .lookNotFail).bind earlier.newLabel.1).address? earlier.newLabel.1 =
      some (middle.code.size + 1) := by
    rw [Builder.address?_bind_self, Builder.code_emit, Array.size_push]
    exact Nat.lt_of_lt_of_le inside ((opened.trans assembled.appends).trans closed).labels
  have finished := closed.toExtends.trans (Builder.extends_bind unbound)
  constructor
  · apply Builder.Appends.bind _ (Nat.le_refl _) unbound
    exact ((earlier.appends_newLabel.trans opened).trans assembled.appends).trans closed
  · intro use mem
    rcases assembled.settled use mem with mem | ⟨target, isBound⟩
    · rcases Array.mem_push.1 mem with mem | rfl
      · exact .inl mem
      · exact .inr ⟨_, bound⟩
    · exact .inr ⟨target, finished.bound _ _ isBound⟩
  · intro placed final growth
    have placed' := opened.placed (earlier.appends_newLabel.placed placed)
    have growth' := finished.trans growth
    have inner := assembled.laidOut placed' final growth'
    have opening := Builder.resolved_emitTo (earlier.appends_newLabel.placed placed)
      (assembled.appends.toExtends.trans growth') (growth.bound _ _ bound)
    have closing := Builder.resolved_emit (assembled.appends.placed placed')
      ((Builder.extends_bind unbound).trans growth)
    rw [Builder.lookNotStart, Builder.code_emitTo, Array.size_push] at inner
    have size : ((middle.emit .lookNotFail).bind earlier.newLabel.1).code.size =
        middle.code.size + 1 := Array.size_push _
    rw [size]
    exact ⟨middle.code.size, opening, inner, closing, rfl⟩

/-- Two bodies, the first of which is behind a choice of the second and leads behind that. -/
theorem choice {left right : Expression} {labelled leftDone rightDone : Builder}
    {alternative exit : Label} (labels : Builder.Labelled earlier labelled alternative exit)
    (same : labelled.code = earlier.code ∧ labelled.uses = earlier.uses ∧
      labelled.emptyCheckCount = earlier.emptyCheckCount)
    (first : Assembles left (labelled.push alternative) leftDone)
    (second : Assembles right ((leftDone.jump exit).bind alternative) rightDone) :
    Assembles (.choice left right) earlier (rightDone.bind exit) := by
  obtain ⟨sameCode, sameUses, sameChecks⟩ := same
  have pushed : Builder.Appends labelled (labelled.push alternative) :=
    labelled.appends_emitTo (.push 0) alternative
  have jumped : Builder.Appends leftDone (leftDone.jump exit) :=
    leftDone.appends_emitTo (.jump 0) exit
  have toJump := (pushed.trans first.appends).trans jumped
  -- The alternative is bound between the two bodies.
  have alternativeInside := Nat.lt_of_lt_of_le labels.inside.1 toJump.labels
  have alternativeUnbound := toJump.unbound labels.inside.1 labels.unbound.1
  have atAlternative := Builder.address?_bind_self alternativeInside
  have toSecond := Builder.extends_bind alternativeUnbound
  have size : (leftDone.jump exit).code.size = leftDone.code.size + 1 := Array.size_push _
  rw [size] at atAlternative
  -- The exit is bound behind the second body.
  have exitInside : exit.index < ((leftDone.jump exit).bind alternative).labels.size := by
    rw [Builder.size_bind]
    exact Nat.lt_of_lt_of_le labels.inside.2 toJump.labels
  have exitUnbound : rightDone.address? exit = none := by
    apply second.appends.unbound exitInside
    rw [Builder.address?_bind_of_ne labels.apart]
    exact toJump.unbound labels.inside.2 labels.unbound.2
  have atExit := Builder.address?_bind_self
    (Nat.lt_of_lt_of_le exitInside second.appends.labels)
  have finished := Builder.extends_bind exitUnbound
  constructor
  · apply Builder.Appends.bind _ labels.made.2 exitUnbound
    apply Builder.Appends.trans _ second.appends
    exact Builder.Appends.bind (labels.appends.trans toJump) labels.made.1 alternativeUnbound
  · intro use mem
    rcases second.settled use mem with mem | ⟨target, isBound⟩
    · rcases Array.mem_push.1 mem with mem | rfl
      · rcases first.settled use mem with mem | ⟨target, isBound⟩
        · rcases Array.mem_push.1 mem with mem | rfl
          · exact .inl (sameUses ▸ mem)
          · exact .inr ⟨_, finished.bound _ _ (second.appends.bound _ _ atAlternative)⟩
        · refine .inr ⟨target, finished.bound _ _ (second.appends.bound _ _ ?_)⟩
          exact toSecond.bound _ _ (jumped.bound _ _ isBound)
      · exact .inr ⟨_, atExit⟩
    · exact .inr ⟨target, finished.bound _ _ isBound⟩
  · intro placed final growth
    have placed' := labels.appends.placed placed
    have fromSecond := finished.trans growth
    have fromJump := (toSecond.trans second.appends.toExtends).trans fromSecond
    have fromLeft := jumped.toExtends.trans fromJump
    have opening := Builder.resolved_emitTo placed' (first.appends.toExtends.trans fromLeft)
      (fromSecond.bound _ _ (second.appends.bound _ _ atAlternative))
    have inLeft := first.laidOut (pushed.placed placed') final fromLeft
    have jumping := Builder.resolved_emitTo (first.appends.placed (pushed.placed placed'))
      fromJump (growth.bound _ _ atExit)
    have inRight := second.laidOut (toJump.placed placed') final fromSecond
    have size' : (labelled.push alternative).code.size = earlier.code.size + 1 := by
      rw [Builder.push, Builder.code_emitTo, Array.size_push, sameCode]
    have checks : (labelled.push alternative).emptyCheckCount = earlier.emptyCheckCount :=
      sameChecks
    rw [size', checks] at inLeft
    rw [sameCode] at opening
    refine ⟨leftDone.code.size, leftDone.emptyCheckCount, opening, inLeft, jumping, ?_⟩
    rw [← size]
    exact inRight

/-- A body that is iterated under an empty-iteration check. -/
theorem star {labelled bodyDone : Builder} {top exit : Label}
    (labels : Builder.Labelled earlier.addEmptyCheck.2 labelled top exit)
    (same : labelled.code = earlier.code ∧ labelled.uses = earlier.uses ∧
      labelled.emptyCheckCount = earlier.emptyCheckCount + 1)
    (assembled : Assembles body
      (((labelled.bind top).push exit).emit (.emptyCheckStart earlier.emptyCheckCount)) bodyDone) :
    Assembles (.star body) earlier
      (((bodyDone.emit (.emptyCheckEnd earlier.emptyCheckCount none)).jump top).bind exit) := by
  obtain ⟨sameCode, sameUses, sameChecks⟩ := same
  have pushed : Builder.Appends (labelled.bind top) ((labelled.bind top).push exit) :=
    (labelled.bind top).appends_emitTo (.push 0) exit
  have started := ((labelled.bind top).push exit).appends_emit
    (.emptyCheckStart earlier.emptyCheckCount)
  have ended := bodyDone.appends_emit (.emptyCheckEnd earlier.emptyCheckCount none)
  have jumped : Builder.Appends (bodyDone.emit (.emptyCheckEnd earlier.emptyCheckCount none))
      ((bodyDone.emit (.emptyCheckEnd earlier.emptyCheckCount none)).jump top) :=
    Builder.appends_emitTo _ (.jump 0) top
  have toJump := (((pushed.trans started).trans assembled.appends).trans ended).trans jumped
  -- The top is bound in front of everything, the exit behind it.
  have atTop := Builder.address?_bind_self labels.inside.1
  rw [sameCode] at atTop
  have exitInside : exit.index < (labelled.bind top).labels.size := by
    rw [Builder.size_bind]
    exact labels.inside.2
  have exitUnbound := toJump.unbound exitInside
    ((Builder.address?_bind_of_ne labels.apart).trans labels.unbound.2)
  have atExit := Builder.address?_bind_self (Nat.lt_of_lt_of_le exitInside toJump.labels)
  have finished := Builder.extends_bind exitUnbound
  have size : ((bodyDone.emit (.emptyCheckEnd earlier.emptyCheckCount none)).jump top).code.size =
      bodyDone.code.size + 1 + 1 := by
    rw [Builder.jump, Builder.code_emitTo, Array.size_push, Builder.code_emit, Array.size_push]
  rw [size] at atExit
  have toTop := Builder.Appends.bind labels.appends labels.made.1 labels.unbound.1
  have toTop' := earlier.appends_addEmptyCheck.trans toTop
  constructor
  · apply Builder.Appends.bind (toTop'.trans toJump) _ exitUnbound
    exact Nat.le_trans earlier.appends_addEmptyCheck.labels labels.made.2
  · intro use mem
    rcases Array.mem_push.1 mem with mem | rfl
    · rcases assembled.settled use mem with mem | ⟨target, isBound⟩
      · rcases Array.mem_push.1 mem with mem | rfl
        · exact .inl (sameUses ▸ mem)
        · exact .inr ⟨_, atExit⟩
      · exact .inr ⟨target, finished.bound _ _ (jumped.bound _ _ (ended.bound _ _ isBound))⟩
    · exact .inr ⟨_, finished.bound _ _ (toJump.bound _ _ atTop)⟩
  · intro placed final growth
    have placed₁ := toTop'.placed placed
    have placed₂ := pushed.placed placed₁
    have placed₃ := started.placed placed₂
    have placed₄ := assembled.appends.placed placed₃
    have fromJump := finished.trans growth
    have fromEnd := jumped.toExtends.trans fromJump
    have fromBody := ended.toExtends.trans fromEnd
    have fromStart := assembled.appends.toExtends.trans fromBody
    have opening := Builder.resolved_emitTo placed₁ (started.toExtends.trans fromStart)
      (growth.bound _ _ atExit)
    have start := Builder.resolved_emit placed₂ fromStart
    have inBody := assembled.laidOut placed₃ final fromBody
    have stop := Builder.resolved_emit placed₄ fromEnd
    have back := Builder.resolved_emitTo (ended.placed placed₄) fromJump
      (fromJump.bound _ _ (toJump.bound _ _ atTop))
    have size₁ : (labelled.bind top).code.size = earlier.code.size := by
      rw [Builder.bind, sameCode]
    have size₂ : ((labelled.bind top).push exit).code.size = earlier.code.size + 1 := by
      rw [Builder.push, Builder.code_emitTo, Array.size_push, size₁]
    rw [size₁] at opening
    rw [size₂] at start
    rw [Builder.code_emit, Array.size_push, size₂] at inBody
    rw [Builder.code_emit, Array.size_push] at back
    have checks : (((labelled.bind top).push exit).emit
        (.emptyCheckStart earlier.emptyCheckCount)).emptyCheckCount =
          earlier.emptyCheckCount + 1 := sameChecks
    rw [checks] at inBody
    have size₃ : (((bodyDone.emit (.emptyCheckEnd earlier.emptyCheckCount none)).jump top).bind
        exit).code.size = bodyDone.code.size + 1 + 1 := size
    rw [size₃]
    exact ⟨bodyDone.code.size, opening, start, inBody, stop, back, rfl⟩

end Assembles

/-- Appending an expression lays its code out at the end. -/
theorem assembles (expression : Expression) (builder : Builder) :
    Assembles expression builder (expression.assemble builder) := by
  induction expression generalizing builder with
  | literal bytes => exact .of_emit fun _ _ _ placed => ⟨placed, rfl, rfl⟩
  | charClass operand => exact .of_emit fun _ _ _ placed => ⟨placed, rfl, rfl⟩
  | anyChar acrossLines => exact .of_emit fun _ _ _ placed => ⟨placed, rfl, rfl⟩
  | sequence first second firstIH secondIH => exact (firstIH builder).sequence (secondIH _)
  | choice left right leftIH rightIH =>
      exact .choice builder.labelled_newLabel ⟨rfl, rfl, rfl⟩ (leftIH _) (rightIH _)
  | capture group body ih =>
      apply Assembles.bracket (ih _)
      intro _ _ stop _ _ opening inside closing
      exact ⟨stop, opening, inside, closing, rfl⟩
  | star body ih =>
      exact .star builder.addEmptyCheck.2.labelled_newLabel ⟨rfl, rfl, rfl⟩ (ih _)
  | look body ih =>
      apply Assembles.bracket (ih _)
      intro _ _ stop _ _ opening inside closing
      exact ⟨stop, opening, inside, closing, rfl⟩
  | lookNot body ih => exact (ih _).lookNot
  | atomic body ih =>
      apply Assembles.bracket (ih _)
      intro _ _ stop _ _ opening inside closing
      exact ⟨stop, opening, inside, closing, rfl⟩

/-- The program of an expression: its code, and the end of a candidate behind it. -/
def finish (expression : Expression) (builder : Builder) : Builder :=
  (expression.assemble builder).emit .accept

/-- On a builder without code, every expression can be built.  Its code stands at the start, and the
end of a candidate is right behind it. -/
theorem finish_build (expression : Expression) {builder : Builder}
    (noCode : builder.code = #[]) (noUses : builder.uses = #[]) :
    ∃ program stop, (expression.finish builder).build.1 = .ok program ∧
      expression.LaidOut (fun address => program.code[address]?) 0 stop
        builder.emptyCheckCount program.emptyCheckCount ∧
      program.code[stop]? = some .accept ∧ program.groupCount = builder.groupCount ∧
      program.classes = builder.classes ∧ program.options = builder.options ∧
      program.encoding = builder.encoding := by
  have assembled := expression.assembles builder
  have ended := (expression.assemble builder).appends_emit .accept
  have placed : builder.Placed := by
    intro use mem
    rw [noUses] at mem
    exact absurd mem (Array.not_mem_empty use)
  have settled : (expression.finish builder).Settled := by
    intro use mem
    rcases assembled.settled use mem with mem | bound
    · rw [noUses] at mem
      exact absurd mem (Array.not_mem_empty use)
    · exact bound
  obtain ⟨code, resolved, built⟩ := Builder.build_ok settled
  have laidOut := assembled.laidOut placed (expression.finish builder) ended.toExtends
  have accept := Builder.resolved_emit (assembled.appends.placed placed)
    (Builder.Extends.refl (expression.finish builder))
  have sameCode : (fun address : Nat => code[address]?) = (expression.finish builder).resolved :=
    funext resolved
  rw [← sameCode, noCode] at laidOut
  refine ⟨_, (expression.assemble builder).code.size, built, laidOut, ?_,
    assembled.appends.declared⟩
  rw [← accept]
  exact resolved _

end Expression

end PatternMachine
