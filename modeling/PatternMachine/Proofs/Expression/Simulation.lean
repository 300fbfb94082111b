import PatternMachine.Proofs.Expression.Leaf

/-!
# The code of an expression comes to its exit once for each way to match

The search and the semantics are compared construct by construct: each theorem takes what the parts
do and says what the whole does.  All of them speak of a search that stands where a match has come
to (`Meets`) and of code that is laid out as it is assembled.
-/

namespace PatternMachine

open Stage

/-- A search stands where a match has come to. -/
structure Meets (attempt : Attempt) (cursor : Cursor) (store : Store) (standing : Standing) :
    Prop where
  position : cursor.position = standing.position
  captures : store.captures = standing.captures
  within : standing.position ≤ attempt.range
  grounded : store.Grounded
  slots : store.registers.groups.size = attempt.program.regionSize

/-- Wherever a search meets a match, the code from `start` on enumerates the ways in which an
expression can match from there. -/
def Simulates (attempt : Attempt) (expression : Expression) (start stop first last : Nat) : Prop :=
  ∀ cursor store standing, Meets attempt cursor store standing →
    Enumerates attempt stop store first last (.dispatching ⟨start, cursor⟩ store)
      (expression.successes attempt.subject standing)

variable {attempt : Attempt} {cursor : Cursor} {store : Store} {standing : Standing}

namespace Meets

/-- When a part has matched, the search meets the match again. -/
theorem of_success {expression : Expression} {cursor' : Cursor} {store' : Store}
    {standing' : Standing} {first last : Nat} (meets : Meets attempt cursor store standing)
    (mem : standing' ∈ expression.successes attempt.subject standing)
    (position : cursor'.position = standing'.position)
    (captures : store'.captures = standing'.captures)
    (growth : Store.Grown first last store store') :
    Meets attempt cursor' store' standing' where
  position := position
  captures := captures
  within := (Expression.successes_bounds expression meets.within mem).2
  grounded := growth.grounded
  slots := growth.groupSlots.trans meets.slots

/-- A frame that saves nothing does not matter to where a search stands. -/
theorem push (meets : Meets attempt cursor store standing) (frame : Frame) :
    Meets attempt cursor (store.push frame) standing where
  position := meets.position
  captures := (Store.captures_push meets.grounded frame).trans meets.captures
  within := meets.within
  grounded := meets.grounded.push frame
  slots := meets.slots

/-- A group of an expression has a register. -/
theorem inside {group : Nat} (meets : Meets attempt cursor store standing)
    (declared : 1 ≤ group ∧ group ≤ attempt.program.groupCount) :
    group < store.registers.groups.size := by
  rw [meets.slots]
  exact Nat.lt_succ_of_le declared.2

end Meets

/-! ### What the instructions between the parts do -/

section

variable (attempt cursor store) {address target : Nat} (inside : target < attempt.program.code.size)

include inside

theorem plan_jump :
    Plan.ofInstruction attempt ⟨address, cursor⟩ store (.jump (target - address)) =
      .goto target cursor := by
  simp only [Plan.ofInstruction, Plan.branch, Program.target?_of_sub inside]

theorem plan_push :
    Plan.ofInstruction attempt ⟨address, cursor⟩ store (.push (target - address)) =
      .goto (address + 1) cursor [.push (.choice ⟨target, cursor⟩)] := by
  simp only [Plan.ofInstruction, Plan.branch, Program.target?_of_sub inside]
  rfl

theorem plan_lookNotStart :
    Plan.ofInstruction attempt ⟨address, cursor⟩ store (.lookNotStart (target - address)) =
      .goto (address + 1) cursor [.push (.lookNot ⟨target, cursor⟩)] := by
  simp only [Plan.ofInstruction, Plan.branch, Program.target?_of_sub inside]
  rfl

end

theorem hasGroup_of_declared {program : Program} {group : Nat}
    (declared : 1 ≤ group ∧ group ≤ program.groupCount) : program.hasGroup group = true := by
  simp only [Program.hasGroup, Bool.and_eq_true, bne_iff_ne, decide_eq_true_eq]
  exact ⟨Nat.ne_of_gt declared.1, declared.2⟩

/-! ### Construct by construct -/

namespace Simulates

variable {start middle stop first split last : Nat} {body left right : Expression}

theorem sequence (before : Simulates attempt left start middle first split)
    (after : Simulates attempt right middle stop split last) (lower : first ≤ split)
    (higher : split ≤ last) :
    Simulates attempt (.sequence left right) start stop first last := by
  intro cursor store standing meets
  apply (before cursor store standing meets).bind (Nat.le_refl first) higher
  intro standing' mem cursor' store' position captures growth
  have meets' := meets.of_success mem position captures growth
  exact (after cursor' store' standing' meets').mono lower (Nat.le_refl last)

theorem choice
    (opening : attempt.program.code[start]? = some (.push ((middle + 1 : Nat) - start)))
    (preferred : Simulates attempt left (start + 1) middle first split)
    (jumping : attempt.program.code[middle]? = some (.jump (stop - middle)))
    (other : Simulates attempt right (middle + 1) stop split last) (lower : first ≤ split)
    (higher : split ≤ last) (alternative : middle + 1 < attempt.program.code.size)
    (exit : stop < attempt.program.code.size) :
    Simulates attempt (.choice left right) start stop first last := by
  intro cursor store standing meets
  have growth : Store.Grown first last store (store.push (.choice ⟨middle + 1, cursor⟩)) :=
    .push meets.grounded (.of_isResumable rfl) rfl
  rw [Expression.successes]
  apply Enumerates.of_reaches (Reaches.goto opening (plan_push attempt cursor store alternative))
  apply Enumerates.append growth
  · apply Enumerates.mono (Nat.le_refl first) higher
    rw [← List.map_id (left.successes attempt.subject standing)]
    apply (preferred cursor _ standing (meets.push _)).map
    intro standing' _ cursor' store' position captures growth
    apply Enumerates.of_reaches (Reaches.goto jumping (plan_jump attempt cursor' store' exit))
    exact Enumerates.single position captures (.refl growth.grounded) rfl
  · apply Enumerates.of_reaches (Reaches.resume rfl store)
    exact (other cursor store standing meets).mono lower (Nat.le_refl last)

theorem capture {group : Nat} (declared : 1 ≤ group ∧ group ≤ attempt.program.groupCount)
    (opening : attempt.program.code[start]? = some (.openGroup group true))
    (inner : Simulates attempt body (start + 1) middle first last)
    (closing : attempt.program.code[middle]? = some (.closeGroup group true)) :
    Simulates attempt (.capture group body) start (middle + 1) first last := by
  intro cursor store standing meets
  have known := hasGroup_of_declared declared
  have inside := meets.inside declared
  have opened : Plan.ofInstruction attempt ⟨start, cursor⟩ store (.openGroup group true) =
      .goto (start + 1) cursor [.openGroup group cursor.position] := by
    simp only [Plan.ofInstruction, Plan.openGroup, known, if_true]
    rfl
  have growth : Store.Grown first last store (store.openGroup group cursor.position) :=
    .openGroup meets.grounded cursor.position inside
  have meets' : Meets attempt cursor (store.openGroup group cursor.position)
      (standing.openGroup group) := by
    refine ⟨meets.position, ?_, meets.within, growth.grounded, growth.groupSlots.trans meets.slots⟩
    rw [Store.captures_openGroup meets.grounded cursor.position inside, meets.captures,
      meets.position]
    rfl
  rw [Expression.successes]
  apply Enumerates.of_reaches (Reaches.goto opening opened)
  apply Enumerates.rebase growth (Store.backtrack_of_stack_eq_push rfl growth rfl)
  apply (inner cursor _ (standing.openGroup group) meets').map
  intro standing' mem cursor' store' position captures growth'
  have meets'' := meets'.of_success mem position captures growth'
  have inside' := meets''.inside declared
  have closed : Plan.ofInstruction attempt ⟨middle, cursor'⟩ store' (.closeGroup group true) =
      .goto (middle + 1) cursor' [.closeGroup group cursor'.position] := by
    simp only [Plan.ofInstruction, Plan.closeGroup, known, if_true]
    rfl
  have growth'' : Store.Grown first last store' (store'.closeGroup group cursor'.position) :=
    .closeGroup growth'.grounded cursor'.position inside'
  have captures' : (store'.closeGroup group cursor'.position).captures =
      (standing'.closeGroup group).captures := by
    rw [Store.captures_closeGroup growth'.grounded cursor'.position inside', captures, position]
    rfl
  apply Enumerates.of_reaches (Reaches.goto closing closed)
  exact Enumerates.single position captures' growth''
    (Store.backtrack_of_stack_eq_push rfl growth'' rfl)

/-- A bracket that gives up the choices inside leaves the first way through its body, if there is
one. -/
theorem first_of_bracket {mark : Mark} {frame : Frame} {standings : List Standing}
    {next : Standing → Standing} {stage : Stage} (isMark : frame.isMark mark = true)
    (other : mark ≠ .emptyCheck) (silent : frame.isResumable = false)
    (ways : Enumerates attempt middle (store.push frame) first last stage standings)
    (closes : ∀ cursor' store' standing', cursor'.position = standing'.position →
      Store.Grown first last (store.push frame) store' →
      ∃ cursor'', cursor''.position = (next standing').position ∧
        Reaches attempt (.dispatching ⟨middle, cursor'⟩ store')
          (.dispatching ⟨stop, cursor''⟩ (store'.commit mark).2))
    (keeps : ∀ standing', (next standing').captures = standing'.captures) :
    Enumerates attempt stop store first last stage ((standings.take 1).map next) := by
  cases ways with
  | done reaches same =>
      exact .done reaches (same.trans (store.backtrack_push (.of_isMark isMark) silent))
  | @found _ cursor' store' standing' others reaches position captures growth further =>
      obtain ⟨cursor'', position', closed⟩ := closes cursor' store' standing' position growth
      have captures' : (store'.commit mark).2.captures = (next standing').captures := by
        rw [Store.captures_commit (growth.lastIndex? isMark other), captures, keeps]
      apply Enumerates.of_reaches (reaches.trans closed)
      exact Enumerates.single position' captures' (growth.commit isMark other)
        (growth.backtrack_commit isMark other)

theorem look (opening : attempt.program.code[start]? = some .lookStart)
    (inner : Simulates attempt body (start + 1) middle first last)
    (closing : attempt.program.code[middle]? = some .lookEnd) :
    Simulates attempt (.look body) start (middle + 1) first last := by
  intro cursor store standing meets
  have isMark : Frame.isMark .look (.look cursor) = true := rfl
  have opened : Plan.ofInstruction attempt ⟨start, cursor⟩ store .lookStart =
      .goto (start + 1) cursor [.push (.look cursor)] := rfl
  rw [Expression.successes]
  apply Enumerates.of_reaches (Reaches.goto opening opened)
  apply first_of_bracket isMark Mark.noConfusion rfl
    (inner cursor _ standing (meets.push (.look cursor)))
  · intro cursor' store' standing' _ growth
    have found := Stack.lookCursor?_eq_some (growth.lastIndex? isMark Mark.noConfusion)
      (growth.get?_depth_of_isMark isMark)
    have closed : Plan.ofInstruction attempt ⟨middle, cursor'⟩ store' .lookEnd =
        .goto (middle + 1) cursor [.commit .look] := by
      simp only [Plan.ofInstruction, Plan.lookEnd, found]
      rfl
    exact ⟨cursor, meets.position, Reaches.goto closing closed⟩
  · exact fun _ => rfl

theorem atomic (opening : attempt.program.code[start]? = some .atomicStart)
    (inner : Simulates attempt body (start + 1) middle first last)
    (closing : attempt.program.code[middle]? = some .atomicEnd) :
    Simulates attempt (.atomic body) start (middle + 1) first last := by
  intro cursor store standing meets
  have isMark : Frame.isMark .atomic .atomic = true := rfl
  have opened : Plan.ofInstruction attempt ⟨start, cursor⟩ store .atomicStart =
      .goto (start + 1) cursor [.push .atomic] := rfl
  rw [Expression.successes, ← List.map_id (List.take 1 _)]
  apply Enumerates.of_reaches (Reaches.goto opening opened)
  apply first_of_bracket isMark Mark.noConfusion rfl
    (inner cursor _ standing (meets.push .atomic))
  · intro cursor' store' standing' position growth
    have found : store'.stack.hasMark .atomic = true := by
      rw [Stack.hasMark, growth.lastIndex? isMark Mark.noConfusion]
      rfl
    have closed : Plan.ofInstruction attempt ⟨middle, cursor'⟩ store' .atomicEnd =
        .goto (middle + 1) cursor' [.commit .atomic] := by
      simp only [Plan.ofInstruction, Plan.atomicEnd, found, if_true]
      rfl
    exact ⟨cursor', position, Reaches.goto closing closed⟩
  · exact fun _ => rfl

/-- A negative lookahead goes on where it started as soon as its body fails; a success of the body
makes it fail itself. -/
theorem lookNot (opening : attempt.program.code[start]? =
      some (.lookNotStart ((middle + 1 : Nat) - start)))
    (inner : Simulates attempt body (start + 1) middle first last)
    (closing : attempt.program.code[middle]? = some .lookNotFail)
    (exit : middle + 1 < attempt.program.code.size) :
    Simulates attempt (.lookNot body) start (middle + 1) first last := by
  intro cursor store standing meets
  have isMark : Frame.isMark .lookNot (.lookNot ⟨middle + 1, cursor⟩) = true := rfl
  have opened := Reaches.goto opening (plan_lookNotStart attempt cursor store exit)
  have ways := inner cursor _ standing (meets.push (.lookNot ⟨middle + 1, cursor⟩))
  rw [Expression.successes]
  apply Enumerates.of_reaches opened
  generalize body.successes attempt.subject standing = standings at ways
  cases ways with
  | done reaches same =>
      apply Enumerates.of_reaches reaches
      apply Enumerates.of_backtrack same
      apply Enumerates.of_reaches (Reaches.resume rfl store)
      exact Enumerates.single meets.position meets.captures (.refl meets.grounded) rfl
  | @found _ cursor' store' standing' others reaches position captures growth further =>
      have unwound := growth.unwindTo isMark Mark.noConfusion
      have found : store'.stack.hasMark .lookNot = true := by
        rw [Stack.hasMark, growth.lastIndex? isMark Mark.noConfusion]
        rfl
      have closed : Plan.ofInstruction attempt ⟨middle, cursor'⟩ store' .lookNotFail =
          ⟨[.unwindTo .lookNot], .fail⟩ := by
        simp only [Plan.ofInstruction, Plan.excluded, found, if_true]
      have fails := reaches.trans (Reaches.fail closing closed)
      apply Enumerates.done fails
      have undone : Effect.onStoreAll store' [.unwindTo .lookNot] = store :=
        congrArg Prod.snd unwound
      rw [undone]

/-- The end of an iteration steps over the way back if nothing was consumed, and takes it
otherwise. -/
theorem ends_iteration {id position : Nat} {base : Store}
    (ends : attempt.program.code[middle]? = some (.emptyCheckEnd id none))
    (back : attempt.program.code[middle + 1]? = some (.jump (start - (middle + 1 : Nat))))
    (known : id < attempt.program.emptyCheckCount) (top : start < attempt.program.code.size)
    (growth : Store.Grown (id + 1) last (base.push (.emptyCheck id position)) store) :
    Reaches attempt (.dispatching ⟨middle, cursor⟩ store)
      (.dispatching ⟨if cursor.position = position then middle + 1 + 1 else start, cursor⟩
        store) := by
  obtain ⟨found, read⟩ := growth.emptyCheck? (Nat.lt_succ_self id)
  have empty : Plan.iterationEmpty ⟨middle, cursor⟩ store base.depth none =
      (position == cursor.position) := by
    rw [Plan.iterationEmpty, read]
    exact Bool.and_true _
  by_cases stays : cursor.position = position
  · rw [if_pos stays]
    have isEmpty : (position == cursor.position) = true := beq_iff_eq.2 stays.symm
    have planned : Plan.ofInstruction attempt ⟨middle, cursor⟩ store (.emptyCheckEnd id none) =
        .goto (middle + 1 + 1) cursor [.note (.emptyIteration middle id cursor.position)] := by
      have loops : attempt.program.code[(⟨middle, cursor⟩ : Point).next]? =
          some (.jump (start - (middle + 1 : Nat))) := back
      simp only [Plan.ofInstruction, Plan.emptyCheckEnd, known, if_true, found, empty, isEmpty,
        loops]
      rfl
    exact Reaches.goto ends planned
  · rw [if_neg stays]
    have goesOn : (position == cursor.position) = false :=
      beq_eq_false_iff_ne.2 (Ne.symm stays)
    have planned : Plan.ofInstruction attempt ⟨middle, cursor⟩ store (.emptyCheckEnd id none) =
        .goto (middle + 1) cursor := by
      simp only [Plan.ofInstruction, Plan.emptyCheckEnd, known, if_true, found, empty, goesOn]
      rfl
    exact (Reaches.goto ends planned).trans
      (Reaches.goto back (plan_jump attempt cursor store top))

/-- Every iteration leaves the choice to stop in front of it, and goes on from each success of the
body that consumes something. -/
theorem star {id : Nat} (opening : attempt.program.code[start]? =
      some (.push ((middle + 1 + 1 : Nat) - start)))
    (begins : attempt.program.code[start + 1]? = some (.emptyCheckStart id))
    (inner : Simulates attempt body (start + 1 + 1) middle (id + 1) last) (own : id < last)
    (ends : attempt.program.code[middle]? = some (.emptyCheckEnd id none))
    (back : attempt.program.code[middle + 1]? = some (.jump (start - (middle + 1 : Nat))))
    (known : id < attempt.program.emptyCheckCount)
    (exit : middle + 1 + 1 < attempt.program.code.size) :
    Simulates attempt (.star body) start (middle + 1 + 1) id last := by
  have top : start < attempt.program.code.size := (Array.getElem?_eq_some_iff.1 opening).1
  intro cursor store standing meets
  -- An iteration that consumes something leaves less to consume.
  induction left : attempt.range - standing.position using Nat.strongRecOn
    generalizing cursor store standing with
  | ind left ih =>
      have chosen : Store.Grown id last store (store.push (.choice ⟨middle + 1 + 1, cursor⟩)) :=
        .push meets.grounded (.of_isResumable rfl) rfl
      have started : Store.Grown id last (store.push (.choice ⟨middle + 1 + 1, cursor⟩))
          ((store.push (.choice ⟨middle + 1 + 1, cursor⟩)).push
            (.emptyCheck id cursor.position)) :=
        .push chosen.grounded (fun _ => rfl) ⟨Nat.le_refl id, own⟩
      have begun : Plan.ofInstruction attempt ⟨start + 1, cursor⟩
          (store.push (.choice ⟨middle + 1 + 1, cursor⟩)) (.emptyCheckStart id) =
            .goto (start + 1 + 1) cursor [.push (.emptyCheck id cursor.position)] := by
        simp only [Plan.ofInstruction, Plan.emptyCheckStart, known, if_true]
        rfl
      rw [Expression.successes_star body meets.within]
      apply Enumerates.of_reaches (Reaches.goto opening (plan_push attempt cursor store exit))
      apply Enumerates.of_reaches (Reaches.goto begins begun)
      apply Enumerates.append chosen
      · apply Enumerates.rebase started (Store.backtrack_push _ (fun _ => rfl) rfl)
        apply (inner cursor _ standing ((meets.push _).push _)).bind (Nat.le_succ id)
          (Nat.le_refl last)
        intro standing' mem cursor' store' position captures growth
        apply Enumerates.of_reaches (ends_iteration ends back known top growth)
        rw [position, meets.position]
        split
        · exact Enumerates.single position captures (.refl growth.grounded) rfl
        · next moved =>
            have meets' := ((meets.push _).push _).of_success mem position captures growth
            have bounds : standing.position ≤ standing'.position ∧
                standing'.position ≤ attempt.range :=
              Expression.successes_bounds body meets.within mem
            exact ih _ (by omega) cursor' store' standing' meets' rfl
      · apply Enumerates.of_reaches (Reaches.resume rfl store)
        exact Enumerates.single meets.position meets.captures (.refl meets.grounded) rfl

end Simulates

/-- The code of an expression enumerates the ways in which it can match. -/
theorem simulates {expression : Expression} {start stop first last : Nat}
    (laidOut : expression.LaidOut (fun address => attempt.program.code[address]?) start stop first
      last)
    (valid : expression.Valid attempt.program.groupCount attempt.program.classes)
    (exit : stop < attempt.program.code.size)
    (known : last ≤ attempt.program.emptyCheckCount) :
    Simulates attempt expression start stop first last := by
  induction expression generalizing start stop first last with
  | literal bytes =>
      obtain ⟨fetched, rfl, rfl⟩ := laidOut
      intro cursor store standing meets
      exact enumerates_literal fetched meets.captures meets.grounded meets.position
  | charClass operand =>
      obtain ⟨fetched, rfl, rfl⟩ := laidOut
      obtain ⟨members, resolved⟩ := valid
      intro cursor store standing meets
      exact enumerates_charClass fetched resolved meets.captures meets.grounded meets.position
  | anyChar acrossLines =>
      obtain ⟨fetched, rfl, rfl⟩ := laidOut
      intro cursor store standing meets
      exact enumerates_anyChar fetched meets.captures meets.grounded meets.position
  | sequence left right leftIH rightIH =>
      obtain ⟨middle, split, atLeft, atRight⟩ := laidOut
      exact .sequence (leftIH atLeft valid.1 (Nat.lt_trans atRight.start_lt exit)
        (Nat.le_trans atRight.first_le known)) (rightIH atRight valid.2 exit known)
        atLeft.first_le atRight.first_le
  | choice left right leftIH rightIH =>
      obtain ⟨middle, split, opening, atLeft, jumping, atRight⟩ := laidOut
      have alternative := Nat.lt_trans atRight.start_lt exit
      exact .choice opening (leftIH atLeft valid.1 (Nat.lt_of_succ_lt alternative)
        (Nat.le_trans atRight.first_le known)) jumping (rightIH atRight valid.2 exit known)
        atLeft.first_le atRight.first_le alternative exit
  | capture group body ih =>
      obtain ⟨middle, opening, atBody, closing, rfl⟩ := laidOut
      exact .capture valid.1 opening (ih atBody valid.2 (Nat.lt_of_succ_lt exit) known) closing
  | star body ih =>
      obtain ⟨middle, opening, begins, atBody, ends, back, rfl⟩ := laidOut
      have inner := ih atBody valid (Nat.lt_of_succ_lt (Nat.lt_of_succ_lt exit)) known
      exact .star opening begins inner atBody.first_le ends back
        (Nat.lt_of_lt_of_le atBody.first_le known) exit
  | look body ih =>
      obtain ⟨middle, opening, atBody, closing, rfl⟩ := laidOut
      exact .look opening (ih atBody valid (Nat.lt_of_succ_lt exit) known) closing
  | lookNot body ih =>
      obtain ⟨middle, opening, atBody, closing, rfl⟩ := laidOut
      exact .lookNot opening (ih atBody valid (Nat.lt_of_succ_lt exit) known) closing exit
  | atomic body ih =>
      obtain ⟨middle, opening, atBody, closing, rfl⟩ := laidOut
      exact .atomic opening (ih atBody valid (Nat.lt_of_succ_lt exit) known) closing

end PatternMachine
