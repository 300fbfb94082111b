import PatternMachine.Proofs.Dispatch
import PatternMachine.Proofs.Recoding
import PatternMachine.Proofs.Trail

/-!
# The exhaustive search

The exhaustive search takes no candidate: where the program would accept it fails, and nothing
bounds it.  Every other search of the same attempt goes alongside it.  The two are at the same point
with the same store all the time, until the search is stopped, or ends with what it has found.
-/

namespace PatternMachine

/-- The instruction, or a failure in the place of the end of a candidate. -/
def Instruction.refusing : Instruction → Instruction
  | .accept => .fail
  | other => other

/-- The program that fails where it would accept.  Its own options are dropped, since an attempt
carries those in effect. -/
def Program.exhaustive (program : Program) : Program :=
  { program with code := program.code.map Instruction.refusing, options := .none }

/-- The attempt that fails where it would accept.  Whether it is to find the longest candidate does
not matter then. -/
def Attempt.exhaustive (attempt : Attempt) : Attempt :=
  { attempt with
    program := attempt.program.exhaustive
    options := { attempt.options with findLongest := false } }

/-- The same attempt, which fails where it would accept, with nothing to bound it. -/
def Setting.exhaustive (setting : Setting) : Setting where
  toAttempt := setting.toAttempt.exhaustive
  toLimits := .unlimited
  monitor := .patient

theorem Setting.exhaustive_free (setting : Setting) : setting.exhaustive.Free :=
  ⟨rfl, fun _ => rfl⟩

/-! ### The same moves -/

namespace Instruction

theorem isLoopBack_refusing (instruction : Instruction) :
    instruction.refusing.isLoopBack = instruction.isLoopBack := by
  cases instruction <;> rfl

theorem refusing_of_ne_accept {instruction : Instruction} (other : instruction ≠ .accept) :
    instruction.refusing = instruction := by
  cases instruction with
  | accept => exact absurd rfl other
  | _ => rfl

end Instruction

namespace Program

variable (program : Program)

theorem getElem?_exhaustive (address : Nat) :
    program.exhaustive.code[address]? = program.code[address]?.map Instruction.refusing :=
  Array.getElem?_map

end Program

namespace Attempt

variable (attempt : Attempt)

/-- The plan of an instruction does not depend on which instructions accept. -/
theorem ofInstruction_exhaustive (point : Point) (store : Store) (instruction : Instruction) :
    Plan.ofInstruction attempt.exhaustive point store instruction =
      Plan.ofInstruction attempt point store instruction := by
  refine Plan.ofInstruction_recode Array.size_map .none attempt.options.trace false point store
    instruction fun _ _ _ => ?_
  rw [Array.getElem?_map, Option.map_map]
  exact congrArg (Option.map · _) (funext Instruction.isLoopBack_refusing)

end Attempt

namespace Plan

variable {attempt : Attempt} {point : Point} {store : Store}

/-- Whether a plan is left in another way than at the end of a candidate. -/
def GoesOn (plan : Plan) : Prop :=
  plan.exit ≠ .accept

theorem goesOn_consumed (address : Nat) (cursor? : Option Cursor) :
    (consumed address cursor?).GoesOn := by
  cases cursor? <;> exact Exit.noConfusion

theorem goesOn_check (address : Nat) (cursor : Cursor) (holds : Bool) :
    (check address cursor holds).GoesOn := by
  cases holds <;> exact Exit.noConfusion

theorem goesOn_branch {offset : Int} {plan : Nat → Plan} (inside : ∀ target, (plan target).GoesOn) :
    (branch attempt point offset plan).GoesOn := by
  unfold branch
  split
  · exact inside _
  · exact Exit.noConfusion

theorem goesOn_afterIteration (range : RepeatRange) (count body : Nat) (greedy : Bool)
    (record : Effect) : (afterIteration point range count body greedy record).GoesOn := by
  unfold afterIteration
  split
  · exact Exit.noConfusion
  split
  · exact Exit.noConfusion
  split <;> exact Exit.noConfusion

theorem goesOn_repeatStart (id : Nat) (offset : Int) (greedy : Bool) :
    (repeatStart attempt point id offset greedy).GoesOn := by
  unfold repeatStart
  split
  · exact Exit.noConfusion
  · apply goesOn_branch
    intro target
    dsimp only
    split
    · split <;> exact Exit.noConfusion
    · exact Exit.noConfusion

theorem goesOn_repeatNext (id : Nat) (greedy direct : Bool) :
    (repeatNext attempt point store id greedy direct).GoesOn := by
  unfold repeatNext
  split
  · exact Exit.noConfusion
  dsimp only
  split
  · exact Exit.noConfusion
  split
  · exact goesOn_afterIteration _ _ _ _ _
  split
  · exact goesOn_afterIteration _ _ _ _ _
  · exact Exit.noConfusion

theorem goesOn_emptyCheckEnd (id : Nat) (watched : Option (List Nat)) :
    (emptyCheckEnd attempt point store id watched).GoesOn := by
  unfold emptyCheckEnd
  split
  · split
    · exact Exit.noConfusion
    · split
      · dsimp only
        split <;> exact Exit.noConfusion
      · exact Exit.noConfusion
  · exact Exit.noConfusion

/-- No other instruction ends a candidate. -/
theorem goesOn_ofInstruction {instruction : Instruction} (other : instruction ≠ .accept) :
    (ofInstruction attempt point store instruction).GoesOn := by
  cases instruction with
  | accept => exact absurd rfl other
  | finish | fail | lookStart | atomicStart => exact Exit.noConfusion
  | byte value | bytes content | foldedChars codes => exact goesOn_consumed _ _
  | template index offset length =>
      simp only [ofInstruction]
      split
      · exact goesOn_consumed _ _
      · exact Exit.noConfusion
  | foldedChar code | word wanted =>
      simp only [ofInstruction, oneChar]
      split
      · split <;> exact Exit.noConfusion
      · exact Exit.noConfusion
  | charClass operand =>
      simp only [ofInstruction, charClass]
      split
      · exact Exit.noConfusion
      split
      · split <;> exact Exit.noConfusion
      · exact Exit.noConfusion
  | anyCharStar acrossLines peeked =>
      simp only [ofInstruction, anyCharStar]
      split
      · split <;> exact Exit.noConfusion
      · exact Exit.noConfusion
  | assert assertion => exact goesOn_check _ _ _
  | backReference reference =>
      simp only [ofInstruction, backReference]
      split
      · exact goesOn_consumed _ _
      · exact Exit.noConfusion
  | anyChar acrossLines | openGroup group logged | closeGroup group logged | clearGroups first stop
  | emptyCheckStart id | pop | lookEnd | lookNotFail | atomicEnd | lookBehind length
  | lookBehindNotFail | call target | callReturn =>
      simp only [ofInstruction, anyChar, openGroup, closeGroup, clearGroups, emptyCheckStart, pop,
        lookEnd, excluded, atomicEnd, lookBehind, call, callReturn]
      split <;> exact Exit.noConfusion
  | jump offset | push offset | pushIfNext offset next | lookNotStart offset =>
      exact goesOn_branch fun target => Exit.noConfusion
  | pushOrJump offset next | lookBehindNotStart offset length =>
      apply goesOn_branch
      intro target
      split <;> exact Exit.noConfusion
  | emptyCheckEnd id watched => exact goesOn_emptyCheckEnd id watched
  | repeatStart id offset greedy => exact goesOn_repeatStart id offset greedy
  | repeatNext id greedy direct => exact goesOn_repeatNext id greedy direct

end Plan

namespace Attempt

variable (attempt : Attempt)

theorem exitMoves_exhaustive (point : Point) {exit : Exit} (other : exit ≠ .accept) :
    attempt.exhaustive.exitMoves point exit = attempt.exitMoves point exit := by
  cases exit with
  | accept => exact absurd rfl other
  | _ => rfl

/-- Where the program does not accept, the exhaustive search makes the same moves. -/
theorem moves_exhaustive {point : Point} (store : Store)
    (other : attempt.program.code[point.address]? ≠ some .accept) :
    attempt.exhaustive.moves point store = attempt.moves point store := by
  unfold moves
  rw [show attempt.exhaustive.program = attempt.program.exhaustive from rfl,
    Program.getElem?_exhaustive]
  cases fetched : attempt.program.code[point.address]? with
  | none => rfl
  | some instruction =>
      have different : instruction ≠ .accept := by
        rintro rfl
        exact other fetched
      simp only [Option.map_some, Instruction.refusing_of_ne_accept different, planMoves,
        ofInstruction_exhaustive]
      rw [exitMoves_exhaustive _ _ (Plan.goesOn_ofInstruction different)]

/-- Where the program accepts, the exhaustive search fails. -/
theorem moves_exhaustive_of_accept {point : Point} (store : Store)
    (accepts : attempt.program.code[point.address]? = some .accept) :
    attempt.exhaustive.moves point store =
      [.work, .perform (.note (.dispatched point store.depth))] ++ Move.failing := by
  unfold moves
  rw [show attempt.exhaustive.program = attempt.program.exhaustive from rfl,
    Program.getElem?_exhaustive, accepts]
  rfl

theorem moves_of_accept {point : Point} (store : Store)
    (accepts : attempt.program.code[point.address]? = some .accept) :
    attempt.moves point store =
      [.work, .perform (.note (.dispatched point store.depth))] ++
        attempt.acceptMoves point.cursor.position := by
  unfold moves
  rw [accepts]
  rfl

end Attempt

/-! ### Going alongside -/

/-- Whether a move belongs to the way through the program, and not to the end of a candidate. -/
def Move.IsInner (move : Move) : Prop :=
  move ≠ .consider ∧ move ≠ .matched

theorem Star.Makes.isInner {star : Star} {Good : Cursor → Prop} {move : Move}
    (makes : star.Makes Good move) : move.IsInner := by
  cases makes <;> exact ⟨Move.noConfusion, Move.noConfusion⟩

theorem Move.isInner_of_mem_failing {move : Move} (mem : move ∈ failing) : move.IsInner := by
  simp only [failing, List.mem_cons, List.not_mem_nil, or_false] at mem
  rcases mem with rfl | rfl <;> exact ⟨Move.noConfusion, Move.noConfusion⟩

/-- Only where the program accepts does the search come to the end of a candidate. -/
theorem Attempt.isInner_of_mem_moves {attempt : Attempt} {point : Point} {store : Store}
    {move : Move} (other : attempt.program.code[point.address]? ≠ some .accept)
    (mem : move ∈ attempt.moves point store) : move.IsInner := by
  rcases Attempt.of_mem_moves mem with rfl | ⟨instruction, fetched, made⟩
  · exact ⟨Move.noConfusion, Move.noConfusion⟩
  rcases made with rfl | ⟨event, rfl⟩ | ⟨effect, _, rfl⟩ | exits
  · exact ⟨Move.noConfusion, Move.noConfusion⟩
  · exact ⟨Move.noConfusion, Move.noConfusion⟩
  · exact ⟨Move.noConfusion, Move.noConfusion⟩
  · have goesOn : (Plan.ofInstruction attempt point store instruction).GoesOn := by
      apply Plan.goesOn_ofInstruction
      rintro rfl
      exact other fetched
    unfold Plan.GoesOn at goesOn
    cases exit : (Plan.ofInstruction attempt point store instruction).exit with
    | accept => exact absurd exit goesOn
    | sweep star =>
        rw [exit] at exits
        have makes : star.Makes (fun _ => True) move :=
          Star.makes_of_mem_sweepMoves trivial (fun _ _ _ => trivial) exits
        exact makes.isInner
    | leap star byte =>
        rw [exit] at exits
        have makes : star.Makes (fun _ => True) move :=
          Star.makes_of_mem_leapMoves (fun _ _ _ _ => trivial) trivial exits
        exact makes.isInner
    | fail =>
        rw [exit] at exits
        exact Move.isInner_of_mem_failing exits
    | goto next | finish | corrupt reason =>
        rw [exit] at exits
        obtain rfl := List.mem_singleton.1 exits
        exact ⟨Move.noConfusion, Move.noConfusion⟩

namespace Search

/-- Two searches are at the same point with the same store. -/
structure Meets (left right : Search) : Prop where
  point : left.point = right.point
  store : left.store = right.store

theorem Meets.symm {left right : Search} (meets : left.Meets right) : right.Meets left :=
  ⟨meets.point.symm, meets.store.symm⟩

theorem Meets.trans {left middle right : Search} (meets : left.Meets middle)
    (meets' : middle.Meets right) : left.Meets right :=
  ⟨meets.point.trans meets'.point, meets.store.trans meets'.store⟩

theorem meets_note (setting : Setting) (search : Search) (event : Event) :
    (search.note setting event).Meets search := by
  rw [note_eq]
  exact ⟨rfl, rfl⟩

/-- What a search comes to beside the exhaustive one: both go on together, or the search is stopped,
or both end and the search reports its best candidate. -/
inductive Alongside (best : Option Candidate) :
    (exhaustive search : Except Ending Search) → Prop
  | goesOn {right left : Search} (meets : left.Meets right) (kept : left.best = best) :
      Alongside best (.ok right) (.ok left)
  | stopped {result : Except Ending Search} {ending : Ending} {failure : MatchError}
      (fails : ending.outcome = .stopped failure) : Alongside best result (.error ending)
  | ends {right left : Ending} (reports : left.outcome = .ofOption (best.map Candidate.region)) :
      Alongside best (.error right) (.error left)

variable {setting : Setting} {left right : Search} {move : Move} {moves : List Move}

/-- An inner move leads both searches on in the same way. -/
theorem Meets.attempt (meets : left.Meets right) (inner : move.IsInner) :
    Alongside left.best (move.attempt setting.exhaustive right) (move.attempt setting left) := by
  obtain ⟨point, store⟩ := meets
  cases attempted : move.attempt setting left with
  | ok next =>
      cases move with
      | work =>
          obtain rfl := Move.eq_onSearch attempted
          simp only [Move.attempt]
          rw [Move.work_of_free setting.exhaustive_free]
          exact .goesOn ⟨point, store⟩ rfl
      | perform effect =>
          obtain ⟨free, performed, point', store', _⟩ :=
            Move.perform_of_unlimited setting.exhaustive_free.stackLimit right effect
          rw [eq_of_perform attempted]
          simp only [Move.attempt]
          rw [performed]
          refine .goesOn ⟨point.trans point'.symm, ?_⟩ rfl
          rw [store', store]
      | fail =>
          obtain rfl := Move.eq_onSearch attempted
          exact .goesOn ⟨point, store⟩ rfl
      | backtrack =>
          simp only [Move.attempt] at attempted ⊢
          rw [← store]
          split at attempted
          · cases attempted
            exact .goesOn ⟨rfl, rfl⟩ rfl
          · cases attempted
      | goto point =>
          cases attempted
          exact .goesOn ⟨rfl, store⟩ rfl
      | consider => exact absurd rfl inner.1
      | matched | conclude | reject reason => cases attempted
  | error ending =>
      cases Move.stops_of_attempt attempted with
      | denied | rejected => exact .stopped rfl
      | tried none_left =>
          simp only [Move.attempt]
          rw [← store, none_left]
          exact .ends rfl
      | concluded => exact .ends rfl
      | matched => exact absurd rfl inner.2

/-- Inner moves lead both searches on in the same way. -/
theorem Meets.play (meets : left.Meets right) (inner : ∀ move ∈ moves, move.IsInner) :
    Alongside left.best (Move.play setting.exhaustive right moves)
      (Move.play setting left moves) := by
  induction moves generalizing left right with
  | nil => exact .goesOn meets rfl
  | cons move moves ih =>
      rw [Move.play_cons, Move.play_cons]
      have one : Alongside left.best (move.attempt setting.exhaustive right)
          (move.attempt setting left) := meets.attempt (inner move List.mem_cons_self)
      generalize move.attempt setting.exhaustive right = free, move.attempt setting left = bounded
        at one
      cases one with
      | goesOn meets' kept =>
          rw [← kept]
          exact ih meets' fun other mem => inner other (List.mem_cons_of_mem move mem)
      | stopped fails => exact .stopped fails
      | ends reports => exact .ends reports

/-- Where the program does not accept, a dispatch leads both searches on in the same way. -/
theorem Meets.step (meets : left.Meets right)
    (other : setting.program.code[left.point.address]? ≠ some .accept) :
    Alongside left.best (right.step setting.exhaustive) (left.step setting) := by
  rw [step_eq_play, step_eq_play, ← meets.point, ← meets.store]
  have same : setting.exhaustive.moves left.point left.store =
      setting.moves left.point left.store :=
    setting.toAttempt.moves_exhaustive left.store other
  rw [same]
  exact meets.play fun move mem => Attempt.isInner_of_mem_moves other mem

/-- Where the program accepts, the exhaustive search fails, and the other one makes the moves at the
end of a candidate, unless it is stopped before. -/
theorem Meets.step_of_accept {Comes : (exhaustive search : Except Ending Search) → Prop}
    (meets : left.Meets right)
    (accepts : setting.program.code[left.point.address]? = some .accept)
    (stopped : ∀ result (ending : Ending) failure, ending.outcome = .stopped failure →
      Comes result (.error ending))
    (rest : ∀ left' right', left'.Meets left → left'.Meets right' → left'.best = left.best →
      Comes (Move.play setting.exhaustive right' Move.failing)
        (Move.play setting left' (setting.acceptMoves left.point.cursor.position))) :
    Comes (right.step setting.exhaustive) (left.step setting) := by
  rw [step_eq_play, step_eq_play, ← meets.point, ← meets.store]
  have opening : setting.exhaustive.moves left.point left.store = _ :=
    setting.toAttempt.moves_exhaustive_of_accept left.store accepts
  rw [opening, setting.toAttempt.moves_of_accept left.store accepts]
  simp only [List.cons_append, List.nil_append, Move.play_cons]
  -- Neither the unit of work nor the report leads a search away from where it stands.
  have worked : Alongside left.best (Move.work.attempt setting.exhaustive right)
      (Move.work.attempt setting left) :=
    meets.attempt ⟨Move.noConfusion, Move.noConfusion⟩
  rw [show Move.work.attempt setting.exhaustive right = .ok { right with steps := right.steps + 1 }
    from Move.work_of_free setting.exhaustive_free right] at worked ⊢
  generalize Move.work.attempt setting left = result at worked ⊢
  cases worked with
  | stopped fails => exact stopped _ _ _ fails
  | goesOn meets' kept =>
      simp only [Except.bind, Move.attempt, perform]
      have back : Meets _ left := meets'.trans ⟨meets.point.symm, meets.store.symm⟩
      refine rest _ _ ((meets_note setting _ _).trans back) ?_ ?_
      · exact (meets_note setting _ _).trans
          (meets'.trans (meets_note setting.exhaustive _ _).symm)
      · rw [note_eq]
        exact kept

end Search

end PatternMachine
