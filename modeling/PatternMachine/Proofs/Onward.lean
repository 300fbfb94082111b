import PatternMachine.Proofs.EmptyIterations
import PatternMachine.Proofs.Exploration.Block
import PatternMachine.Proofs.Landing

/-!
# Dispatches that lead onward

An instruction that takes no frame off, gives nothing up and counts no iterations leaves frames on
the stack and then goes on, fails or ends the run: its moves are a course (`Attempt.course_moves`).
If it does not go back in the text either, the course leads onward: wherever the search goes on, at
once or when it comes back to what was left, it has consumed no less.
-/

namespace PatternMachine

/-! ### Iterations -/

namespace Plan

variable {attempt : Attempt} {point : Point} {Good : Nat → Prop}

theorem leadsInto_emptyCheckStart (next : Good point.next) (id : Nat) :
    (emptyCheckStart attempt point id).LeadsInto Good := by
  unfold emptyCheckStart
  split
  · exact leadsInto_push next _ fun _ resumes => by cases resumes
  · exact leadsInto_corrupt _

/-- The end of an iteration leads behind itself if the iteration is not empty, and otherwise behind
a way back. -/
theorem leadsInto_iterationEnd {empty : Bool} (next : empty = false → Good point.next)
    (skips : ∀ instruction, attempt.program.code[point.next]? = some instruction →
      instruction.isLoopBack = true → Good (point.next + 1)) (id : Nat) :
    (iterationEnd attempt point id empty).LeadsInto Good := by
  have quiet : ∀ frame, .push frame ∉ (iterationEnd attempt point id empty).effects := by
    intro frame mem
    simp only [iterationEnd, goto] at mem
    repeat' split at mem
    all_goals simp at mem
  refine .of_quiet ?_ quiet
  unfold iterationEnd
  cases empty with
  | false => exact .goto (next rfl)
  | true =>
      rw [if_pos rfl]
      dsimp only
      split
      · next isWayBack =>
          obtain ⟨instruction, fetched, loopsBack⟩ := Option.map_eq_some_iff.1 isWayBack
          exact .goto (skips instruction fetched loopsBack)
      · exact .corrupt

end Plan

/-! ### Courses -/

/-- Whether a frame may be left on the way: it resumes only at good points, starts iterations only
at a position, and saves nothing that lies on the stack. -/
structure Frame.Leads (Good : Point → Prop) (position : Nat) (frame : Frame) : Prop where
  resumes : ∀ point, frame.resume? = some point → Good point
  starts : ∀ id start, frame.iteration? id = some start → start = position
  saves : ∀ store : Store, (store.restore frame).stack = store.stack

/-- Whether a move keeps the stack or leaves a frame that may be left on the way. -/
def Move.Adds (Good : Point → Prop) (position : Nat) (move : Move) : Prop :=
  ∀ store, (move.onStore store).stack = store.stack ∨
    ∃ frame, frame.Leads Good position ∧ (move.onStore store).stack = store.stack.push frame

/-- Whether a move ends the run. -/
def Move.isEnd : Move → Bool
  | .matched | .conclude | .reject _ => true
  | _ => false

/-- The moves of a dispatch that leaves frames and then goes on at a good point, goes back or ends
the run. -/
inductive Move.Course (Good : Point → Prop) (position : Nat) : List Move → Prop
  | goto {point : Point} (good : Good point) : Course Good position [.goto point]
  | fail : Course Good position failing
  | exclude {mark : Mark} : Course Good position (.perform (.unwindTo mark) :: failing)
  | stop {move : Move} (ends : move.isEnd = true) : Course Good position [move]
  | adds {move : Move} {moves : List Move} (adds : move.Adds Good position)
      (rest : Course Good position moves) : Course Good position (move :: moves)

namespace Move

variable {Good : Point → Prop} {position : Nat} {moves : List Move}

theorem not_ok_of_isEnd {move : Move} (ends : move.isEnd = true) {setting : Setting}
    {search next : Search} : move.attempt setting search ≠ .ok next := by
  cases move with
  | matched | conclude | reject reason => rintro ⟨⟩
  | _ => cases ends

theorem Course.append {first : List Move} (adds : ∀ move ∈ first, move.Adds Good position)
    (course : Course Good position moves) : Course Good position (first ++ moves) := by
  induction first with
  | nil => exact course
  | cons move first ih =>
      exact .adds (adds move List.mem_cons_self)
        (ih fun other mem => adds other (List.mem_cons_of_mem move mem))

end Move

/-- Whether an instruction neither goes back in the text nor calls anything, takes off no frame and
gives none up unless it fails, and counts no iterations. -/
def Instruction.isOnward : Instruction → Bool
  | .lookBehind _ | .lookBehindNotStart .. | .lookEnd | .atomicEnd | .pop | .call _ | .callReturn
  | .repeatStart .. | .repeatNext .. => false
  | _ => true

/-- Whether a search goes on at a good address and between two positions. -/
structure Point.Onward (Good : Nat → Prop) (first last : Nat) (point : Point) : Prop where
  address : Good point.address
  cursor : point.cursor.Between first last

/-- The effects of an instruction leave frames, but for the end of a failed attempt. -/
theorem Attempt.Causes.adds {attempt : Attempt} {point : Point} {store : Store}
    {instruction : Instruction} {effect : Effect} {Good : Point → Prop}
    (causes : attempt.Causes point store instruction effect) (onward : instruction.isOnward = true)
    (goesOn : ∀ mark, effect ≠ .unwindTo mark)
    (resumes : ∀ frame there, effect = .push frame → frame.resume? = some there → Good there) :
    (Move.perform effect).Adds Good point.cursor.position := by
  intro store
  cases causes with
  | report | startGroup | stopGroup | unsetGroup => exact .inl rfl
  | choice | look | lookNot | atomic =>
      refine .inr ⟨_, ⟨fun there => resumes _ there rfl, ?_, fun _ => rfl⟩, rfl⟩
      rintro id start ⟨⟩
  | openGroup | closeGroup | clearGroup =>
      refine .inr ⟨_, ⟨?_, ?_, fun _ => rfl⟩, rfl⟩
      · rintro there ⟨⟩
      · rintro id start ⟨⟩
  | @emptyCheck id =>
      refine .inr ⟨_, ⟨?_, ?_, fun _ => rfl⟩, rfl⟩
      · rintro there ⟨⟩
      · intro other start starts
        cases Frame.iteration?_eq_some_iff.1 starts
        rfl
  | lookNotFail | behindNotFail => exact absurd rfl (goesOn _)
  | _ => cases onward

open Move

/-- A star leaves choices and goes on behind them, if it is not stopped. -/
theorem Star.Sweeps.course {star : Star} {moves : List Move} {Good : Nat → Prop} {first last : Nat}
    (sweeps : star.Sweeps moves) (good : Good star.next)
    (stands : ∀ move ∈ moves, move.Stands (Cursor.Between first last)) :
    Course (Point.Onward Good first last) first moves := by
  induction sweeps with
  | goto => exact .goto ⟨good, stands _ List.mem_cons_self⟩
  | failing => exact .fail
  | work rest ih =>
      exact .adds (fun _ => .inl rfl) (ih fun move mem => stands move (List.mem_cons_of_mem _ mem))
  | @choice cursor moves rest ih =>
      refine .adds (fun store => .inr ⟨star.choice cursor, ⟨?_, ?_, fun _ => rfl⟩, rfl⟩)
        (ih fun move mem => stands move (List.mem_cons_of_mem _ mem))
      · rintro there ⟨⟩
        exact ⟨good, stands _ List.mem_cons_self⟩
      · rintro id start ⟨⟩

namespace Attempt

variable {attempt : Attempt} {point : Point} {store : Store} {Good : Nat → Prop}

/-- An instruction is left by a course, if it goes on at a good address and where it stands or
later. -/
theorem course_exitMoves (within : point.cursor.position ≤ attempt.range) {exit : Exit}
    (leads : exit.LeadsInto Good ∨ exit = .accept ∨ exit = .finish)
    (goes : exit.Goes (Cursor.Between point.cursor.position attempt.range)) :
    Course (Point.Onward Good point.cursor.position attempt.range) point.cursor.position
      (attempt.exitMoves point exit) := by
  have stands : ∀ move ∈ attempt.exitMoves point exit,
      move.Stands (Cursor.Between point.cursor.position attempt.range) := fun move =>
    stands_of_mem_exitMoves
      ((attempt.carriesOnward_between _).stars within ⟨Nat.le_refl _, within⟩) goes
  rcases leads with leads | rfl | rfl
  · cases leads with
    | goto good => exact .goto ⟨good, goes⟩
    | fail => exact .fail
    | @sweep star good => exact (star.sweeps_sweepMoves ..).course good stands
    | @leap star byte good => exact (star.sweeps_leapMoves ..).course good stands
    | corrupt => exact .stop rfl
  · simp only [exitMoves, acceptMoves]
    split
    · exact .stop rfl
    split
    · exact .fail
    split
    · exact .adds (fun _ => .inl rfl) .fail
    · exact .adds (fun _ => .inl rfl) (.stop rfl)
  · exact .stop rfl

/-- An instruction that leads onward carries out its plan by a course. -/
theorem course_planMoves (within : point.cursor.position ≤ attempt.range)
    {instruction : Instruction} (onward : instruction.isOnward = true)
    (leads : (Plan.ofInstruction attempt point store instruction).LeadsInto Good ∨
      instruction = .accept ∨ instruction = .finish) :
    Course (Point.Onward Good point.cursor.position attempt.range) point.cursor.position
      (attempt.planMoves point (.ofInstruction attempt point store instruction)) := by
  have here : point.cursor.Between point.cursor.position attempt.range := ⟨Nat.le_refl _, within⟩
  by_cases unwinds : ∃ mark, .unwindTo mark ∈
      (Plan.ofInstruction attempt point store instruction).effects
  · obtain ⟨mark, mem⟩ := unwinds
    cases causes_of_mem_effects mem with
    | lookNotFail | behindNotFail =>
        simp only [Plan.ofInstruction, Plan.excluded]
        split
        · exact .exclude
        · exact .stop rfl
  · refine .append ?_ (course_exitMoves within ?_ ?_)
    · intro move mem
      obtain ⟨effect, effectMem, rfl⟩ := List.mem_map.1 mem
      have causes := causes_of_mem_effects effectMem
      refine causes.adds onward ?_ ?_
      · rintro mark rfl
        exact unwinds ⟨mark, effectMem⟩
      · rintro frame there rfl resumes
        refine ⟨?_, ?_⟩
        · rcases leads with leads | rfl | rfl
          · exact leads.choices frame there effectMem resumes
          · cases effectMem
          · cases effectMem
        · have stands := causes.stands here
          cases frame <;> cases resumes <;> exact stands
    · rcases leads with leads | rfl | rfl
      · exact .inl leads.exit
      · exact .inr (.inl rfl)
      · exact .inr (.inr rfl)
    · refine (Plan.lands_ofInstruction within instruction).mono fun _ => ?_
      refine Lands.good_onward (attempt.carriesOnward_between _) here ?_
      cases instruction <;> first | rfl | cases onward

/-- A dispatch of an instruction that leads onward is a course. -/
theorem course_moves (within : point.cursor.position ≤ attempt.range)
    {instruction : Instruction} (fetched : attempt.program.code[point.address]? = some instruction)
    (onward : instruction.isOnward = true)
    (leads : (Plan.ofInstruction attempt point store instruction).LeadsInto Good ∨
      instruction = .accept ∨ instruction = .finish) :
    Course (Point.Onward Good point.cursor.position attempt.range) point.cursor.position
      (attempt.moves point store) := by
  rw [moves, fetched]
  exact .adds (fun _ => .inl rfl)
    (.adds (fun _ => .inl rfl) (course_planMoves within onward leads))

end Attempt

end PatternMachine
