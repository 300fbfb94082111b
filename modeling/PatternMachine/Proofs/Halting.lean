import Mathlib.Data.Finset.Card
import Mathlib.Data.Prod.Lex
import PatternMachine.Proofs.Onward

/-!
# Runs that end

What a run does after a failure depends on the choices on the stack, so whether it ends depends on
whether it ends from each of them.  A stack drains if that is so (`Setting.Drains`): then a search
that fails comes to an end, however far it goes back.

Three things get less while a search goes on: what is left of the text; as long as nothing is
consumed, the checks that have not started their latest iteration where the search stands; and as
long as none starts one here, what is left of the code (`Setting.rank`).  All choices that a search
leaves on its way have less left than the search itself, although they are resumed only when the
search has gone further and failed.  So an induction on what is left finds that the stack drains
whenever it needs to know (`Move.Course.ends`).
-/

namespace PatternMachine

/-! ### Ends of runs -/

/-- Whether the run ends that goes on from a search. -/
def Search.Ends (setting : Setting) (search : Search) : Prop :=
  ∃ dispatches ending, run? setting dispatches search = some ending

theorem Search.Ends.of_step {setting : Setting} {search : Search}
    (goesOn : ∀ next, search.step setting = .ok next → next.Ends setting) :
    search.Ends setting := by
  cases stepped : search.step setting with
  | ok next =>
      obtain ⟨dispatches, ending, ran⟩ := goesOn next stepped
      refine ⟨dispatches + 1, ending, ?_⟩
      rw [run?, stepped]
      exact ran
  | error ending =>
      refine ⟨1, ending, ?_⟩
      rw [run?, stepped]

namespace Setting

/-- Whether every run ends that goes on at a point with a stack, whatever it has come to besides. -/
def EndsAt (setting : Setting) (point : Point) (stack : Stack) : Prop :=
  ∀ search : Search, search.point = point → search.store.stack = stack → search.Ends setting

/-- Whether every run ends that goes back to a choice on a stack, and no frame saves what lies on
the stack. -/
inductive Drains (setting : Setting) : Stack → Prop
  | empty : Drains setting .empty
  | push {stack : Stack} {frame : Frame} (below : Drains setting stack)
      (resumes : ∀ point, frame.resume? = some point → setting.EndsAt point stack)
      (saves : ∀ store : Store, (store.restore frame).stack = store.stack) :
      Drains setting (stack.push frame)

variable {setting : Setting}

theorem EndsAt.of_goto {point : Point} {stack later : Stack} {instruction : Instruction}
    (fetched : setting.program.code[point.address]? = some instruction) {address : Nat}
    {cursor : Cursor} (effects : List Effect)
    (goes : ∀ store, (∃ reason, Plan.ofInstruction setting.toAttempt point store instruction =
        .corrupt reason) ∨
      Plan.ofInstruction setting.toAttempt point store instruction = .goto address cursor effects)
    (leads : ∀ store : Store, store.stack = stack →
      (effects.foldl (fun store effect => effect.onStore store) store).stack = later)
    (ends : setting.EndsAt ⟨address, cursor⟩ later) : setting.EndsAt point stack := by
  rintro search rfl stacked
  refine .of_step fun next stepped => ?_
  rcases goes search.store with ⟨reason, corrupt⟩ | plan
  · refine absurd ?_ (Search.ne_corrupt_of_step fetched stepped reason)
    rw [corrupt]
    rfl
  · obtain ⟨point, store⟩ := Search.of_step_goto fetched plan stepped
    refine ends next point ?_
    rw [store]
    exact leads _ stacked

namespace Drains

theorem of_push {stack : Stack} {frame : Frame} (drains : setting.Drains (stack.push frame)) :
    setting.Drains stack ∧ (∀ point, frame.resume? = some point → setting.EndsAt point stack) ∧
      ∀ store : Store, (store.restore frame).stack = store.stack := by
  generalize pushed : stack.push frame = whole at drains
  have popped := congrArg Stack.pop? pushed
  rw [Stack.pop?_push] at popped
  cases drains with
  | empty => cases popped
  | push below resumes saves =>
      rw [Stack.pop?_push] at popped
      cases popped
      exact ⟨below, resumes, saves⟩

/-- Going back takes frames off a stack, and puts nothing on it. -/
theorem unwind {store : Store} (drains : setting.Drains store.stack) (test : Frame → Bool) :
    setting.Drains (store.unwind test).2.stack := by
  refine @Store.unwind_invariant (fun store => setting.Drains store.stack) test
    (fun store frame _ drains => drains.of_push.1) ?_ store drains
  intro store frame drains
  rw [drains.of_push.2.2]
  exact drains.of_push.1

theorem endsAt {store below : Store} {point : Point} (drains : setting.Drains store.stack)
    (resumed : store.backtrack = (some point, below)) : setting.EndsAt point below.stack := by
  induction store using Store.push_induction with
  | empty registers =>
      rw [Store.backtrack, Store.unwind_blank] at resumed
      cases resumed
  | push store frame ih =>
      obtain ⟨under, resumes, saves⟩ := drains.of_push
      rw [Store.backtrack, Store.unwind_push] at resumed
      by_cases stops : frame.isResumable = true
      · rw [if_pos stops] at resumed
        obtain ⟨here, rfl⟩ := Prod.mk.inj resumed
        exact resumes point here
      · rw [if_neg stops] at resumed
        refine ih _ (store.depth_restore frame) ?_ resumed
        rw [saves]
        exact under

end Drains

end Setting

/-! ### What is left of a search -/

namespace Stack

/-- Whether the checks whose latest iteration started at a position are those of an earlier stack,
and maybe more. -/
def KeepsMarks (position : Nat) (base stack : Stack) : Prop :=
  ∀ id, base.latestStart? id = some position → stack.latestStart? id = some position

/-- How many of some checks have started their latest iteration elsewhere, or none at all. -/
def unmarked (stack : Stack) (checks position : Nat) : Nat :=
  ((Finset.range checks).filter fun id => stack.latestStart? id ≠ some position).card

variable {base stack : Stack} {checks position : Nat}

theorem KeepsMarks.refl (position : Nat) (stack : Stack) : KeepsMarks position stack stack :=
  fun _ marked => marked

theorem KeepsMarks.push (keeps : KeepsMarks position base stack) {frame : Frame}
    (starts : ∀ id start, frame.iteration? id = some start → start = position) :
    KeepsMarks position base (stack.push frame) := by
  intro id marked
  rw [latestStart?_push]
  cases started : frame.iteration? id with
  | none => exact keeps id marked
  | some start =>
      rw [starts id start started]
      rfl

theorem unmarked_le (keeps : KeepsMarks position base stack) (checks : Nat) :
    stack.unmarked checks position ≤ base.unmarked checks position :=
  Finset.card_le_card (Finset.monotone_filter_right _ fun id _ => mt (keeps id))

/-- Once another check has started an iteration here, there is one less. -/
theorem unmarked_lt (keeps : KeepsMarks position base stack) {id : Nat} (known : id < checks)
    (elsewhere : base.latestStart? id ≠ some position)
    (here : stack.latestStart? id = some position) :
    stack.unmarked checks position < base.unmarked checks position := by
  refine Finset.card_lt_card (Finset.ssubset_iff_subset_ne.2 ⟨?_, ?_⟩)
  · exact Finset.monotone_filter_right _ fun id _ => mt (keeps id)
  · intro same
    have counted : id ∈ (Finset.range checks).filter fun id => base.latestStart? id ≠ some position :=
      Finset.mem_filter.2 ⟨Finset.mem_range.2 known, elsewhere⟩
    rw [← same] at counted
    exact (Finset.mem_filter.1 counted).2 here

end Stack

namespace Setting

/-- What is left of a search at a point with a stack: the text, then the checks that have started no
iteration here, then the code. -/
def rank (setting : Setting) (point : Point) (stack : Stack) : Nat ×ₗ Nat ×ₗ Nat :=
  toLex (setting.range - point.cursor.position,
    toLex (stack.unmarked setting.program.emptyCheckCount point.cursor.position,
      setting.program.code.size - point.address))

variable {setting : Setting} {here there : Point} {base stack : Stack}

/-- Further on in the code, and no earlier in the text, less is left. -/
theorem rank_lt_of_onward {Good : Nat → Prop} (inside : here.address < setting.program.code.size)
    (onward : there.Onward Good here.cursor.position setting.range)
    (further : here.address < there.address)
    (keeps : Stack.KeepsMarks here.cursor.position base stack) :
    setting.rank there stack < setting.rank here base := by
  obtain ⟨low, high⟩ := onward.cursor
  rw [rank, rank, Prod.Lex.toLex_lt_toLex, Prod.Lex.toLex_lt_toLex]
  rcases Nat.lt_or_eq_of_le low with later | same
  · left
    dsimp only
    omega
  · right
    have fewer := Stack.unmarked_le keeps setting.program.emptyCheckCount
    rw [← same]
    refine ⟨rfl, ?_⟩
    dsimp only
    omega

/-- Where another check starts an iteration, less is left. -/
theorem rank_lt_of_marked (same : there.cursor = here.cursor)
    (keeps : Stack.KeepsMarks here.cursor.position base stack) {id : Nat}
    (known : id < setting.program.emptyCheckCount)
    (elsewhere : base.latestStart? id ≠ some here.cursor.position)
    (marked : stack.latestStart? id = some here.cursor.position) :
    setting.rank there stack < setting.rank here base := by
  have fewer := Stack.unmarked_lt keeps known elsewhere marked
  rw [rank, rank, Prod.Lex.toLex_lt_toLex, Prod.Lex.toLex_lt_toLex, same]
  exact .inr ⟨rfl, .inl fewer⟩

end Setting

/-- A course ends the run if every run ends that goes on at its good points. -/
theorem Move.Course.ends {setting : Setting} {search next : Search} {Good : Point → Prop}
    {position : Nat} {base : Stack} {moves : List Move} (course : Course Good position moves)
    (drains : setting.Drains search.store.stack)
    (keeps : Stack.KeepsMarks position base search.store.stack)
    (good : ∀ point stack, Good point → setting.Drains stack →
      Stack.KeepsMarks position base stack → setting.EndsAt point stack)
    (played : play setting search moves = .ok next) : next.Ends setting := by
  induction course generalizing search with
  | @goto point isGood =>
      cases played
      exact good point _ isGood drains keeps _ rfl rfl
  | fail => exact drains.endsAt (of_play_failing played).2 next rfl rfl
  | @exclude mark =>
      have failed : play setting { search with store := (search.store.unwindTo mark).2 } failing =
          .ok next := played
      exact (drains.unwind _).endsAt (of_play_failing failed).2 next rfl rfl
  | stop ends =>
      obtain ⟨_, attempted, _⟩ := exists_of_play_cons played
      exact absurd attempted (not_ok_of_isEnd ends)
  | adds adds rest ih =>
      obtain ⟨middle, attempted, played⟩ := exists_of_play_cons played
      have stored := store_of_attempt attempted
      rcases adds search.store with still | ⟨frame, leads, pushed⟩
      · rw [← stored] at still
        refine ih ?_ ?_ played
        · rw [still]
          exact drains
        · rw [still]
          exact keeps
      · rw [← stored] at pushed
        refine ih ?_ ?_ played
        · rw [pushed]
          exact drains.push (fun point resumes =>
            good point _ (leads.resumes point resumes) drains keeps) leads.saves
        · rw [pushed]
          exact keeps.push leads.starts

end PatternMachine
