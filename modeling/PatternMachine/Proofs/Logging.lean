import PatternMachine.Proofs.Calls
import PatternMachine.Proofs.Dispatch
import PatternMachine.Proofs.Frames

/-!
# Logged groups

A program that opens and closes its groups only by logged instructions has effects of two kinds:
those that leave a frame that undoes them, and those that have nothing to undo.  Groups that are not
logged are among the latter, for they are never set (`Store.Logged`).
-/

namespace PatternMachine

/-! ### What effects are recoverable -/

/-- Whether nothing is written back when a frame is taken off. -/
def Frame.savesNothing : Frame → Bool
  | .groupStart .. | .groupEnd .. | .repeatEntry .. | .entryCount .. | .registerCount .. => false
  | _ => true

theorem Frame.IsPlain.of_savesNothing {frame : Frame} (nothing : frame.savesNothing = true) :
    frame.IsPlain := by
  intro store
  cases frame <;> first | rfl | cases nothing

/-- Effects that leave a frame that undoes them, or have nothing to undo as long as groups whose
openings and closings are not logged are not set. -/
def Effect.Recoverable (program : Program) : Effect → Prop
  | .push frame => frame.savesNothing = true
  | .openGroup group _ | .closeGroup group _ | .clearGroup group => program.logs group = true
  | .setGroup group bounds => program.logs group = false ∧ bounds = .unset
  | _ => True

/-- Moves whose effects are recoverable. -/
def Move.Recoverable (program : Program) : Move → Prop
  | .perform effect => effect.Recoverable program
  | _ => True

/-- Whether an instruction opens or closes a group for good. -/
def Instruction.isUnlogged : Instruction → Bool
  | .openGroup _ false | .closeGroup _ false => true
  | _ => false

/-- Whether every opening and closing of a group is logged. -/
def Program.LogsAll (program : Program) : Prop :=
  ∀ instruction ∈ program.code, instruction.isUnlogged = false

instance (program : Program) : Decidable program.LogsAll :=
  inferInstanceAs (Decidable (∀ instruction ∈ program.code, instruction.isUnlogged = false))

/-- Every effect of a dispatch is recoverable, if the program knows which of its groups are logged
and logs all of them. -/
theorem Attempt.recoverable_of_mem_moves {attempt : Attempt} {point : Point} {store : Store}
    (knows : attempt.program.KnowsLogged) (logsAll : attempt.program.LogsAll) {move : Move}
    (mem : move ∈ attempt.moves point store) : move.Recoverable attempt.program := by
  have positive : ∀ group, attempt.program.hasGroup group = true → group ≠ 0 := by
    intro group known
    exact bne_iff_ne.1 (Bool.and_eq_true_iff.1 known).1
  rcases Attempt.of_mem_moves mem with rfl | ⟨instruction, fetched, made⟩
  · trivial
  rcases made with rfl | ⟨event, rfl⟩ | ⟨effect, effectMem, rfl⟩ | exitMem
  · trivial
  · trivial
  · have causes := Attempt.causes_of_mem_effects effectMem
    cases causes with
    | openGroup known => exact knows _ _ (positive _ known) (.inl fetched)
    | closeGroup known => exact knows _ _ (positive _ known) (.inr fetched)
    | startGroup known | stopGroup known =>
        exact absurd (logsAll _ (Array.mem_of_getElem? fetched)) Bool.noConfusion
    | clearGroup known logged => exact logged
    | unsetGroup known direct => exact ⟨direct, rfl⟩
    | _ => first | rfl | trivial
  · cases move with
    | perform effect =>
        obtain ⟨point', rfl⟩ := Attempt.choice_of_mem_exitMoves exitMem
        exact rfl
    | _ => trivial

/-! ### Groups that are not logged are not set -/

/-- The group that a frame restores. -/
def Frame.group? : Frame → Option Nat
  | .groupStart group _ _ | .groupEnd group _ _ => some group
  | _ => none

/-- Whether a frame restores only a logged group, if it restores one. -/
def Frame.RestoresLogged (program : Program) (frame : Frame) : Prop :=
  ∀ group, frame.group? = some group → program.logs group = true

/-- Whether only logged groups are set, and only they are restored by frames. -/
structure Store.Logged (program : Program) (store : Store) : Prop where
  unset : ∀ group, program.logs group = false → store.registers.boundsOf group = .unset
  frames : store.stack.All (Frame.RestoresLogged program)

namespace Store

variable {program : Program} {store : Store}

namespace Logged

theorem reset (store : Store) : store.reset.Logged program where
  unset := fun group _ => store.boundsOf_reset group
  frames := .empty

theorem setGroup (logged : store.Logged program) {group : Nat} {bounds : Bounds}
    (recoverable : program.logs group = true ∨ bounds = .unset) :
    (store.setGroup group bounds).Logged program where
  unset := by
    intro other direct
    rcases store.boundsOf_setGroup_or group bounds other with same | ⟨rfl, same⟩
    · rw [same]
      exact logged.unset other direct
    · rw [same]
      rcases recoverable with isLogged | rfl
      · rw [direct] at isLogged
        cases isLogged
      · rfl
  frames := logged.frames

theorem setRepeat (logged : store.Logged program) (id : Nat) (register : RepeatRegister) :
    (store.setRepeat id register).Logged program where
  unset := logged.unset
  frames := logged.frames

theorem push (logged : store.Logged program) {frame : Frame}
    (own : frame.RestoresLogged program) : (store.push frame).Logged program where
  unset := logged.unset
  frames := logged.frames.push own

theorem setEntryCount (logged : store.Logged program) (index count : Nat) :
    { store with stack := store.stack.setEntryCount index count : Store }.Logged program where
  unset := logged.unset
  frames := by
    refine logged.frames.setEntryCount (fun frame count good => ?_) index count
    cases frame <;> exact good

theorem lower (store : Store) (frame : Frame) (logged : (store.push frame).Logged program) :
    store.Logged program where
  unset := logged.unset
  frames := logged.frames.lower

/-- What a frame writes back is logged. -/
theorem restore (store : Store) (frame : Frame) (logged : (store.push frame).Logged program) :
    (store.restore frame).Logged program := by
  have own : frame.RestoresLogged program := logged.frames.top
  have below := logged.lower
  cases frame with
  | groupStart group position saved => exact below.setGroup (.inl (own group rfl))
  | groupEnd group position saved => exact below.setGroup (.inl (own group rfl))
  | entryCount index savedCount => exact below.setEntryCount index savedCount
  | repeatEntry id count body outer savedCount => exact below.setRepeat id _
  | registerCount id savedCount => exact below.setRepeat id _
  | _ => exact below

theorem unwind (logged : store.Logged program) (test : Frame → Bool) :
    (store.unwind test).2.Logged program :=
  unwind_invariant test (fun store frame _ => lower store frame) restore logged

theorem commit (logged : store.Logged program) (mark : Mark) :
    (store.commit mark).2.Logged program where
  unset := logged.unset
  frames := by
    refine logged.frames.commit (fun frame good => ?_) (fun group isGroup => ?_) mark
    · cases frame <;> exact good
    · cases isGroup

/-- Recoverable effects set no group that is not logged. -/
theorem onStore (logged : store.Logged program) {effect : Effect}
    (recoverable : effect.Recoverable program) : (effect.onStore store).Logged program := by
  have own : ∀ group frame, program.logs group = true → Frame.group? frame = some group →
      frame.RestoresLogged program := by
    intro group frame isLogged isGroup other isOther
    rw [isGroup] at isOther
    cases isOther
    exact isLogged
  have pushed : ∀ {store : Store}, store.Logged program → ∀ frame : Frame, frame.group? = none →
      (store.push frame).Logged program := by
    intro store logged frame none
    apply logged.push
    intro group isGroup
    rw [none] at isGroup
    cases isGroup
  cases effect with
  | note event => exact logged
  | push frame =>
      apply pushed logged
      cases frame <;> first | rfl | exact absurd recoverable Bool.noConfusion
  | openGroup group position | closeGroup group position | clearGroup group =>
      exact (logged.push (own group _ recoverable rfl)).setGroup (.inl recoverable)
  | setGroup group bounds => exact logged.setGroup (.inr recoverable.2)
  | enterRepeat id body => exact (pushed logged (.repeatEntry id 0 body _ _) rfl).setRepeat id _
  | countInEntry index =>
      exact pushed (logged.setEntryCount index _) (.entryCount index _) rfl
  | countInRegister id => exact (pushed logged (.registerCount id _) rfl).setRepeat id _
  | discard => exact discard_invariant lower logged
  | commit mark => exact logged.commit mark
  | unwindTo mark => exact logged.unwind _

end Logged

end Store

end PatternMachine
