import PatternMachine.Proofs.Dispatch
import PatternMachine.Proofs.Frames

/-!
# Recorded positions

The registers and the frames of groups hold positions, and what a group has captured lies between two of
them.  If all that a run records there is good, so is all that it reads from there, after any number of
returns to choices.
-/

namespace PatternMachine

/-- Whether a bound holds no position that is not good. -/
def Bound.Records (Good : Nat → Prop) : Bound → Prop
  | .direct position => Good position
  | _ => True

/-- Whether both bounds of a group hold only good positions. -/
structure Bounds.Records (Good : Nat → Prop) (bounds : Bounds) : Prop where
  start : bounds.start.Records Good
  stop : bounds.stop.Records Good

/-- Whether a frame of a group holds a good position and has saved only good ones. -/
def Frame.Records (Good : Nat → Prop) : Frame → Prop
  | .groupStart _ position saved | .groupEnd _ position saved =>
      (∀ found, position = some found → Good found) ∧ saved.Records Good
  | _ => True

/-- Whether all positions that a store holds of groups are good. -/
structure Store.Records (Good : Nat → Prop) (store : Store) : Prop where
  bounds : ∀ group, (store.registers.boundsOf group).Records Good
  frames : store.stack.All (Frame.Records Good)

/-- Whether an effect records only good positions of groups. -/
def Effect.Records (Good : Nat → Prop) : Effect → Prop
  | .push frame => frame.Records Good
  | .openGroup _ position | .closeGroup _ position => Good position
  | .setGroup _ bounds => bounds.Records Good
  | _ => True

/-- Whether a move records only good positions of groups. -/
def Move.Records (Good : Nat → Prop) : Move → Prop
  | .perform effect => effect.Records Good
  | _ => True

variable {Good : Nat → Prop} {store : Store}

theorem Bounds.Records.unset : Bounds.unset.Records Good :=
  ⟨trivial, trivial⟩

theorem Frame.Records.position? {frame : Frame} (records : frame.Records Good) {position : Nat}
    (held : frame.position? = some position) : Good position := by
  cases frame with
  | groupStart | groupEnd => exact records.1 position held
  | _ => cases held

/-! ### Reading -/

/-- Whether what the search for an instance has found so far are good positions. -/
def InstanceHolds (Good : Nat → Prop) : Except (Nat × Nat) (Int × Option Nat) → Prop
  | .error (first, last) => Good first ∧ Good last
  | .ok (_, stop) => ∀ last, stop = some last → Good last

theorem holds_visitInstance {frame : Frame} {stop : Option Nat}
    (own : ∀ position, frame.position? = some position → Good position)
    (holds : ∀ last, stop = some last → Good last) (groups : List Nat) (wanted level : Int) :
    InstanceHolds Good (visitInstance groups wanted frame (level, stop)) := by
  unfold visitInstance
  dsimp only
  split
  · exact holds
  · exact holds
  · next group position saved =>
      intro last found
      split at found
      · cases found
        exact own _ rfl
      · exact holds last found
  · next group position saved =>
      split
      · next last =>
          split
          · exact ⟨own _ rfl, holds last rfl⟩
          · exact holds
      · exact holds
  · exact holds

/-- The bounds of an instance at a call level stand in frames. -/
theorem Stack.spanAtLevel?_of_position? {stack : Stack}
    (all : stack.All fun frame => ∀ position, frame.position? = some position → Good position)
    {groups : List Nat} {wanted : Int} {first last : Nat}
    (found : stack.spanAtLevel? groups wanted = some (first, last)) : Good first ∧ Good last := by
  have seek : ∀ (level : Int) (stop : Option Nat), (∀ last, stop = some last → Good last) →
      stack.seek (visitInstance groups wanted) (level, stop) = some (first, last) →
        Good first ∧ Good last := by
    clear found
    induction stack using push_induction with
    | empty =>
        intro level stop holds found
        cases found
    | push stack frame ih =>
        intro level stop holds found
        have visited := holds_visitInstance all.top holds groups wanted level
        rw [seek_push] at found
        cases answer : visitInstance groups wanted frame (level, stop) with
        | error span =>
            rw [answer] at found visited
            cases found
            exact visited
        | ok state =>
            rw [answer] at found visited
            exact ih all.lower state.1 state.2 visited found
  exact seek 0 none (fun last none => by cases none) found

namespace Store.Records

/-- What a bound stands for is good, whatever frame it refers to. -/
theorem resolve? (records : store.Records Good) {bound : Bound} (own : bound.Records Good)
    {position : Nat} (found : store.resolve? bound = some position) : Good position := by
  cases bound with
  | unset => cases found
  | direct direct =>
      cases found
      exact own
  | inFrame index =>
      obtain ⟨frame, read, held⟩ := Option.bind_eq_some_iff.1 found
      exact (records.frames index frame read).position? held

theorem span? (records : store.Records Good) {group first last : Nat}
    (found : store.span? group = some (first, last)) : Good first ∧ Good last := by
  unfold Store.span? at found
  split at found
  · next start stop resolved =>
      cases found
      have own := records.bounds group
      exact ⟨records.resolve? own.start (congrArg Prod.fst resolved),
        records.resolve? own.stop (congrArg Prod.snd resolved)⟩
  · cases found

theorem spanAtLevel? (records : store.Records Good) {groups : List Nat} {wanted : Int}
    {first last : Nat} (found : store.stack.spanAtLevel? groups wanted = some (first, last)) :
    Good first ∧ Good last :=
  Stack.spanAtLevel?_of_position?
    (fun index frame read _ held => (records.frames index frame read).position? held) found

/-! ### Writing -/

theorem push (records : store.Records Good) {frame : Frame} (own : frame.Records Good) :
    (store.push frame).Records Good where
  bounds := records.bounds
  frames := records.frames.push own

theorem setGroup (records : store.Records Good) (group : Nat) {bounds : Bounds}
    (own : bounds.Records Good) : (store.setGroup group bounds).Records Good where
  bounds := by
    intro other
    rcases store.boundsOf_setGroup_or group bounds other with same | ⟨_, same⟩
    · rw [same]
      exact records.bounds other
    · rw [same]
      exact own
  frames := records.frames

theorem setEntryCount (records : store.Records Good) (index count : Nat) :
    { store with stack := store.stack.setEntryCount index count : Store }.Records Good where
  bounds := records.bounds
  frames := by
    refine records.frames.setEntryCount (fun frame count good => ?_) index count
    cases frame <;> exact good

theorem setRepeat (records : store.Records Good) (id : Nat) (register : RepeatRegister) :
    (store.setRepeat id register).Records Good :=
  ⟨records.bounds, records.frames⟩

theorem lower (store : Store) (frame : Frame) (records : (store.push frame).Records Good) :
    store.Records Good :=
  ⟨records.bounds, records.frames.lower⟩

theorem restore (store : Store) (frame : Frame) (records : (store.push frame).Records Good) :
    (store.restore frame).Records Good := by
  have own : frame.Records Good := records.frames.top
  have below := records.lower
  cases frame with
  | groupStart group position saved | groupEnd group position saved =>
      exact below.setGroup group own.2
  | entryCount index savedCount => exact below.setEntryCount index savedCount
  | repeatEntry id count body outer savedCount => exact below.setRepeat id _
  | registerCount id savedCount => exact below.setRepeat id _
  | _ => exact below

theorem unwind (records : store.Records Good) (test : Frame → Bool) :
    (store.unwind test).2.Records Good :=
  unwind_invariant test (fun store frame _ => lower store frame) restore records

theorem commit (records : store.Records Good) (mark : Mark) :
    (store.commit mark).2.Records Good where
  bounds := records.bounds
  frames := by
    refine records.frames.commit (fun frame good => ?_) trivial mark
    cases frame <;> exact good

theorem onStore (records : store.Records Good) {effect : Effect} (own : effect.Records Good) :
    (effect.onStore store).Records Good := by
  cases effect with
  | note event => exact records
  | push frame => exact records.push own
  | openGroup group position =>
      have pushed : (Frame.groupStart group position
          (store.registers.boundsOf group)).Records Good :=
        ⟨fun found same => Option.some.inj same ▸ own, records.bounds group⟩
      exact (records.push pushed).setGroup group ⟨trivial, trivial⟩
  | closeGroup group position =>
      have pushed : (Frame.groupEnd group position
          (store.registers.boundsOf group)).Records Good :=
        ⟨fun found same => Option.some.inj same ▸ own, records.bounds group⟩
      exact (records.push pushed).setGroup group ⟨(records.bounds group).start, trivial⟩
  | clearGroup group =>
      have pushed : (Frame.groupStart group none (store.registers.boundsOf group)).Records Good :=
        ⟨by rintro found ⟨⟩, records.bounds group⟩
      exact (records.push pushed).setGroup group .unset
  | setGroup group bounds => exact records.setGroup group own
  | enterRepeat id body =>
      have pushed : (Frame.repeatEntry id 0 body (store.registers.repeatOf id).entry
          (store.registers.repeatOf id).count).Records Good := trivial
      exact (records.push pushed).setRepeat id _
  | countInEntry index => exact (records.setEntryCount index _).push trivial
  | countInRegister id =>
      have pushed : (Frame.registerCount id (store.registers.repeatOf id).count).Records Good :=
        trivial
      exact (records.push pushed).setRepeat id _
  | discard => exact discard_invariant lower records
  | commit mark => exact records.commit mark
  | unwindTo mark => exact records.unwind _

/-- A store made ready for a run holds no positions. -/
theorem reset (store : Store) : store.reset.Records Good where
  bounds := by
    intro group
    rw [store.boundsOf_reset]
    exact .unset
  frames := .empty

end Store.Records

/-- What an instruction records of groups are positions at which it stands. -/
theorem Attempt.Causes.records {attempt : Attempt} {point : Point}
    (records : store.Records Good) (start : Good point.cursor.position) {instruction : Instruction}
    {effect : Effect} (causes : attempt.Causes point store instruction effect) :
    effect.Records Good := by
  cases causes with
  | openGroup | closeGroup => exact start
  | startGroup => exact ⟨start, (records.bounds _).stop⟩
  | stopGroup => exact ⟨(records.bounds _).start, start⟩
  | unsetGroup => exact .unset
  | _ => exact trivial

end PatternMachine
