import PatternMachine.Proofs.Positions

/-!
# Positions and numbers stay in bounds

Whatever the program, a run never comes to a position beyond the end of its span, and neither a
register nor a frame ever holds one.  Frames name only groups and repeats that the program has.
`Search.Fits` is that invariant; what records only what fits keeps it.
-/

namespace PatternMachine

/-! ### What it means to fit -/

/-- Whether a cursor lies before the end of a span, or at it. -/
structure Cursor.Fits (range : Nat) (cursor : Cursor) : Prop where
  position : cursor.position ≤ range
  previous : cursor.previous ≤ range

/-- Whether a bound holds no position beyond the end of a span. -/
def Bound.Fits (range : Nat) (bound : Bound) : Prop :=
  ∀ position, bound = .direct position → position ≤ range

/-- Whether both bounds fit. -/
structure Bounds.Fits (range : Nat) (bounds : Bounds) : Prop where
  start : bounds.start.Fits range
  stop : bounds.stop.Fits range

/-- Whether every position in a frame lies within the span, and every number is one of the program's
groups or repeats. -/
def Frame.Fits (attempt : Attempt) : Frame → Prop
  | .choice point | .lookNot point | .behindNot point => point.cursor.Fits attempt.range
  | .groupStart group position saved | .groupEnd group position saved =>
      attempt.program.hasGroup group = true ∧
        (∀ found, position = some found → found ≤ attempt.range) ∧ saved.Fits attempt.range
  | .repeatEntry id .. | .registerCount id _ => id < attempt.program.repeatRanges.size
  | .emptyCheck _ position => position ≤ attempt.range
  | .look cursor => cursor.Fits attempt.range
  | _ => True

/-- Whether a store has the registers of a program, and all it holds fits. -/
structure Store.Fits (attempt : Attempt) (store : Store) : Prop where
  groupSlots : store.registers.groups.size = attempt.program.regionSize
  repeatSlots : store.registers.repeats.size = attempt.program.repeatRanges.size
  bounds : ∀ group, (store.registers.boundsOf group).Fits attempt.range
  frames : store.stack.All (Frame.Fits attempt)

/-- Whether a region has a slot for each group of the program and one for the whole match, and every
bound in it is unset or lies within the span. -/
structure Region.Fits (attempt : Attempt) (region : Region) : Prop where
  starts : region.starts.size = attempt.program.regionSize
  stops : region.stops.size = attempt.program.regionSize
  bounds : ∀ bound, bound ∈ region.starts ∨ bound ∈ region.stops → ∀ position,
    bound = some position → position ≤ attempt.range

/-- Whether a search stands within its span, and so does all that it has recorded. -/
structure Search.Fits (attempt : Attempt) (search : Search) : Prop where
  cursor : search.point.cursor.Fits attempt.range
  store : search.store.Fits attempt
  best : ∀ candidate, search.best = some candidate → candidate.region.Fits attempt

/-- Whether an effect records only what fits. -/
def Effect.Fits (attempt : Attempt) : Effect → Prop
  | .push frame => frame.Fits attempt
  | .openGroup group position | .closeGroup group position =>
      attempt.program.hasGroup group = true ∧ position ≤ attempt.range
  | .clearGroup group => attempt.program.hasGroup group = true
  | .setGroup group bounds => attempt.program.hasGroup group = true ∧ bounds.Fits attempt.range
  | .enterRepeat id _ | .countInRegister id => id < attempt.program.repeatRanges.size
  | _ => True

/-- Whether a move records only what fits, and goes only where it fits. -/
def Move.Fits (attempt : Attempt) : Move → Prop
  | .perform effect => effect.Fits attempt
  | .goto point => point.cursor.Fits attempt.range
  | _ => True

theorem Bounds.Fits.unset {range : Nat} : Bounds.unset.Fits range := by
  constructor <;> intro position isDirect <;> cases isDirect

theorem Bounds.Fits.records {range : Nat} {bounds : Bounds} (fits : bounds.Fits range) :
    bounds.Records (· ≤ range) := by
  obtain ⟨start, stop⟩ := bounds
  constructor
  · cases start with
    | direct position => exact fits.start position rfl
    | _ => exact trivial
  · cases stop with
    | direct position => exact fits.stop position rfl
    | _ => exact trivial

theorem Frame.Fits.records {attempt : Attempt} {frame : Frame} (fits : frame.Fits attempt) :
    frame.Records (· ≤ attempt.range) := by
  cases frame with
  | groupStart | groupEnd => exact ⟨fits.2.1, fits.2.2.records⟩
  | _ => exact trivial

/-! ### Moves keep what fits -/

namespace Store

variable {attempt : Attempt} {store : Store}

/-- A store that fits holds no positions of groups beyond the end of the span. -/
theorem Fits.records (fits : store.Fits attempt) : store.Records (· ≤ attempt.range) where
  bounds := fun group => (fits.bounds group).records
  frames := fun index frame read => (fits.frames index frame read).records

theorem Fits.span? (fits : store.Fits attempt) {group start stop : Nat}
    (found : store.span? group = some (start, stop)) :
    start ≤ attempt.range ∧ stop ≤ attempt.range :=
  fits.records.span? found

theorem Fits.spanAtLevel? (fits : store.Fits attempt) {groups : List Nat} {wanted : Int}
    {first last : Nat} (found : store.stack.spanAtLevel? groups wanted = some (first, last)) :
    first ≤ attempt.range ∧ last ≤ attempt.range :=
  fits.records.spanAtLevel? found

namespace Fits

theorem push (fits : store.Fits attempt) {frame : Frame} (own : frame.Fits attempt) :
    (store.push frame).Fits attempt where
  groupSlots := fits.groupSlots
  repeatSlots := fits.repeatSlots
  bounds := fits.bounds
  frames := fits.frames.push own

theorem setGroup (fits : store.Fits attempt) (group : Nat) {bounds : Bounds}
    (own : bounds.Fits attempt.range) : (store.setGroup group bounds).Fits attempt where
  groupSlots := by
    rw [← fits.groupSlots]
    exact Array.size_setIfInBounds
  repeatSlots := fits.repeatSlots
  bounds := by
    intro other
    rcases store.boundsOf_setGroup_or group bounds other with same | ⟨_, same⟩
    · rw [same]
      exact fits.bounds other
    · rw [same]
      exact own
  frames := fits.frames

theorem setRepeat (fits : store.Fits attempt) (id : Nat) (register : RepeatRegister) :
    (store.setRepeat id register).Fits attempt where
  groupSlots := fits.groupSlots
  repeatSlots := by
    rw [← fits.repeatSlots]
    exact Array.size_setIfInBounds
  bounds := fits.bounds
  frames := fits.frames

theorem setEntryCount (fits : store.Fits attempt) (index count : Nat) :
    { store with stack := store.stack.setEntryCount index count : Store }.Fits attempt where
  groupSlots := fits.groupSlots
  repeatSlots := fits.repeatSlots
  bounds := fits.bounds
  frames := by
    refine fits.frames.setEntryCount (fun frame count good => ?_) index count
    cases frame <;> exact good

theorem lower (store : Store) (frame : Frame) (fits : (store.push frame).Fits attempt) :
    store.Fits attempt where
  groupSlots := fits.groupSlots
  repeatSlots := fits.repeatSlots
  bounds := fits.bounds
  frames := fits.frames.lower

theorem restore (store : Store) (frame : Frame) (fits : (store.push frame).Fits attempt) :
    (store.restore frame).Fits attempt := by
  have own : frame.Fits attempt := fits.frames.top
  have below := fits.lower
  cases frame with
  | groupStart group position saved => exact below.setGroup group own.2.2
  | groupEnd group position saved => exact below.setGroup group own.2.2
  | entryCount index savedCount => exact below.setEntryCount index savedCount
  | repeatEntry id count body outer savedCount => exact below.setRepeat id _
  | registerCount id savedCount => exact below.setRepeat id _
  | _ => exact below

theorem unwind (fits : store.Fits attempt) (test : Frame → Bool) :
    (store.unwind test).2.Fits attempt :=
  unwind_invariant test (fun store frame _ => lower store frame) restore fits

theorem commit (fits : store.Fits attempt) (mark : Mark) :
    (store.commit mark).2.Fits attempt where
  groupSlots := fits.groupSlots
  repeatSlots := fits.repeatSlots
  bounds := fits.bounds
  frames := by
    refine fits.frames.commit (fun frame good => ?_) trivial mark
    cases frame <;> first | exact good | exact trivial

theorem onStore (fits : store.Fits attempt) {effect : Effect} (own : effect.Fits attempt) :
    (effect.onStore store).Fits attempt := by
  cases effect with
  | note event => exact fits
  | push frame => exact fits.push own
  | openGroup group position =>
      have pushed : (Frame.groupStart group position
          (store.registers.boundsOf group)).Fits attempt := by
        refine ⟨own.1, ?_, fits.bounds group⟩
        intro found same
        cases same
        exact own.2
      refine (fits.push pushed).setGroup group ⟨?_, ?_⟩ <;> intro found isDirect <;> cases isDirect
  | closeGroup group position =>
      have pushed : (Frame.groupEnd group position
          (store.registers.boundsOf group)).Fits attempt := by
        refine ⟨own.1, ?_, fits.bounds group⟩
        intro found same
        cases same
        exact own.2
      refine (fits.push pushed).setGroup group ⟨(fits.bounds group).start, ?_⟩
      intro found isDirect
      cases isDirect
  | clearGroup group =>
      have pushed : (Frame.groupStart group none
          (store.registers.boundsOf group)).Fits attempt := by
        refine ⟨own, ?_, fits.bounds group⟩
        intro found same
        cases same
      exact (fits.push pushed).setGroup group .unset
  | setGroup group bounds => exact fits.setGroup group own.2
  | enterRepeat id body =>
      have pushed : (Frame.repeatEntry id 0 body (store.registers.repeatOf id).entry
          (store.registers.repeatOf id).count).Fits attempt := own
      exact (fits.push pushed).setRepeat id _
  | countInEntry index => exact (fits.setEntryCount index _).push trivial
  | countInRegister id =>
      have pushed : (Frame.registerCount id (store.registers.repeatOf id).count).Fits attempt := own
      exact (fits.push pushed).setRepeat id _
  | discard => exact discard_invariant lower fits
  | commit mark => exact fits.commit mark
  | unwindTo mark => exact fits.unwind _

theorem reset (groupSlots : store.registers.groups.size = attempt.program.regionSize)
    (repeatSlots : store.registers.repeats.size = attempt.program.repeatRanges.size) :
    store.reset.Fits attempt where
  groupSlots := by
    rw [← groupSlots]
    exact Array.size_replicate
  repeatSlots := by
    rw [← repeatSlots]
    exact Array.size_replicate
  bounds := by
    intro group
    rw [store.boundsOf_reset]
    exact .unset
  frames := .empty

/-- A store reports only regions that fit. -/
theorem region (fits : store.Fits attempt) {start stop : Nat} (starts : start ≤ attempt.range)
    (stops : stop ≤ attempt.range) :
    (store.region attempt.program.regionSize start stop).Fits attempt := by
  have spans : ∀ group first last,
      (if group = 0 then some (start, stop) else store.span? group) = some (first, last) →
        first ≤ attempt.range ∧ last ≤ attempt.range := by
    intro group first last found
    split at found
    · cases found
      exact ⟨starts, stops⟩
    · exact fits.span? found
  constructor
  · simp [Store.region]
  · simp [Store.region]
  · intro bound held position isSet
    subst isSet
    simp only [Store.region, Array.map_map, Array.mem_map, Function.comp_apply,
      Option.map_eq_some_iff, Prod.exists, exists_and_right, exists_eq_right] at held
    rcases held with ⟨group, _, last, found⟩ | ⟨group, _, first, found⟩
    · exact (spans group position last found).1
    · exact (spans group first position found).2

end Fits

end Store

end PatternMachine
