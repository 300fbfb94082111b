import PatternMachine.Proofs.Padding.Stacks
import PatternMachine.Proofs.References
import PatternMachine.Proofs.Rooted

/-!
# Padded stores

A store pads another if its stack does and its registers are the same but for references
(`Store.Pads`).  Both have the same captures and counts, and an effect makes of them two stores of
which one pads the other, if it is told of the right references.
-/

namespace PatternMachine

section

variable (place : Nat → Nat)

/-- The register of a repeat with its reference changed. -/
def RepeatRegister.renumber (register : RepeatRegister) : RepeatRegister :=
  { register with entry := register.entry.map place }

/-- Registers with their references changed. -/
def Registers.renumber (registers : Registers) : Registers :=
  ⟨registers.groups.map (Bounds.renumber place),
    registers.repeats.map (RepeatRegister.renumber place)⟩

/-- An effect with its references changed. -/
def Effect.renumber : Effect → Effect
  | .setGroup group bounds => .setGroup group (bounds.renumber place)
  | .countInEntry index => .countInEntry (place index)
  | other => other

end

variable {place : Nat → Nat}

namespace Registers

variable (registers : Registers)

@[simp] theorem boundsOf_renumber (group : Nat) :
    (registers.renumber place).boundsOf group = (registers.boundsOf group).renumber place := by
  simp only [renumber, boundsOf, Array.getD_eq_getD_getElem?, Array.getElem?_map]
  cases registers.groups[group]? <;> rfl

@[simp] theorem repeatOf_renumber (id : Nat) :
    (registers.renumber place).repeatOf id = (registers.repeatOf id).renumber place := by
  simp only [renumber, repeatOf, Array.getD_eq_getD_getElem?, Array.getElem?_map]
  cases registers.repeats[id]? <;> rfl

theorem renumber_setGroup (group : Nat) (bounds : Bounds) :
    (registers.setGroup group bounds).renumber place =
      (registers.renumber place).setGroup group (bounds.renumber place) := by
  simp only [renumber, setGroup, Array.map_setIfInBounds]

theorem renumber_setRepeat (id : Nat) (register : RepeatRegister) :
    (registers.setRepeat id register).renumber place =
      (registers.renumber place).setRepeat id (register.renumber place) := by
  simp only [renumber, setRepeat, Array.map_setIfInBounds]

/-- References change in the same way if the frames referred to do. -/
theorem renumber_congr {place' : Nat → Nat} {limit : Nat}
    (groups : ∀ group, (registers.boundsOf group).Below limit)
    (repeats : ∀ id index, (registers.repeatOf id).entry = some index → index < limit)
    (same : ∀ index < limit, place' index = place index) :
    registers.renumber place' = registers.renumber place := by
  simp only [renumber, mk.injEq]
  constructor
  · apply Array.ext_getElem?
    intro group
    have below := groups group
    rw [boundsOf, Array.getD_eq_getD_getElem?] at below
    rw [Array.getElem?_map, Array.getElem?_map]
    cases read : registers.groups[group]? with
    | none => rfl
    | some bounds =>
        rw [read] at below
        exact congrArg some (Bounds.renumber_congr below same)
  · apply Array.ext_getElem?
    intro id
    have below := repeats id
    rw [repeatOf, Array.getD_eq_getD_getElem?] at below
    rw [Array.getElem?_map, Array.getElem?_map]
    cases read : registers.repeats[id]? with
    | none => rfl
    | some register =>
        rw [read] at below
        refine congrArg some ?_
        rw [RepeatRegister.renumber, RepeatRegister.renumber]
        cases isActive : register.entry with
        | none => rfl
        | some index => rw [Option.map_some, Option.map_some, same index (below index isActive)]

end Registers

theorem Bounds.RootedIn.below {stack : Stack} {group limit : Nat} {bounds : Bounds}
    (rooted : bounds.RootedIn stack group limit) : bounds.Below limit := by
  rintro index (same | same)
  · exact (rooted.start index same).1
  · exact (rooted.stop index same).1

namespace Store

/-- Whether a store is like another one, with a stack that pads the other one's. -/
structure Pads (barren : Point → Bool) (place : Nat → Nat) (left right : Store) : Prop where
  stack : left.stack.Pads barren place right.stack
  registers : right.registers = left.registers.renumber place

namespace Pads

variable {barren : Point → Bool} {left right : Store} (pads : left.Pads barren place right)

theorem reset (store : Store) : store.reset.Pads barren id store.reset where
  stack := .empty
  registers := by
    simp [Store.reset, Registers.reset, Registers.blank, Registers.renumber, Bounds.renumber,
      Bounds.unset, Bound.renumber, RepeatRegister.renumber, RepeatRegister.idle]

include pads

/-! ### What stores tell -/

theorem place_depth : place left.depth = right.depth :=
  pads.stack.place_depth

theorem boundsOf_eq (group : Nat) :
    right.registers.boundsOf group = (left.registers.boundsOf group).renumber place := by
  rw [pads.registers, Registers.boundsOf_renumber]

theorem repeatOf_eq (id : Nat) :
    right.registers.repeatOf id = (left.registers.repeatOf id).renumber place := by
  rw [pads.registers, Registers.repeatOf_renumber]

theorem resolve?_eq (bound : Bound) : right.resolve? (bound.renumber place) = left.resolve? bound := by
  cases bound with
  | inFrame index => exact pads.stack.get?_bind (fun _ frame => frame.position?_renumber) index
  | _ => rfl

theorem resolveBounds_eq (bounds : Bounds) :
    right.resolveBounds (bounds.renumber place) = left.resolveBounds bounds :=
  Prod.ext (pads.resolve?_eq bounds.start) (pads.resolve?_eq bounds.stop)

theorem span?_eq (group : Nat) : right.span? group = left.span? group := by
  rw [span?, span?, pads.boundsOf_eq, pads.resolveBounds_eq]

theorem groupsUnchanged_eq (rooted : left.Rooted) {index : Nat} (inside : index < left.depth)
    (groups : List Nat) :
    right.groupsUnchanged (place index) groups = left.groupsUnchanged index groups := by
  have before : ∀ group, right.boundsBefore? (place index) group =
      (left.boundsBefore? index group).map (Bounds.renumber place) := by
    refine pads.stack.firstAbove?_eq ?_ inside
    intro other frame group bounds read saves
    exact (rooted.saved other frame group bounds read saves).below
  rw [groupsUnchanged, groupsUnchanged]
  refine congrArg (List.all groups) (funext fun group => ?_)
  rw [before]
  cases left.boundsBefore? index group with
  | none => rfl
  | some bounds =>
      simp only [Option.map_some, pads.boundsOf_eq, pads.resolveBounds_eq]

/-! ### What effects make of them -/

theorem both (frame : Frame) :
    (left.push frame).Pads barren place (right.push (frame.renumber place)) :=
  ⟨pads.stack.both frame, pads.registers⟩

theorem setGroup (group : Nat) (bounds : Bounds) :
    (left.setGroup group bounds).Pads barren place
      (right.setGroup group (bounds.renumber place)) where
  stack := pads.stack
  registers := by
    rw [Store.setGroup, Store.setGroup, Registers.renumber_setGroup, pads.registers]

theorem setRepeat (id : Nat) (register : RepeatRegister) :
    (left.setRepeat id register).Pads barren place
      (right.setRepeat id (register.renumber place)) where
  stack := pads.stack
  registers := by
    rw [Store.setRepeat, Store.setRepeat, Registers.renumber_setRepeat, pads.registers]

theorem setEntryCount (index count : Nat) :
    ({ left with stack := left.stack.setEntryCount index count } : Store).Pads barren place
      { right with stack := right.stack.setEntryCount (place index) count } :=
  ⟨pads.stack.setEntryCount index count, pads.registers⟩

theorem commit (mark : Mark) : (left.commit mark).2.Pads barren place (right.commit mark).2 :=
  ⟨pads.stack.commit mark, pads.registers⟩

/-- An idle frame makes no difference if no register refers to frames that are not there. -/
theorem extra (grounded : left.Grounded)
    (entered : ∀ id index, left.active id = some index → index < left.depth) {frame : Frame}
    (idle : frame.Idle barren) :
    left.Pads barren (Stack.raise left.depth place) (right.push frame) where
  stack := pads.stack.extra idle
  registers := by
    refine pads.registers.trans (Registers.renumber_congr _ grounded entered ?_).symm
    exact fun index below => Stack.raise_of_lt below place

theorem restore (frame : Frame) :
    (left.restore frame).Pads barren place (right.restore (frame.renumber place)) := by
  cases frame with
  | groupStart group position saved | groupEnd group position saved =>
      exact pads.setGroup group saved
  | repeatEntry id count body outer savedCount =>
      have restored := pads.setRepeat id
        { left.registers.repeatOf id with entry := outer, count := savedCount }
      simp only [Frame.renumber, Store.restore, pads.repeatOf_eq]
      exact restored
  | registerCount id savedCount =>
      have restored := pads.setRepeat id { left.registers.repeatOf id with count := savedCount }
      simp only [Frame.renumber, Store.restore, pads.repeatOf_eq]
      exact restored
  | entryCount index savedCount => exact pads.setEntryCount index savedCount
  | _ => exact pads

/-- Every effect but to throw a frame away, or to undo what was done since a mark, keeps frames at
their places. -/
theorem onStore {effect : Effect} (pushes : ∀ frame, effect = .push frame → frame.savesNothing = true)
    (stays : effect ≠ .discard) (keeps : ∀ mark, effect ≠ .unwindTo mark) :
    (effect.onStore left).Pads barren place ((effect.renumber place).onStore right) := by
  cases effect with
  | note event => exact pads
  | push frame =>
      have same : frame.renumber place = frame := by
        have nothing := pushes frame rfl
        cases frame <;> first | rfl | cases nothing
      have both := pads.both frame
      rwa [same] at both
  | openGroup group position =>
      simp only [Effect.onStore, Effect.renumber, openGroup, pads.boundsOf_eq, ← pads.place_depth]
      exact (pads.both (.groupStart group position _)).setGroup group ⟨.inFrame left.depth, .unset⟩
  | closeGroup group position =>
      simp only [Effect.onStore, Effect.renumber, closeGroup, pads.boundsOf_eq, ← pads.place_depth]
      exact (pads.both (.groupEnd group position _)).setGroup group ⟨_, .inFrame left.depth⟩
  | clearGroup group =>
      simp only [Effect.onStore, Effect.renumber, clearGroup, pads.boundsOf_eq]
      exact (pads.both (.groupStart group none _)).setGroup group .unset
  | setGroup group bounds => exact pads.setGroup group bounds
  | enterRepeat id body =>
      simp only [Effect.onStore, Effect.renumber, enterRepeat, pads.repeatOf_eq, ← pads.place_depth]
      exact (pads.both (.repeatEntry id 0 body _ _)).setRepeat id ⟨some left.depth, 0, body⟩
  | countInEntry index =>
      simp only [Effect.onStore, Effect.renumber, countInEntry, pads.stack.entry?_eq]
      exact (pads.setEntryCount index _).both (.entryCount index _)
  | countInRegister id =>
      simp only [Effect.onStore, Effect.renumber, countInRegister, pads.repeatOf_eq]
      exact (pads.both (.registerCount id _)).setRepeat id
        { left.registers.repeatOf id with
          count := nextIteration (left.registers.repeatOf id).count }
  | commit mark => exact pads.commit mark
  | discard => exact absurd rfl stays
  | unwindTo mark => exact absurd rfl (keeps mark)

end Pads

section

variable {program : Program} {barren : Point → Bool} {left right : Store}

/-- What is on top of two stores of which one pads the other. -/
theorem Pads.top_cases (pads : left.Pads barren place right) (rooted : left.Rooted)
    (anchored : left.Anchored program) :
    (left.stack = .empty ∧ right.stack = .empty) ∨
    (∃ place' below frame, right = push below frame ∧ frame.Idle barren ∧
      left.Pads barren place' below) ∨
    ∃ lower below frame, left = push lower frame ∧ right = push below (frame.renumber place) ∧
      lower.Pads barren place below := by
  obtain ⟨stack, registers⟩ := left
  obtain ⟨stack', registers'⟩ := right
  obtain ⟨padded, same⟩ := pads
  cases padded with
  | empty => exact .inl ⟨rfl, rfl⟩
  | @extra place' _ below frame padded idle =>
      refine .inr (.inl ⟨place', ⟨below, registers'⟩, frame, rfl, idle, padded, ?_⟩)
      refine same.trans (Registers.renumber_congr _ rooted.grounded ?_ ?_)
      · exact fun id index isActive => (anchored.active id index isActive).lt_depth
      · exact fun index below => Stack.raise_of_lt below place'
  | @both _ lower below padded frame =>
      exact .inr (.inr ⟨⟨lower, registers⟩, ⟨below, registers'⟩, frame, rfl, rfl, padded, same⟩)

/-- Both stores are taken back to the same frame, if that is looked for in a way that passes over
idle frames. -/
theorem Pads.unwind {test : Frame → Bool}
    (passes : ∀ frame, frame.Idle barren → test frame = false)
    (same : ∀ place frame, test (Frame.renumber place frame) = test frame)
    (pads : left.Pads barren place right) (rooted : left.Rooted)
    (anchored : left.Anchored program) :
    ∃ place', (left.unwind test).2.Pads barren place' (right.unwind test).2 ∧
      (right.unwind test).1 = (left.unwind test).1.map (Frame.renumber place') := by
  induction depth : right.depth using Nat.strongRecOn generalizing place left right with
  | ind depth' ih =>
      rcases pads.top_cases rooted anchored with
        ⟨empty, empty'⟩ | ⟨place', below, frame, rfl, idle, lowered⟩ |
          ⟨lower, below, frame, rfl, rfl, lowered⟩
      · obtain ⟨stack, registers⟩ := left
        obtain ⟨stack', registers'⟩ := right
        obtain rfl : stack = .empty := empty
        obtain rfl : stack' = .empty := empty'
        rw [unwind_blank, unwind_blank]
        exact ⟨place, pads, rfl⟩
      · rw [depth_push] at depth
        have restored : below.restore frame = below := by
          cases idle <;> rfl
        rw [unwind_push, passes frame idle, if_neg Bool.noConfusion, restored]
        exact ih _ (Nat.lt_of_succ_le (Nat.le_of_eq depth)) lowered rooted anchored rfl
      · rw [depth_push] at depth
        rw [unwind_push, unwind_push, same]
        split
        · exact ⟨place, lowered, rfl⟩
        · exact ih _ (Nat.lt_of_succ_le (Nat.le_of_eq depth)) (lowered.restore frame)
            (Rooted.restore _ frame rooted) (Anchored.restore _ frame anchored)
            (depth_restore ..)

end

end Store

end PatternMachine
