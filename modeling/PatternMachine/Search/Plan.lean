import PatternMachine.Outcome
import PatternMachine.Search.Star
import PatternMachine.Search.Store

/-!
# Plans

What an instruction does is written as a plan: the effects it has on the store, in order, and the
way it leaves.  A plan is made by looking at the store alone, so it knows nothing of limits, hooks
and clocks; those come in only when it is carried out.
-/

namespace PatternMachine

/-- What a run reports while it goes on. -/
inductive Event where
  /-- The run starts. -/
  | started (start range textSize codeSize : Nat)
  /-- An instruction is dispatched. -/
  | dispatched (point : Point) (depth : Nat)
  /-- An iteration turned out empty. -/
  | emptyIteration (address id position : Nat)
  /-- The run ends. -/
  | ended (outcome : Outcome)
  deriving DecidableEq, Repr

/-- One change that an instruction makes. -/
inductive Effect where
  /-- Something is reported. -/
  | note (event : Event)
  /-- A frame that saves nothing is pushed. -/
  | push (frame : Frame)
  /-- A group is opened, to be undone. -/
  | openGroup (group position : Nat)
  /-- A group is closed, to be undone. -/
  | closeGroup (group position : Nat)
  /-- A group is unset, to be undone. -/
  | clearGroup (group : Nat)
  /-- The bounds of a group are written for good. -/
  | setGroup (group : Nat) (bounds : Bounds)
  /-- A repeat is entered, to be undone. -/
  | enterRepeat (id body : Nat)
  /-- An iteration is counted in a frame, to be undone. -/
  | countInEntry (index : Nat)
  /-- An iteration is counted in a register, to be undone. -/
  | countInRegister (id : Nat)
  /-- The top frame is thrown away. -/
  | discard
  /-- The choices inside a bracket are given up. -/
  | commit (mark : Mark)
  /-- Everything since a mark is undone. -/
  | unwindTo (mark : Mark)
  deriving DecidableEq, Repr

namespace Effect

/-- What an effect makes of a store with room for one more frame. -/
@[inline] def onStore (store : Store) : Effect → Store
  | .note _ => store
  | .push frame => store.push frame
  | .openGroup group position => store.openGroup group position
  | .closeGroup group position => store.closeGroup group position
  | .clearGroup group => store.clearGroup group
  | .setGroup group bounds => store.setGroup group bounds
  | .enterRepeat id body => store.enterRepeat id body
  | .countInEntry index => store.countInEntry index
  | .countInRegister id => store.countInRegister id
  | .discard => store.discard.2
  | .commit mark => (store.commit mark).2
  | .unwindTo mark => (store.unwindTo mark).2

/-- Whether an effect pushes a frame.  None pushes more than one. -/
@[inline] def needsRoom : Effect → Bool
  | .push _ | .openGroup .. | .closeGroup .. | .clearGroup _ | .enterRepeat .. | .countInEntry _
  | .countInRegister _ => true
  | _ => false

end Effect

/-- How an instruction leaves. -/
inductive Exit where
  /-- The search goes on at a point. -/
  | goto (point : Point)
  /-- The search goes back to the latest choice. -/
  | fail
  /-- A star takes one character after the other. -/
  | sweep (star : Star)
  /-- A star that takes everything goes from one occurrence of a byte to the next. -/
  | leap (star : Star) (byte : UInt8)
  /-- The position ends a candidate. -/
  | accept
  /-- The run ends with the best candidate. -/
  | finish
  /-- The program is malformed. -/
  | corrupt (reason : Corruption)
  deriving DecidableEq, Repr

/-- The address behind the instruction at a point. -/
@[inline] def Point.next (point : Point) : Nat :=
  point.address + 1

/-- The effects of an instruction, and how it leaves. -/
structure Plan where
  effects : List Effect
  exit : Exit
  deriving DecidableEq, Repr

namespace Plan

/-- Has effects and goes on. -/
@[inline] def goto (address : Nat) (cursor : Cursor) (effects : List Effect := []) : Plan :=
  ⟨effects, .goto ⟨address, cursor⟩⟩

/-- Has no effect and fails. -/
@[inline] def fail : Plan :=
  ⟨[], .fail⟩

/-- Finds the program malformed. -/
@[inline] def corrupt (reason : Corruption) : Plan :=
  ⟨[], .corrupt reason⟩

/-- Goes on at an address with what was consumed, or fails if nothing could be. -/
@[inline] def consumed (address : Nat) : Option Cursor → Plan
  | some cursor => goto address cursor
  | none => fail

/-- Goes on at an address if a condition holds, and fails otherwise. -/
@[inline] def check (address : Nat) (cursor : Cursor) (holds : Bool) : Plan :=
  if holds then goto address cursor else fail

end Plan

end PatternMachine
