import PatternMachine.Search.Setting
import PatternMachine.Search.Store

/-!
# Back references

A back reference consumes what a group has captured.  Most of them ask the registers where the group
lies; the one for a call level reads the stack instead, where every instance of a group that is
still on the current path has left its frames.
-/

namespace PatternMachine

/-- One step down the stack in the search for a closed instance of one of several groups at a call
level.  The state is the level of the frame relative to where the search stands, and the end of an
instance that has been passed and whose start is looked for; the answer is that instance. -/
@[inline] def visitInstance (groups : List Nat) (wanted : Int) (frame : Frame) :
    Int × Option Nat → Except (Nat × Nat) (Int × Option Nat)
  | (level, stop) =>
    let listed (group : Nat) : Bool := level == wanted && groups.contains group
    match frame with
    | .call _ => .ok (level - 1, stop)
    | .returned => .ok (level + 1, stop)
    | .groupEnd group (some position) _ =>
      .ok (level, if listed group then some position else stop)
    | .groupStart group (some position) _ =>
      match stop with
      | some last => if listed group then .error (position, last) else .ok (level, stop)
      | none => .ok (level, none)
    | _ => .ok (level, stop)

/-- The span of the most recently closed instance of one of several groups at a call level. -/
def Stack.spanAtLevel? (stack : Stack) (groups : List Nat) (wanted : Int) : Option (Nat × Nat) :=
  stack.seek (visitInstance groups wanted) (0, none)

namespace Attempt

/-- The position behind a repetition of what lies from `first` to `last`. -/
def matchCaptured? (attempt : Attempt) (first last position : Nat) (ignoreCase : Bool) :
    Option Nat :=
  attempt.text.matchExcerpt? position attempt.range (.captured attempt.text first last) ignoreCase

/-- The position behind a repetition of one group.  A group that is not set is repeated by nothing
at all. -/
def repeatGroup? (attempt : Attempt) (store : Store) (position group : Nat) (ignoreCase : Bool) :
    Except Corruption (Option Nat) :=
  if attempt.program.hasGroup group then
    match store.span? group with
    | some (first, last) =>
      .ok (attempt.matchCaptured? first last position ignoreCase)
    | none => .ok (some position)
  else
    .error (.invalidGroup group)

/-- The position behind a repetition of the first of several groups that is set and repeated. -/
def repeatAny? (attempt : Attempt) (store : Store) (position : Nat) (ignoreCase : Bool) :
    List Nat → Except Corruption (Option Nat)
  | [] => .ok none
  | group :: others =>
    if attempt.program.hasGroup group then
      match store.span? group with
      | some (first, last) =>
        match attempt.matchCaptured? first last position ignoreCase with
        | some stop => .ok (some stop)
        | none => repeatAny? attempt store position ignoreCase others
      | none => repeatAny? attempt store position ignoreCase others
    else
      .error (.invalidGroup group)

/-- The position behind a repetition of a group's instance at a call level. -/
def repeatAtLevel? (attempt : Attempt) (store : Store) (position : Nat) (ignoreCase : Bool)
    (level : Int) (groups : List Nat) : Except Corruption (Option Nat) :=
  match groups.find? fun group => !attempt.program.hasGroup group with
  | some group => .error (.invalidGroup group)
  | none =>
    .ok ((store.stack.spanAtLevel? groups level).bind fun (first, last) =>
      attempt.matchCaptured? first last position ignoreCase)

end Attempt

open Attempt in
/-- The position behind what a reference consumes at `position`. -/
def BackReference.repeat? (attempt : Attempt) (store : Store) (position : Nat) :
    BackReference → Except Corruption (Option Nat)
  | .first => repeatGroup? attempt store position 1 attempt.ignoresCase
  | .second => repeatGroup? attempt store position 2 attempt.ignoresCase
  | .group number folded =>
    repeatGroup? attempt store position number (folded || attempt.ignoresCase)
  | .anyOf numbers folded =>
    repeatAny? attempt store position (folded || attempt.ignoresCase) numbers
  | .atLevel folded level numbers => repeatAtLevel? attempt store position folded level numbers

end PatternMachine
