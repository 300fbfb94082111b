import PatternMachine.Search.Plan.Branch

/-!
# Loops

A loop that may iterate without consuming anything is guarded by a check: an empty iteration steps
over the way back, so the loop ends.  A bounded repeat counts its iterations and stays in its range.
-/

namespace PatternMachine

variable (attempt : Attempt) (point : Point) (store : Store)

namespace Plan

/-- Starts an iteration that may turn out empty. -/
def emptyCheckStart (id : Nat) : Plan :=
  if id < attempt.program.emptyCheckCount then
    .goto point.next point.cursor [.push (.emptyCheck id point.cursor.position)]
  else
    .corrupt (.invalidEmptyCheck id)

/-- Whether the iteration that the frame at an index started has consumed nothing and changed none
of the watched groups. -/
def iterationEmpty (index : Nat) (watched : Option (List Nat)) : Bool :=
  match store.stack.get? index with
  | some (.emptyCheck _ start) =>
    start == point.cursor.position &&
      match watched with
      | some groups => store.groupsUnchanged index groups
      | none => true
  | _ => false

/-- Ends an iteration, and steps over the loop's way back if it was empty. -/
def emptyCheckEnd (id : Nat) (watched : Option (List Nat)) : Plan :=
  if id < attempt.program.emptyCheckCount then
    match store.stack.emptyCheck? id with
    | none => .corrupt (.missingMark Mark.emptyCheck.name)
    | some index =>
      if iterationEmpty point store index watched then
        let report : Effect := .note (.emptyIteration point.address id point.cursor.position)
        let loopBack := attempt.program.code[point.next]?.map Instruction.isLoopBack
        if loopBack = some true then
          .goto (point.next + 1) point.cursor [report]
        else
          ⟨[report], .corrupt .noLoopBack⟩
      else
        .goto point.next point.cursor
  else
    .corrupt (.invalidEmptyCheck id)

/-- Enters a repeat.  If no iteration is required, the exit is an alternative to the body: the
second one for a greedy repeat, the first one for a lazy repeat. -/
def repeatStart (id : Nat) (offset : Int) (greedy : Bool) : Plan :=
  match attempt.program.repeatRanges[id]? with
  | none => .corrupt (.invalidRepeat id)
  | some range =>
    branch attempt point offset fun exit =>
      let body := point.next
      let enter : Effect := .enterRepeat id body
      if range.lower = 0 then
        if greedy then .goto body point.cursor [enter, choiceAt point exit]
        else .goto exit point.cursor [enter, choiceAt point body]
      else
        .goto body point.cursor [enter]

/-- Where a repeat goes after `count` iterations, if `record` is what counts the latest one.  While
fewer than `lower` are done it iterates, from `upper` on it leaves, and in between it tries both, in
the order of its kind. -/
def afterIteration (range : RepeatRange) (count body : Nat) (greedy : Bool) (record : Effect) :
    Plan :=
  if range.upper ≤ count then
    .goto point.next point.cursor [record]
  else if count < range.lower then
    .goto body point.cursor [record]
  else if greedy then
    .goto body point.cursor [choiceAt point point.next, record]
  else
    .goto point.next point.cursor [record, choiceAt point body]

/-- Ends an iteration of a repeat. -/
def repeatNext (id : Nat) (greedy direct : Bool) : Plan :=
  match attempt.program.repeatRanges[id]? with
  | none => .corrupt (.invalidRepeat id)
  | some range =>
    let register := store.registers.repeatOf id
    match register.entry with
    | none => .corrupt (.repeatNotEntered id)
    | some index =>
      if direct then
        afterIteration point range (nextIteration register.count) register.body greedy
          (.countInRegister id)
      else
        match store.stack.entry? index with
        | some (count, body) =>
          afterIteration point range (nextIteration count) body greedy (.countInEntry index)
        | none => .corrupt (.repeatNotEntered id)

end Plan

end PatternMachine
