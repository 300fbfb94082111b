import PatternMachine.Search.Plan.Bracket
import PatternMachine.Search.Plan.Capture
import PatternMachine.Search.Plan.Consume
import PatternMachine.Search.Plan.Loop
import PatternMachine.Search.Assertion

/-!
# What instructions mean

`Plan.ofInstruction` says what every instruction does at a point of a search.  An operand that the
program has no entry for is reported as soon as it is looked at: as a rule before anything else, in
the case of a class when there is a character to test, and in a list of groups when those before it
have failed.
-/

namespace PatternMachine

variable (attempt : Attempt) (point : Point) (store : Store)

namespace Plan

/-- What an instruction does at a point of a search. -/
@[inline] def ofInstruction : Instruction → Plan
  | .accept => ⟨[], .accept⟩
  | .finish => ⟨[], .finish⟩
  | .fail => .fail
  | .byte value => literalByte attempt point value
  | .bytes content => literal attempt point (.whole ⟨content, attempt.program.encoding⟩)
  | .template index offset length =>
    match attempt.program.literal? index offset length with
    | some excerpt => literal attempt point excerpt
    | none => .corrupt (.invalidTemplate index)
  | .foldedChar code => oneChar attempt point fun found => attempt.text.encoding.fold found == code
  | .foldedChars codes => foldedChars attempt point codes
  | .charClass operand => charClass attempt point operand
  | .anyChar acrossLines => anyChar attempt point acrossLines
  | .anyCharStar acrossLines peeked => anyCharStar attempt point acrossLines peeked
  | .word wanted => oneChar attempt point fun found => attempt.text.encoding.isWord found == wanted
  | .assert assertion =>
    .check point.next point.cursor
      (assertion.holds attempt.text attempt.options attempt.range attempt.input.searchStart
        point.cursor)
  | .openGroup group logged => openGroup attempt point store group logged
  | .closeGroup group logged => closeGroup attempt point store group logged
  | .clearGroups first stop => clearGroups attempt point first stop
  | .backReference reference => backReference attempt point store reference
  | .emptyCheckStart id => emptyCheckStart attempt point id
  | .emptyCheckEnd id watched => emptyCheckEnd attempt point store id watched
  | .jump offset => branch attempt point offset fun target => .goto target point.cursor
  | .push offset =>
    branch attempt point offset fun target =>
      .goto point.next point.cursor [choiceAt point target]
  | .pop => pop point store
  | .pushOrJump offset next =>
    branch attempt point offset fun target =>
      if nextIs attempt point next then .goto point.next point.cursor [choiceAt point target]
      else .goto target point.cursor
  | .pushIfNext offset next =>
    branch attempt point offset fun target =>
      .goto point.next point.cursor
        (if nextIs attempt point next then [choiceAt point target] else [])
  | .repeatStart id offset greedy => repeatStart attempt point id offset greedy
  | .repeatNext id greedy direct => repeatNext attempt point store id greedy direct
  | .lookStart => .goto point.next point.cursor [.push (.look point.cursor)]
  | .lookEnd => lookEnd point store
  | .lookNotStart offset =>
    branch attempt point offset fun target =>
      .goto point.next point.cursor [.push (.lookNot ⟨target, point.cursor⟩)]
  | .lookNotFail => excluded store .lookNot
  | .atomicStart => .goto point.next point.cursor [.push .atomic]
  | .atomicEnd => atomicEnd point store
  | .lookBehind length => lookBehind attempt point length
  | .lookBehindNotStart offset length => lookBehindNotStart attempt point offset length
  | .lookBehindNotFail => excluded store .behindNot
  | .call target => call attempt point target
  | .callReturn => callReturn point store

end Plan

end PatternMachine
