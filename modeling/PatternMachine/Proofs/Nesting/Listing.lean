import PatternMachine.Proofs.Nesting.Brackets

/-!
# Checked listings

A listing gives each instruction of a program the brackets that are open where it stands.
`Listing.Permits` says for each kind of instruction what the contexts around it have to be, as the
rules of a type system do, and a listing in which every instruction is permitted checks its program.
`Listing.Permits.safe` is what the rules are for: where the brackets of its context are open, an
instruction of a checked program makes only safe moves (`Listing.Safe`), none of which finds the
program malformed.
-/

namespace PatternMachine

/-! ### Instructions without brackets -/

/-- The groups that a back reference names. -/
def BackReference.groups : BackReference → List Nat
  | .first => [1]
  | .second => [2]
  | .group number _ => [number]
  | .anyOf numbers _ | .atLevel _ _ numbers => numbers

/-- Whether an instruction only consumes, asserts something about the position or fails, and a
program has all that its operands name. -/
def Instruction.isLeaf (program : Program) : Instruction → Bool
  | .fail | .byte _ | .bytes _ | .foldedChar _ | .foldedChars _ | .anyChar _ | .anyCharStar ..
  | .word _ | .assert _ | .lookBehind _ => true
  | .template index offset length => (program.literal? index offset length).isSome
  | .charClass operand => (operand.resolve? program.classes).isOk
  | .backReference reference => reference.groups.all program.hasGroup
  | _ => false

/-! ### Listings -/

/-- An instruction, and the brackets that are open where it stands, the innermost first. -/
structure Line where
  instruction : Instruction
  context : List Bracket
  deriving DecidableEq

/-- The instructions of a program with their contexts. -/
abbrev Listing := List Line

namespace Listing

/-- Whether control may come to an address when brackets are open.  Those around the innermost ones
that the code there needs to be open are enough. -/
def Admits (listing : Listing) (address : Nat) (context : List Bracket) : Prop :=
  ∃ line, listing[address]? = some line ∧ line.context <:+ context

theorem Admits.mono {listing : Listing} {address : Nat} {inner context : List Bracket}
    (admits : listing.Admits address inner) (within : inner <:+ context) :
    listing.Admits address context := by
  obtain ⟨line, found, suffix⟩ := admits
  exact ⟨line, found, suffix.trans within⟩

/-- Whether an instruction may stand at an address in a context. -/
inductive Permits (program : Program) (listing : Listing) (address : Nat) :
    Instruction → List Bracket → Prop
  | leaf {instruction : Instruction} {context : List Bracket}
      (isLeaf : instruction.isLeaf program = true) (next : listing.Admits (address + 1) context) :
      Permits program listing address instruction context
  | accept {context : List Bracket} : Permits program listing address .accept context
  | openGroup {group : Nat} {context : List Bracket} (known : program.hasGroup group = true)
      (next : listing.Admits (address + 1) context) :
      Permits program listing address (.openGroup group true) context
  | closeGroup {group : Nat} {context : List Bracket} (known : program.hasGroup group = true)
      (next : listing.Admits (address + 1) context) :
      Permits program listing address (.closeGroup group true) context
  | jump {offset : Int} {target : Nat} {context : List Bracket}
      (leads : program.target? address offset = some target)
      (there : listing.Admits target context) :
      Permits program listing address (.jump offset) context
  | push {offset : Int} {target : Nat} {context : List Bracket}
      (leads : program.target? address offset = some target)
      (there : listing.Admits target context) (next : listing.Admits (address + 1) context) :
      Permits program listing address (.push offset) context
  | emptyCheckStart {id : Nat} {context : List Bracket} (known : id < program.emptyCheckCount)
      (next : listing.Admits (address + 1) (.check id :: context)) :
      Permits program listing address (.emptyCheckStart id) context
  /-- The way back has to follow, and is stepped over when an iteration was empty. -/
  | emptyCheckEnd {id : Nat} {watched : Option (List Nat)} {context : List Bracket}
      (known : id < program.emptyCheckCount) (next : listing.Admits (address + 1) context)
      (back : program.code[address + 1]?.map Instruction.isLoopBack = some true)
      (behind : listing.Admits (address + 2) context) :
      Permits program listing address (.emptyCheckEnd id watched) (.check id :: context)
  | repeatStart {id : Nat} {offset : Int} {exit : Nat} {greedy : Bool} {context : List Bracket}
      (known : id < program.repeatRanges.size) (fresh : .loop id ∉ context)
      (leads : program.target? address offset = some exit)
      (outside : listing.Admits exit context)
      (body : listing.Admits (address + 1) (.loop id :: context)) :
      Permits program listing address (.repeatStart id offset greedy) context
  /-- An iteration goes back to where the repeat was entered. -/
  | repeatNext {id : Nat} {greedy direct : Bool} {context : List Bracket}
      (known : id < program.repeatRanges.size) (outside : listing.Admits (address + 1) context)
      (bodies : ∀ body, program.HasBody id body → listing.Admits body (.loop id :: context)) :
      Permits program listing address (.repeatNext id greedy direct) (.loop id :: context)
  | lookStart {context : List Bracket}
      (next : listing.Admits (address + 1) (.mark .look :: context)) :
      Permits program listing address .lookStart context
  | lookEnd {context : List Bracket} (next : listing.Admits (address + 1) context) :
      Permits program listing address .lookEnd (.mark .look :: context)
  | lookNotStart {offset : Int} {target : Nat} {context : List Bracket}
      (leads : program.target? address offset = some target)
      (there : listing.Admits target context)
      (next : listing.Admits (address + 1) (.mark .lookNot :: context)) :
      Permits program listing address (.lookNotStart offset) context
  | lookNotFail {context : List Bracket} :
      Permits program listing address .lookNotFail (.mark .lookNot :: context)
  | atomicStart {context : List Bracket}
      (next : listing.Admits (address + 1) (.mark .atomic :: context)) :
      Permits program listing address .atomicStart context
  | atomicEnd {context : List Bracket} (next : listing.Admits (address + 1) context) :
      Permits program listing address .atomicEnd (.mark .atomic :: context)
  | behindNotStart {offset : Int} {length target : Nat} {context : List Bracket}
      (leads : program.target? address offset = some target)
      (there : listing.Admits target context)
      (next : listing.Admits (address + 1) (.mark .behindNot :: context)) :
      Permits program listing address (.lookBehindNotStart offset length) context
  | behindNotFail {context : List Bracket} :
      Permits program listing address .lookBehindNotFail (.mark .behindNot :: context)

/-- Whether a listing is one of a program, starts with nothing open, and permits each of its
instructions. -/
structure Checks (listing : Listing) (program : Program) : Prop where
  code : program.code.toList = listing.map Line.instruction
  start : listing.Admits 0 []
  permits : ∀ address line, listing[address]? = some line →
    listing.Permits program address line.instruction line.context

/-- Where control may come there is an instruction, and it is permitted where it stands. -/
theorem Checks.fetch {listing : Listing} {program : Program} (checks : listing.Checks program)
    {address : Nat} {context : List Bracket} (admits : listing.Admits address context) :
    ∃ instruction inner, program.code[address]? = some instruction ∧ inner <:+ context ∧
      listing.Permits program address instruction inner := by
  obtain ⟨line, found, suffix⟩ := admits
  refine ⟨line.instruction, line.context, ?_, suffix, checks.permits address line found⟩
  rw [← Array.getElem?_toList, checks.code, List.getElem?_map, found]
  rfl

/-! ### Safe moves -/

/-- What an effect that is safe in one context makes of it.  A frame that can be gone back to has to
resume where its context may be open. -/
inductive Turns (program : Program) (listing : Listing) :
    List Bracket → Effect → List Bracket → Prop
  | note {event : Event} {context : List Bracket} :
      Turns program listing context (.note event) context
  | push {frame : Frame} {context : List Bracket} (nothing : frame.savesNothing = true)
      (resumes : ∀ point, frame.resume? = some point → listing.Admits point.address context) :
      Turns program listing context (.push frame) context
  | opens {frame : Frame} {bracket : Bracket} {context : List Bracket}
      (nothing : frame.savesNothing = true)
      (resumes : ∀ point, frame.resume? = some point → listing.Admits point.address context)
      (opens : bracket.opens frame = true) :
      Turns program listing context (.push frame) (bracket :: context)
  | openGroup {group position : Nat} {context : List Bracket} :
      Turns program listing context (.openGroup group position) context
  | closeGroup {group position : Nat} {context : List Bracket} :
      Turns program listing context (.closeGroup group position) context
  | enterRepeat {id body : Nat} {context : List Bracket}
      (known : id < program.repeatRanges.size) (hasBody : program.HasBody id body)
      (fresh : .loop id ∉ context) :
      Turns program listing context (.enterRepeat id body) (.loop id :: context)
  | countInEntry {index : Nat} {context : List Bracket} :
      Turns program listing context (.countInEntry index) context
  | countInRegister {id : Nat} {context : List Bracket} :
      Turns program listing context (.countInRegister id) context
  | commit {mark : Mark} {context : List Bracket} :
      Turns program listing (.mark mark :: context) (.commit mark) context
  | unwindTo {mark : Mark} {context : List Bracket} :
      Turns program listing context (.unwindTo mark) []

namespace Turns

variable {program : Program} {listing : Listing} {point : Point} {frame : Frame}
  {bracket : Bracket} {context : List Bracket}

/-- A choice that is left in a context. -/
theorem choice (admits : listing.Admits point.address context) :
    listing.Turns program context (.push (.choice point)) context := by
  refine .push rfl ?_
  intro resumed same
  cases same
  exact admits

/-- A bracket is opened by a frame that is never gone back to. -/
theorem opens_of_never (nothing : frame.savesNothing = true) (never : frame.resume? = none)
    (opens : bracket.opens frame = true) :
    listing.Turns program context (.push frame) (bracket :: context) := by
  refine .opens nothing ?_ opens
  intro resumed same
  rw [never] at same
  cases same

/-- A bracket is opened by a frame that is gone back to with what is open outside. -/
theorem opens_of_resumes (nothing : frame.savesNothing = true)
    (resumes : frame.resume? = some point) (admits : listing.Admits point.address context)
    (opens : bracket.opens frame = true) :
    listing.Turns program context (.push frame) (bracket :: context) := by
  refine .opens nothing ?_ opens
  intro resumed same
  rw [resumes] at same
  cases same
  exact admits

end Turns

end Listing

/-- Whether a move changes neither the store nor where the search stands. -/
def Move.isQuiet : Move → Bool
  | .work | .fail | .consider => true
  | _ => false

/-- Whether a move ends the run with an answer. -/
def Move.isAnswer : Move → Bool
  | .matched | .conclude => true
  | _ => false

namespace Listing

/-- Whether a dispatch in a context may consist of a list of moves. -/
inductive Safe (program : Program) (listing : Listing) : List Bracket → List Move → Prop
  | quiet {move : Move} {moves : List Move} {context : List Bracket}
      (quiet : move.isQuiet = true) (rest : Safe program listing context moves) :
      Safe program listing context (move :: moves)
  | perform {effect : Effect} {moves : List Move} {context after : List Bracket}
      (turns : listing.Turns program context effect after)
      (rest : Safe program listing after moves) :
      Safe program listing context (.perform effect :: moves)
  | goto {point : Point} {context : List Bracket} (admits : listing.Admits point.address context) :
      Safe program listing context [.goto point]
  | backtrack {context : List Bracket} : Safe program listing context [.backtrack]
  | answer {move : Move} {context : List Bracket} (answers : move.isAnswer = true) :
      Safe program listing context [move]

variable {program : Program} {listing : Listing} {context : List Bracket}

theorem safe_failing : listing.Safe program context Move.failing :=
  .quiet rfl .backtrack

theorem safe_sweepMoves {star : Star} (admits : listing.Admits star.next context) (text : Text)
    (range : Nat) (cursor : Cursor) :
    listing.Safe program context (star.sweepMoves text range cursor) := by
  fun_induction Star.sweepMoves star text range cursor with
  | case1 cursor whole choices ih =>
      refine .quiet rfl ?_
      have rest : listing.Safe program context
          (if star.failsAt text cursor.position then Move.failing
            else star.sweepMoves text range (cursor.step (text.charLength cursor.position))) := by
        split
        · exact safe_failing
        · exact ih
      simp only [choices]
      split
      · exact .perform (.choice admits) rest
      · exact rest
  | case2 cursor cut => exact .goto admits

theorem safe_leapMoves {star : Star} (admits : listing.Admits star.next context) (text : Text)
    (byte : UInt8) (origin : Cursor) (stop position : Nat) :
    listing.Safe program context (star.leapMoves text byte origin stop position) := by
  fun_induction Star.leapMoves star text byte origin stop position with
  | case1 position hit found ih => exact .quiet rfl (.perform (.choice admits) ih)
  | case2 position none_found => exact .goto admits

theorem safe_acceptMoves (attempt : Attempt) (position : Nat) :
    listing.Safe program context (attempt.acceptMoves position) := by
  unfold Attempt.acceptMoves
  split
  · exact .answer rfl
  split
  · exact safe_failing
  split
  · exact .quiet rfl safe_failing
  · exact .quiet rfl (.answer rfl)

end Listing

/-! ### Leaves -/

/-- Whether an instruction is left to the next address, or fails. -/
def Exit.LeadsTo (address : Nat) : Exit → Prop
  | .goto point => point.address = address
  | .fail => True
  | .sweep star | .leap star _ => star.next = address
  | _ => False

/-- Whether a plan has no effects and leads to one address. -/
structure Plan.LeadsTo (address : Nat) (plan : Plan) : Prop where
  effects : plan.effects = []
  exit : plan.exit.LeadsTo address

namespace Plan

variable {attempt : Attempt} {point : Point} {store : Store} {address : Nat}

theorem leadsTo_fail : fail.LeadsTo address :=
  ⟨rfl, trivial⟩

theorem leadsTo_goto (cursor : Cursor) : (goto address cursor).LeadsTo address :=
  ⟨rfl, rfl⟩

theorem leadsTo_consumed (cursor? : Option Cursor) :
    (consumed address cursor?).LeadsTo address := by
  cases cursor? with
  | none => exact leadsTo_fail
  | some cursor => exact leadsTo_goto cursor

theorem leadsTo_check (cursor : Cursor) (holds : Bool) :
    (check address cursor holds).LeadsTo address := by
  cases holds with
  | false => exact leadsTo_fail
  | true => exact leadsTo_goto cursor

theorem leadsTo_oneChar (accepts : Nat → Bool) :
    (oneChar attempt point accepts).LeadsTo point.next := by
  unfold oneChar
  dsimp only
  split
  · split
    · exact leadsTo_goto _
    · exact leadsTo_fail
  · exact leadsTo_fail

theorem leadsTo_charClass {operand : ClassOperand}
    (known : (operand.resolve? attempt.program.classes).isOk = true) :
    (charClass attempt point operand).LeadsTo point.next := by
  unfold charClass
  dsimp only
  split
  · exact leadsTo_fail
  split
  · split
    · exact leadsTo_goto _
    · exact leadsTo_fail
  · next resolved =>
      rw [resolved] at known
      cases known

theorem leadsTo_anyChar (acrossLines : Bool) :
    (anyChar attempt point acrossLines).LeadsTo point.next := by
  unfold anyChar
  dsimp only
  split
  · exact leadsTo_goto _
  · exact leadsTo_fail

theorem leadsTo_anyCharStar (acrossLines : Bool) (peeked : Option UInt8) :
    (anyCharStar attempt point acrossLines peeked).LeadsTo point.next := by
  unfold anyCharStar
  dsimp only
  split
  · split <;> exact ⟨rfl, rfl⟩
  · exact ⟨rfl, rfl⟩

theorem leadsTo_lookBehind (length : Nat) :
    (lookBehind attempt point length).LeadsTo point.next := by
  unfold lookBehind
  split
  · exact leadsTo_goto _
  · exact leadsTo_fail

end Plan

namespace BackReference

open Attempt

variable {attempt : Attempt} {store : Store} {position : Nat}

theorem exists_repeatGroup? {group : Nat} (known : attempt.program.hasGroup group = true)
    (ignoreCase : Bool) :
    ∃ stop?, repeatGroup? attempt store position group ignoreCase = .ok stop? := by
  rw [repeatGroup?, if_pos known]
  split <;> exact ⟨_, rfl⟩

theorem exists_repeatAny? {groups : List Nat}
    (known : ∀ group ∈ groups, attempt.program.hasGroup group = true) (ignoreCase : Bool) :
    ∃ stop?, repeatAny? attempt store position ignoreCase groups = .ok stop? := by
  induction groups with
  | nil => exact ⟨none, rfl⟩
  | cons group groups ih =>
      obtain ⟨stop?, others⟩ := ih fun other mem => known other (List.mem_cons_of_mem group mem)
      rw [repeatAny?, if_pos (known group List.mem_cons_self)]
      split
      · split
        · exact ⟨_, rfl⟩
        · exact ⟨stop?, others⟩
      · exact ⟨stop?, others⟩

/-- A back reference finds all the groups it names. -/
theorem exists_repeat? {reference : BackReference}
    (known : reference.groups.all attempt.program.hasGroup = true) :
    ∃ stop?, reference.repeat? attempt store position = .ok stop? := by
  have named := List.all_eq_true.1 known
  cases reference with
  | first | second | group number folded =>
      exact exists_repeatGroup? (named _ List.mem_cons_self) _
  | anyOf numbers folded => exact exists_repeatAny? named _
  | atLevel folded level numbers =>
      have none_unknown : (numbers.find? fun group => !attempt.program.hasGroup group) = none := by
        rw [List.find?_eq_none]
        intro group mem
        rw [named group mem]
        exact Bool.noConfusion
      simp only [repeat?, repeatAtLevel?, none_unknown]
      exact ⟨_, rfl⟩

end BackReference

/-- Leaves have no effects and lead to the next instruction. -/
theorem Plan.leadsTo_of_isLeaf {attempt : Attempt} {instruction : Instruction}
    (isLeaf : instruction.isLeaf attempt.program = true) (point : Point) (store : Store) :
    (ofInstruction attempt point store instruction).LeadsTo point.next := by
  cases instruction with
  | fail => exact leadsTo_fail
  | byte value | bytes content | foldedChars codes => exact leadsTo_consumed _
  | foldedChar code | word wanted =>
      simp only [ofInstruction]
      exact leadsTo_oneChar _
  | template index offset length =>
      obtain ⟨excerpt, found⟩ := Option.isSome_iff_exists.1 isLeaf
      simp only [ofInstruction, found]
      exact leadsTo_consumed _
  | charClass operand => exact leadsTo_charClass isLeaf
  | anyChar acrossLines => exact leadsTo_anyChar acrossLines
  | anyCharStar acrossLines peeked => exact leadsTo_anyCharStar acrossLines peeked
  | assert assertion => exact leadsTo_check _ _
  | lookBehind length => exact leadsTo_lookBehind length
  | backReference reference =>
      obtain ⟨stop?, repeated⟩ : ∃ stop?,
          reference.repeat? attempt store point.cursor.position = .ok stop? :=
        BackReference.exists_repeat? isLeaf
      simp only [ofInstruction, backReference, repeated]
      exact leadsTo_consumed _
  | _ => cases isLeaf

/-! ### Instructions of a checked listing -/

theorem Plan.branch_eq {attempt : Attempt} {point : Point} {offset : Int} {target : Nat}
    (leads : attempt.program.target? point.address offset = some target) (plan : Nat → Plan) :
    branch attempt point offset plan = plan target := by
  rw [branch, leads]

namespace Listing

variable {attempt : Attempt} {listing : Listing} {point : Point} {store : Store}
  {context : List Bracket}

theorem safe_of_leadsTo {plan : Plan} {address : Nat} (leads : plan.LeadsTo address)
    (admits : listing.Admits address context) :
    listing.Safe attempt.program context (attempt.planMoves point plan) := by
  obtain ⟨effects, exit⟩ := plan
  obtain ⟨rfl, exits⟩ := leads
  cases exit with
  | goto point' =>
      obtain rfl : point'.address = address := exits
      exact .goto admits
  | fail => exact safe_failing
  | sweep star =>
      obtain rfl : star.next = address := exits
      exact safe_sweepMoves admits _ _ _
  | leap star byte =>
      obtain rfl : star.next = address := exits
      exact safe_leapMoves admits _ _ _ _ _
  | accept | finish | corrupt reason => exact exits.elim

/-- Goes on where a context is admitted, after effects that lead to it. -/
theorem safe_afterIteration {id body : Nat}
    (outside : listing.Admits point.next context)
    (inside : listing.Admits body (.loop id :: context))
    {record : Effect}
    (turns : listing.Turns attempt.program (.loop id :: context) record (.loop id :: context))
    (range : RepeatRange) (count : Nat) (greedy : Bool) :
    listing.Safe attempt.program (.loop id :: context)
      (attempt.planMoves point (Plan.afterIteration point range count body greedy record)) := by
  have outside' : listing.Admits point.next (.loop id :: context) :=
    outside.mono (List.suffix_cons _ _)
  unfold Plan.afterIteration
  split
  · exact .perform turns (.goto outside')
  split
  · exact .perform turns (.goto inside)
  split
  · exact .perform (.choice outside') (.perform turns (.goto inside))
  · exact .perform turns (.perform (.choice inside) (.goto outside'))

/-- Where the brackets of its context are open, an instruction that is permitted makes only safe
moves. -/
theorem Permits.safe {instruction : Instruction}
    (permits : listing.Permits attempt.program point.address instruction context)
    (fetched : attempt.program.code[point.address]? = some instruction)
    (nests : store.Nests context) (enters : store.Enters attempt.program) :
    listing.Safe attempt.program context
      (attempt.planMoves point (.ofInstruction attempt point store instruction)) := by
  cases permits with
  | leaf isLeaf next => exact safe_of_leadsTo (Plan.leadsTo_of_isLeaf isLeaf point store) next
  | accept => exact safe_acceptMoves attempt point.cursor.position
  | openGroup known next =>
      simp only [Plan.ofInstruction, Plan.openGroup, if_pos known]
      exact .perform .openGroup (.goto next)
  | closeGroup known next =>
      simp only [Plan.ofInstruction, Plan.closeGroup, if_pos known]
      exact .perform .closeGroup (.goto next)
  | jump leads there =>
      simp only [Plan.ofInstruction, Plan.branch_eq leads]
      exact .goto there
  | push leads there next =>
      simp only [Plan.ofInstruction, Plan.branch_eq leads]
      exact .perform (.choice there) (.goto next)
  | emptyCheckStart known next =>
      simp only [Plan.ofInstruction, Plan.emptyCheckStart, if_pos known]
      exact .perform (.opens_of_never rfl rfl (beq_self_eq_true _)) (.goto next)
  | emptyCheckEnd known next back behind =>
      obtain ⟨index, found⟩ := nests.emptyCheck?
      simp only [Plan.ofInstruction, Plan.emptyCheckEnd, if_pos known, found]
      split
      · rw [show point.next = point.address + 1 from rfl, if_pos back]
        exact .perform .note (.goto (behind.mono (List.suffix_cons _ _)))
      · exact .goto (next.mono (List.suffix_cons _ _))
  | @repeatStart id offset exit greedy context known fresh leads outside body =>
      have entered : listing.Turns attempt.program context (.enterRepeat id point.next)
          (.loop id :: context) :=
        .enterRepeat known ⟨point.address, _, _, fetched, rfl⟩ fresh
      have outside' : listing.Admits exit (.loop id :: context) :=
        outside.mono (List.suffix_cons _ _)
      simp only [Plan.ofInstruction, Plan.repeatStart, Array.getElem?_eq_getElem known,
        Plan.branch_eq leads]
      split
      · split
        · exact .perform entered (.perform (.choice outside') (.goto body))
        · exact .perform entered (.perform (.choice body) (.goto outside'))
      · exact .perform entered (.goto body)
  | repeatNext known outside bodies =>
      obtain ⟨index, count, body, outer, savedCount, active, read⟩ := nests.entry
      have own := enters.entries index _ read
      simp only [Plan.ofInstruction, Plan.repeatNext, Array.getElem?_eq_getElem known]
      rw [show (store.registers.repeatOf _).entry = some index from active]
      dsimp only
      split
      · exact safe_afterIteration outside (bodies _ own.2) .countInRegister _ _ _
      · simp only [Stack.entry?, read]
        exact safe_afterIteration outside (bodies _ own.1) .countInEntry _ _ _
  | lookStart next =>
      exact .perform (.opens_of_never rfl rfl rfl) (.goto next)
  | lookEnd next =>
      obtain ⟨cursor, found⟩ := nests.lookCursor?
      simp only [Plan.ofInstruction, Plan.lookEnd, found]
      exact .perform .commit (.goto next)
  | lookNotStart leads there next =>
      simp only [Plan.ofInstruction, Plan.branch_eq leads]
      exact .perform (.opens_of_resumes rfl rfl there rfl) (.goto next)
  | lookNotFail | behindNotFail =>
      simp only [Plan.ofInstruction, Plan.excluded, if_pos nests.hasMark]
      exact .perform .unwindTo safe_failing
  | atomicStart next =>
      exact .perform (.opens_of_never rfl rfl rfl) (.goto next)
  | atomicEnd next =>
      simp only [Plan.ofInstruction, Plan.atomicEnd, if_pos nests.hasMark]
      exact .perform .commit (.goto next)
  | behindNotStart leads there next =>
      simp only [Plan.ofInstruction, Plan.lookBehindNotStart, Plan.branch_eq leads]
      split
      · exact .perform (.opens_of_resumes rfl rfl there rfl) (.goto next)
      · exact .goto there

end Listing

end PatternMachine
