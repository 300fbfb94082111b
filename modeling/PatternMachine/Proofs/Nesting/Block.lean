import PatternMachine.Proofs.Nesting.Soundness

/-!
# Blocks of code

A compiler puts programs together from blocks: single instructions, sequences, alternatives, loops
and brackets around other blocks.  `Block.lines` is the code of a block with the contexts in which
its instructions stand, and `Block.permits` says that it is permitted wherever it is placed, if the
operands are there and no repeat is entered at two places.
-/

namespace PatternMachine

/-- What guards the iterations of a loop against being empty. -/
structure Guard where
  id : Nat
  watched : Option (List Nat)
  deriving DecidableEq, Repr

/-- A pair of instructions around a block. -/
inductive Enclosure where
  /-- A group, the opening and closing of which are logged. -/
  | capture (group : Nat)
  | look
  | lookNot
  | atomic
  /-- A negative lookbehind of a number of characters. -/
  | behindNot (length : Nat)
  deriving DecidableEq, Repr

/-- A well-nested piece of code. -/
inductive Block where
  | empty
  /-- An instruction that only consumes, asserts or fails. -/
  | leaf (instruction : Instruction)
  | sequence (first second : Block)
  | choice (left right : Block)
  | enclosed (enclosure : Enclosure) (body : Block)
  /-- Iterates as often as possible, with or without a guard. -/
  | star (guard : Option Guard) (body : Block)
  /-- Iterates as often as the range of a repeat says. -/
  | bounded (id : Nat) (greedy direct : Bool) (guard : Option Guard) (body : Block)
  deriving DecidableEq

namespace Enclosure

/-- The opening instruction, which may name what is right behind the closing one. -/
def opening (behind : Int) : Enclosure → Instruction
  | capture group => .openGroup group true
  | look => .lookStart
  | lookNot => .lookNotStart behind
  | atomic => .atomicStart
  | behindNot length => .lookBehindNotStart behind length

def closing : Enclosure → Instruction
  | capture group => .closeGroup group true
  | look => .lookEnd
  | lookNot => .lookNotFail
  | atomic => .atomicEnd
  | behindNot _ => .lookBehindNotFail

/-- What is open between the two. -/
def context (outer : List Bracket) : Enclosure → List Bracket
  | capture _ => outer
  | look => .mark .look :: outer
  | lookNot => .mark .lookNot :: outer
  | atomic => .mark .atomic :: outer
  | behindNot _ => .mark .behindNot :: outer

/-- Whether a program has the group that is captured. -/
def isValid (program : Program) : Enclosure → Bool
  | capture group => program.hasGroup group
  | _ => true

end Enclosure

namespace Guard

/-- What is open in an iteration. -/
def context (outer : List Bracket) : Option Guard → List Bracket
  | none => outer
  | some guard => .check guard.id :: outer

/-- The lines of an iteration, given those of the body. -/
def lines (outer : List Bracket) (body : Listing) : Option Guard → Listing
  | none => body
  | some guard =>
      ⟨.emptyCheckStart guard.id, outer⟩ ::
        (body ++ [⟨.emptyCheckEnd guard.id guard.watched, .check guard.id :: outer⟩])

/-- The number of instructions of an iteration, given that of the body. -/
def size (body : Nat) : Option Guard → Nat
  | none => body
  | some _ => body + 2

def isValid (program : Program) : Option Guard → Bool
  | none => true
  | some guard => guard.id < program.emptyCheckCount

theorem length_lines (outer : List Bracket) (body : Listing) (guard : Option Guard) :
    (lines outer body guard).length = size body.length guard := by
  cases guard <;> simp [lines, size]

end Guard

namespace Block

/-- The number of instructions. -/
def size : Block → Nat
  | empty => 0
  | leaf _ => 1
  | sequence first second => first.size + second.size
  | choice left right => left.size + right.size + 2
  | enclosed _ body => body.size + 2
  | star guard body => Guard.size body.size guard + 2
  | bounded _ _ _ guard body => Guard.size body.size guard + 2

/-- The instructions of a block, with their contexts when `outer` is open around it. -/
def lines : Block → (outer : List Bracket) → Listing
  | empty, _ => []
  | leaf instruction, outer => [⟨instruction, outer⟩]
  | sequence first second, outer => first.lines outer ++ second.lines outer
  | choice left right, outer =>
      ⟨.push (left.size + 2 : Nat), outer⟩ ::
        (left.lines outer ++ ⟨.jump (right.size + 1 : Nat), outer⟩ :: right.lines outer)
  | enclosed enclosure body, outer =>
      let inner := enclosure.context outer
      ⟨enclosure.opening (body.size + 2 : Nat), outer⟩ ::
        (body.lines inner ++ [⟨enclosure.closing, inner⟩])
  | star guard body, outer =>
      ⟨.push (Guard.size body.size guard + 2 : Nat), outer⟩ ::
        (Guard.lines outer (body.lines (Guard.context outer guard)) guard ++
          [⟨.jump (-(Guard.size body.size guard + 1 : Nat)), outer⟩])
  | bounded id greedy direct guard body, outer =>
      let inner := .loop id :: outer
      ⟨.repeatStart id (Guard.size body.size guard + 2 : Nat) greedy, outer⟩ ::
        (Guard.lines inner (body.lines (Guard.context inner guard)) guard ++
          [⟨.repeatNext id greedy direct, inner⟩])

/-- Whether a program has all that a block names. -/
def isValid (program : Program) : Block → Bool
  | empty => true
  | leaf instruction => instruction.isLeaf program
  | sequence first second => first.isValid program && second.isValid program
  | choice left right => left.isValid program && right.isValid program
  | enclosed enclosure body => enclosure.isValid program && body.isValid program
  | star guard body => Guard.isValid program guard && body.isValid program
  | bounded id _ _ guard body =>
      id < program.repeatRanges.size && (Guard.isValid program guard && body.isValid program)

/-- The bounded repeats of a block, each as often as it is entered. -/
def loops : Block → List Nat
  | empty | leaf _ => []
  | sequence first second | choice first second => first.loops ++ second.loops
  | enclosed _ body | star _ body => body.loops
  | bounded id _ _ _ body => id :: body.loops

@[simp] theorem length_lines (block : Block) (outer : List Bracket) :
    (block.lines outer).length = block.size := by
  induction block generalizing outer with
  | empty | leaf instruction => rfl
  | sequence first second firstIH secondIH => simp [lines, size, firstIH, secondIH]
  | choice left right leftIH rightIH =>
      simp only [lines, size, List.length_cons, List.length_append, leftIH, rightIH]
      omega
  | enclosed enclosure body ih => simp [lines, size, ih]
  | star guard body ih | bounded id greedy direct guard body ih =>
      simp [lines, size, Guard.length_lines, ih]

end Block

namespace Listing

/-- Whether lines are part of a listing, from an address on. -/
def Has (listing : Listing) (start : Nat) (part : Listing) : Prop :=
  ∀ placed ∈ part.zipIdx start, listing[placed.2]? = some placed.1

/-- Whether lines are permitted from an address on. -/
def PermitsAll (program : Program) (listing : Listing) (start : Nat) (part : Listing) : Prop :=
  ∀ placed ∈ part.zipIdx start,
    listing.Permits program placed.2 placed.1.instruction placed.1.context

section

variable {program : Program} {listing : Listing} {start : Nat} {line : Line} {left right : Listing}

@[simp] theorem has_nil : listing.Has start [] := by
  simp [Has]

@[simp] theorem has_cons : listing.Has start (line :: right) ↔
    listing[start]? = some line ∧ listing.Has (start + 1) right := by
  simp [Has, List.zipIdx_cons]

@[simp] theorem has_append : listing.Has start (left ++ right) ↔
    listing.Has start left ∧ listing.Has (start + left.length) right := by
  simp only [Has, List.zipIdx_append, List.forall_mem_append]

@[simp] theorem permitsAll_nil : listing.PermitsAll program start [] := by
  simp [PermitsAll]

@[simp] theorem permitsAll_cons : listing.PermitsAll program start (line :: right) ↔
    listing.Permits program start line.instruction line.context ∧
      listing.PermitsAll program (start + 1) right := by
  simp [PermitsAll, List.zipIdx_cons]

@[simp] theorem permitsAll_append : listing.PermitsAll program start (left ++ right) ↔
    listing.PermitsAll program start left ∧
      listing.PermitsAll program (start + left.length) right := by
  simp only [PermitsAll, List.zipIdx_append, List.forall_mem_append]

/-- Control may come to a line in the line's own context. -/
theorem admits_of_get? (found : listing[start]? = some line) :
    listing.Admits start line.context :=
  ⟨line, found, List.suffix_rfl⟩

end

/-- Whether a listing is one of a program that enters each repeat at one place only. -/
structure Lists (listing : Listing) (program : Program) : Prop where
  code : program.code.toList = listing.map Line.instruction
  once : ∀ id first second, program.HasBody id first → program.HasBody id second → first = second

namespace Lists

variable {program : Program} {listing : Listing}

theorem getElem? (lists : listing.Lists program) (address : Nat) :
    program.code[address]? = (listing[address]?).map Line.instruction := by
  rw [← Array.getElem?_toList, lists.code, List.getElem?_map]

theorem hasBody (lists : listing.Lists program) {address id : Nat} {offset : Int} {greedy : Bool}
    {context : List Bracket}
    (found : listing[address]? = some ⟨.repeatStart id offset greedy, context⟩) :
    program.HasBody id (address + 1) := by
  refine ⟨address, offset, greedy, ?_, rfl⟩
  rw [lists.getElem?, found]
  rfl

/-- A branch leads where control may come. -/
theorem target? (lists : listing.Lists program) {address target : Nat} {offset : Int}
    {context : List Bracket} (admits : listing.Admits target context)
    (there : (address : Int) + offset = target) :
    program.target? address offset = some target := by
  obtain ⟨line, found, _⟩ := admits
  have fetched : program.code[target]? = some line.instruction := by
    rw [lists.getElem?, found]
    rfl
  have inside := (Array.getElem?_eq_some_iff.1 fetched).1
  simp [Program.target?, there, inside]

end Lists

end Listing

section Permits

variable {program : Program} {listing : Listing} {outer : List Bracket} {start : Nat}

open Listing

/-- An enclosure is permitted around a block that is. -/
theorem Enclosure.permits (lists : listing.Lists program) {enclosure : Enclosure} {size : Nat}
    (valid : enclosure.isValid program = true)
    (body : listing.Admits (start + 1) (enclosure.context outer))
    (behind : listing.Admits (start + 1 + size + 1) outer) :
    listing.Permits program start (enclosure.opening (size + 2 : Nat)) outer ∧
      listing.Permits program (start + 1 + size) enclosure.closing (enclosure.context outer) := by
  have leads : program.target? start (size + 2 : Nat) = some (start + 1 + size + 1) := by
    apply lists.target? behind
    omega
  cases enclosure with
  | capture group => exact ⟨.openGroup valid body, .closeGroup valid behind⟩
  | look => exact ⟨.lookStart body, .lookEnd behind⟩
  | lookNot => exact ⟨.lookNotStart leads behind body, .lookNotFail⟩
  | atomic => exact ⟨.atomicStart body, .atomicEnd behind⟩
  | behindNot length => exact ⟨.behindNotStart leads behind body, .behindNotFail⟩

theorem Enclosure.loop_mem_context {enclosure : Enclosure} {id : Nat} :
    .loop id ∈ enclosure.context outer ↔ .loop id ∈ outer := by
  cases enclosure <;> simp [context]

theorem Guard.loop_mem_context {guard : Option Guard} {id : Nat} :
    .loop id ∈ Guard.context outer guard ↔ .loop id ∈ outer := by
  cases guard <;> simp [context]

/-- An iteration is permitted in front of a way back, around a body that is. -/
theorem Guard.permits (lists : listing.Lists program) {guard : Option Guard} {lines : Listing}
    {size : Nat} (length : lines.length = size) (valid : Guard.isValid program guard = true)
    (here : listing.Has start (Guard.lines outer lines guard))
    {back : Instruction} (isBack : listing[start + Guard.size size guard]? = some ⟨back, outer⟩)
    (loops : back.isLoopBack = true)
    (behind : listing.Admits (start + Guard.size size guard + 1) outer)
    (body : ∀ {first}, listing.Has first lines →
      listing.Admits (first + size) (Guard.context outer guard) →
      listing.Admits first (Guard.context outer guard) ∧
        listing.PermitsAll program first lines) :
    listing.Admits start outer ∧
      listing.PermitsAll program start (Guard.lines outer lines guard) := by
  subst length
  have atBack : listing.Admits (start + Guard.size lines.length guard) outer :=
    admits_of_get? isBack
  cases guard with
  | none => exact body here atBack
  | some guard =>
      simp only [Guard.lines, has_cons, has_append, has_nil, and_true] at here
      obtain ⟨first, inBody, last⟩ := here
      obtain ⟨entered, permitted⟩ := body inBody (admits_of_get? last)
      have known : guard.id < program.emptyCheckCount := of_decide_eq_true valid
      have place : start + Guard.size lines.length (some guard) =
          start + 1 + lines.length + 1 := by
        simp only [Guard.size]
        omega
      rw [place] at isBack atBack behind
      have wayBack : program.code[start + 1 + lines.length + 1]?.map Instruction.isLoopBack =
          some true := by
        rw [lists.getElem?, isBack]
        exact congrArg some loops
      refine ⟨admits_of_get? first, ?_⟩
      simp only [Guard.lines, permitsAll_cons, permitsAll_append, permitsAll_nil, and_true]
      exact ⟨.emptyCheckStart known entered, permitted,
        .emptyCheckEnd known atBack wayBack behind⟩

/-- A block is permitted wherever it is placed, if what is behind it may be come to. -/
theorem Block.permits (lists : listing.Lists program) {block : Block}
    (valid : block.isValid program = true) (apart : block.loops.Nodup)
    (fresh : ∀ id ∈ block.loops, .loop id ∉ outer) (here : listing.Has start (block.lines outer))
    (behind : listing.Admits (start + block.size) outer) :
    listing.Admits start outer ∧ listing.PermitsAll program start (block.lines outer) := by
  induction block generalizing outer start with
  | empty => exact ⟨behind, permitsAll_nil⟩
  | leaf instruction =>
      simp only [lines, has_cons, has_nil, and_true] at here
      refine ⟨admits_of_get? here, ?_⟩
      simp only [lines, permitsAll_cons, permitsAll_nil, and_true]
      exact .leaf valid behind
  | sequence first second firstIH secondIH =>
      simp only [lines, has_append, length_lines] at here
      obtain ⟨inFirst, inSecond⟩ := here
      obtain ⟨validFirst, validSecond⟩ := Bool.and_eq_true_iff.1 valid
      obtain ⟨apartFirst, apartSecond, _⟩ := List.nodup_append.1 apart
      rw [size, ← Nat.add_assoc] at behind
      obtain ⟨middle, permitsSecond⟩ := secondIH validSecond apartSecond
        (fun id mem => fresh id (List.mem_append_right _ mem)) inSecond behind
      obtain ⟨entered, permitsFirst⟩ := firstIH validFirst apartFirst
        (fun id mem => fresh id (List.mem_append_left _ mem)) inFirst middle
      refine ⟨entered, ?_⟩
      simp only [lines, permitsAll_append, length_lines]
      exact ⟨permitsFirst, permitsSecond⟩
  | choice left right leftIH rightIH =>
      simp only [lines, has_cons, has_append, length_lines] at here
      obtain ⟨opening, inLeft, jumping, inRight⟩ := here
      obtain ⟨validLeft, validRight⟩ := Bool.and_eq_true_iff.1 valid
      obtain ⟨apartLeft, apartRight, _⟩ := List.nodup_append.1 apart
      rw [size, show start + (left.size + right.size + 2) =
        start + 1 + left.size + 1 + right.size by omega] at behind
      obtain ⟨alternative, permitsRight⟩ := rightIH validRight apartRight
        (fun id mem => fresh id (List.mem_append_right _ mem)) inRight behind
      obtain ⟨entered, permitsLeft⟩ := leftIH validLeft apartLeft
        (fun id mem => fresh id (List.mem_append_left _ mem)) inLeft (admits_of_get? jumping)
      refine ⟨admits_of_get? opening, ?_⟩
      simp only [lines, permitsAll_cons, permitsAll_append, length_lines]
      refine ⟨.push (lists.target? alternative ?_) alternative entered, permitsLeft,
        .jump (lists.target? behind ?_) behind, permitsRight⟩
      · omega
      · omega
  | enclosed enclosure body ih =>
      simp only [lines, has_cons, has_append, has_nil, length_lines, and_true] at here
      obtain ⟨opening, inBody, closing⟩ := here
      obtain ⟨validEnclosure, validBody⟩ := Bool.and_eq_true_iff.1 valid
      rw [size, show start + (body.size + 2) = start + 1 + body.size + 1 by omega] at behind
      have fresh' : ∀ id ∈ body.loops, .loop id ∉ enclosure.context outer := by
        intro id mem
        rw [Enclosure.loop_mem_context]
        exact fresh id mem
      obtain ⟨entered, permitsBody⟩ := ih validBody apart fresh' inBody (admits_of_get? closing)
      obtain ⟨permitsOpening, permitsClosing⟩ :=
        Enclosure.permits lists validEnclosure entered behind
      refine ⟨admits_of_get? opening, ?_⟩
      simp only [lines, permitsAll_cons, permitsAll_append, permitsAll_nil, length_lines, and_true]
      exact ⟨permitsOpening, permitsBody, permitsClosing⟩
  | star guard body ih =>
      simp only [lines, has_cons, has_append, has_nil, length_lines, Guard.length_lines,
        and_true] at here
      obtain ⟨opening, iteration, back⟩ := here
      obtain ⟨validGuard, validBody⟩ := Bool.and_eq_true_iff.1 valid
      rw [size, show start + (Guard.size body.size guard + 2) =
        start + 1 + Guard.size body.size guard + 1 by omega] at behind
      have fresh' : ∀ id ∈ body.loops, .loop id ∉ Guard.context outer guard := by
        intro id mem
        rw [Guard.loop_mem_context]
        exact fresh id mem
      obtain ⟨entered, permitsIteration⟩ := Guard.permits lists (body.length_lines _) validGuard
        iteration back rfl behind (ih validBody apart fresh')
      have top : listing.Admits start outer := admits_of_get? opening
      refine ⟨top, ?_⟩
      simp only [lines, permitsAll_cons, permitsAll_append, permitsAll_nil, length_lines,
        Guard.length_lines, and_true]
      refine ⟨.push (lists.target? behind ?_) behind entered, permitsIteration,
        .jump (lists.target? top ?_) top⟩
      · omega
      · omega
  | bounded id greedy direct guard body ih =>
      simp only [lines, has_cons, has_append, has_nil, length_lines, Guard.length_lines,
        and_true] at here
      obtain ⟨opening, iteration, back⟩ := here
      obtain ⟨known, valid⟩ := Bool.and_eq_true_iff.1 valid
      obtain ⟨validGuard, validBody⟩ := Bool.and_eq_true_iff.1 valid
      obtain ⟨other, apart⟩ := List.nodup_cons.1 apart
      replace known : id < program.repeatRanges.size := of_decide_eq_true known
      rw [size, show start + (Guard.size body.size guard + 2) =
        start + 1 + Guard.size body.size guard + 1 by omega] at behind
      have fresh' : ∀ inner ∈ body.loops,
          .loop inner ∉ Guard.context (.loop id :: outer) guard := by
        intro inner mem
        rw [Guard.loop_mem_context, List.mem_cons, Bracket.loop.injEq]
        rintro (rfl | outside)
        · exact other mem
        · exact fresh inner (List.mem_cons_of_mem _ mem) outside
      obtain ⟨entered, permitsIteration⟩ := Guard.permits lists (body.length_lines _) validGuard
        iteration back rfl (behind.mono (List.suffix_cons _ _)) (ih validBody apart fresh')
      refine ⟨admits_of_get? opening, ?_⟩
      simp only [lines, permitsAll_cons, permitsAll_append, permitsAll_nil, length_lines,
        Guard.length_lines, and_true]
      refine ⟨.repeatStart known (fresh id List.mem_cons_self) (lists.target? behind ?_) behind
        entered, permitsIteration, .repeatNext known behind ?_⟩
      · omega
      · intro first hasBody
        obtain rfl := lists.once id _ _ (lists.hasBody opening) hasBody
        exact entered

end Permits

/-! ### Whole programs -/

/-- The repeat that an instruction enters. -/
def Instruction.enters? : Instruction → Option Nat
  | .repeatStart id .. => some id
  | _ => none

namespace Listing

/-- The repeats that the lines of a listing enter. -/
def loops (listing : Listing) : List Nat :=
  listing.filterMap fun line => line.instruction.enters?

@[simp] theorem loops_nil : loops [] = [] := rfl

@[simp] theorem loops_cons (line : Line) (lines : Listing) :
    loops (line :: lines) = line.instruction.enters?.toList ++ lines.loops := by
  rw [loops, List.filterMap_cons]
  cases line.instruction.enters? <;> rfl

@[simp] theorem loops_append (left right : Listing) :
    loops (left ++ right) = left.loops ++ right.loops :=
  List.filterMap_append

/-- A listing whose lines enter different repeats is one of a program that enters each at one place
only. -/
theorem lists_of_nodup {program : Program} {listing : Listing}
    (code : program.code.toList = listing.map Line.instruction) (apart : listing.loops.Nodup) :
    listing.Lists program where
  code := code
  once := by
    have entered : ∀ {id address offset greedy},
        program.code[address]? = some (.repeatStart id offset greedy) →
        ∃ inside : address < listing.length, listing[address].instruction.enters? = some id := by
      intro id address offset greedy fetched
      rw [← Array.getElem?_toList, code, List.getElem?_map] at fetched
      obtain ⟨line, found, enters⟩ := Option.map_eq_some_iff.1 fetched
      obtain ⟨inside, rfl⟩ := List.getElem?_eq_some_iff.1 found
      exact ⟨inside, by rw [enters]; rfl⟩
    have different := List.pairwise_iff_getElem.1 (List.pairwise_filterMap.1 apart)
    rintro id _ _ ⟨first, _, _, atFirst, rfl⟩ ⟨second, _, _, atSecond, rfl⟩
    obtain ⟨inside, enters⟩ := entered atFirst
    obtain ⟨inside', enters'⟩ := entered atSecond
    rcases Nat.lt_trichotomy first second with before | rfl | behind
    · exact absurd rfl (different first second inside inside' before id enters id enters')
    · rfl
    · exact absurd rfl (different second first inside' inside behind id enters' id enters)

end Listing

theorem Guard.loops_lines (outer : List Bracket) (body : Listing) (guard : Option Guard) :
    (lines outer body guard).loops = body.loops := by
  cases guard with
  | none => rfl
  | some guard => simp [lines, Instruction.enters?]

namespace Block

/-- The lines of a block enter the repeats of the block. -/
theorem loops_lines {program : Program} {block : Block} (valid : block.isValid program = true)
    (outer : List Bracket) : (block.lines outer).loops = block.loops := by
  induction block generalizing outer with
  | empty => rfl
  | leaf instruction => cases instruction <;> first | rfl | cases valid
  | sequence first second firstIH secondIH =>
      obtain ⟨validFirst, validSecond⟩ := Bool.and_eq_true_iff.1 valid
      simp [lines, loops, firstIH validFirst, secondIH validSecond]
  | choice left right leftIH rightIH =>
      obtain ⟨validLeft, validRight⟩ := Bool.and_eq_true_iff.1 valid
      simp [lines, loops, Instruction.enters?, leftIH validLeft, rightIH validRight]
  | enclosed enclosure body ih =>
      obtain ⟨_, validBody⟩ := Bool.and_eq_true_iff.1 valid
      cases enclosure <;>
        simp [lines, loops, Enclosure.opening, Enclosure.closing, Instruction.enters?,
          ih validBody]
  | star guard body ih =>
      obtain ⟨_, validBody⟩ := Bool.and_eq_true_iff.1 valid
      simp [lines, loops, Guard.loops_lines, Instruction.enters?, ih validBody]
  | bounded id greedy direct guard body ih =>
      obtain ⟨_, valid⟩ := Bool.and_eq_true_iff.1 valid
      obtain ⟨_, validBody⟩ := Bool.and_eq_true_iff.1 valid
      simp [lines, loops, Guard.loops_lines, Instruction.enters?, ih validBody]

/-- The listing of the program that a block is. -/
def listing (block : Block) : Listing :=
  block.lines [] ++ [⟨.accept, []⟩]

/-- The listing of a block checks a program that has the block's code and all that it names, if the
block enters different repeats. -/
theorem checks {program : Program} {block : Block}
    (code : program.code.toList = block.listing.map Line.instruction)
    (valid : block.isValid program = true) (apart : block.loops.Nodup) :
    block.listing.Checks program := by
  have lists : block.listing.Lists program := by
    apply Listing.lists_of_nodup code
    rw [listing, Listing.loops_append, loops_lines valid]
    simpa [Instruction.enters?] using apart
  have whole : block.listing.Has 0 block.listing := fun placed mem =>
    List.mem_zipIdx_iff_getElem?.1 mem
  simp only [listing, Listing.has_append, Listing.has_cons, Listing.has_nil, length_lines,
    and_true] at whole
  obtain ⟨start, permits⟩ := Block.permits lists valid apart (fun _ _ => List.not_mem_nil) whole.1
    (Listing.admits_of_get? whole.2)
  refine ⟨code, start, ?_⟩
  have all : block.listing.PermitsAll program 0 block.listing := by
    rw [listing, Listing.permitsAll_append]
    exact ⟨permits, by simpa using .accept⟩
  intro address line found
  exact all (line, address) (List.mem_zipIdx_iff_getElem?.2 found)

end Block

end PatternMachine
