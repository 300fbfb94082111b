import PatternMachine.Proofs.Building
import PatternMachine.Proofs.Nesting.Block

/-!
# Assembling blocks

A block is assembled by the calls that a compiler would make, with labels for the targets of its
branches.  `Builder.Lays` says what code a sequence of calls has appended.  Branches to labels that
are bound later get their targets when these are bound (`Builder.Lays.forward`), so a whole block
has none left, and what is built from it is its listing.
-/

namespace PatternMachine

namespace Builder

/-- `later` is what has become of `earlier` by appending code.  Its branches lead to labels that are
bound, or pending with the address that they have to be bound to. -/
structure Lays (pending : List (Label × Nat)) (code : List Instruction) (earlier later : Builder) :
    Prop where
  appends : Appends earlier later
  size : later.code.size = earlier.code.size + code.length
  settled : ∀ use ∈ later.uses, use ∈ earlier.uses ∨
    (∃ target, later.address? use.label = some target) ∨ ∃ target, (use.label, target) ∈ pending
  resolved : earlier.Placed → ∀ final, Extends later final →
    (∀ label target, (label, target) ∈ pending → final.address? label = some target) →
    ∀ placed ∈ code.zipIdx earlier.code.size, final.resolved placed.2 = some placed.1

namespace Lays

variable {pending : List (Label × Nat)} {earlier middle later : Builder}
  {code first second : List Instruction}

theorem refl (builder : Builder) : Lays pending [] builder builder where
  appends :=
    { Extends.refl builder with
      kept := fun _ _ => rfl
      placed := fun placed => placed }
  size := rfl
  settled := fun _ mem => .inl mem
  resolved := fun _ _ _ _ _ mem => absurd mem List.not_mem_nil

theorem trans (before : Lays pending first earlier middle)
    (behind : Lays pending second middle later) :
    Lays pending (first ++ second) earlier later where
  appends := before.appends.trans behind.appends
  size := by
    rw [behind.size, before.size, List.length_append, Nat.add_assoc]
  settled := by
    intro use mem
    rcases behind.settled use mem with mem | bound
    · rcases before.settled use mem with mem | ⟨target, bound⟩ | isPending
      · exact .inl mem
      · exact .inr (.inl ⟨target, behind.appends.bound _ _ bound⟩)
      · exact .inr (.inr isPending)
    · exact .inr bound
  resolved := by
    intro placed final growth bound
    rw [List.zipIdx_append, ← before.size, List.forall_mem_append]
    exact ⟨before.resolved placed final (behind.appends.toExtends.trans growth) bound,
      behind.resolved (before.appends.placed placed) final growth bound⟩

/-- Code without pending labels has none of any others. -/
theorem weaken (lays : Lays [] code earlier later) : Lays pending code earlier later where
  appends := lays.appends
  size := lays.size
  settled := by
    intro use mem
    rcases lays.settled use mem with mem | bound | ⟨_, isPending⟩
    · exact .inl mem
    · exact .inr (.inl bound)
    · cases isPending
  resolved := by
    intro placed final growth _
    exact lays.resolved placed final growth fun _ _ isPending => absurd isPending List.not_mem_nil

theorem emit (builder : Builder) (instruction : Instruction) :
    Lays pending [instruction] builder (builder.emit instruction) where
  appends := builder.appends_emit instruction
  size := Array.size_push _
  settled := fun _ mem => .inl mem
  resolved := by
    intro placed final growth _
    rw [List.zipIdx_singleton, List.forall_mem_singleton]
    exact resolved_emit placed growth

theorem emitTo (builder : Builder) {instruction placed : Instruction} {label : Label}
    {target : Nat} (isPending : (label, target) ∈ pending)
    (targeted : instruction.withTarget builder.code.size target = placed) :
    Lays pending [placed] builder (builder.emitTo instruction label) where
  appends := builder.appends_emitTo instruction label
  size := Array.size_push _
  settled := by
    intro use mem
    rcases Array.mem_push.1 mem with mem | rfl
    · exact .inl mem
    · exact .inr (.inr ⟨target, isPending⟩)
  resolved := by
    intro isPlaced final growth bound
    rw [List.zipIdx_singleton, List.forall_mem_singleton, ← targeted]
    exact resolved_emitTo isPlaced growth (bound label target isPending)

/-- A label that is bound behind the code that names it. -/
theorem forward
    (lays : Lays ((earlier.newLabel.1, earlier.code.size + code.length) :: pending) code
      earlier.newLabel.2 later) : Lays pending code earlier (later.bind earlier.newLabel.1) := by
  have inside : earlier.newLabel.1.index < earlier.newLabel.2.labels.size := by
    rw [size_newLabel]
    exact Nat.lt_succ_self _
  have unbound := lays.appends.unbound inside earlier.address?_newLabel_self
  have bound : (later.bind earlier.newLabel.1).address? earlier.newLabel.1 =
      some (earlier.code.size + code.length) := by
    rw [address?_bind_self (Nat.lt_of_lt_of_le inside lays.appends.labels), lays.size]
    rfl
  constructor
  · exact Appends.bind (earlier.appends_newLabel.trans lays.appends) (Nat.le_refl _) unbound
  · exact lays.size
  · intro use mem
    rcases lays.settled use mem with mem | ⟨target, isBound⟩ | ⟨target, isPending⟩
    · exact .inl mem
    · exact .inr (.inl ⟨target, (extends_bind unbound).bound _ _ isBound⟩)
    · rcases List.mem_cons.1 isPending with same | isPending
      · rw [(Prod.mk.inj same).1]
        exact .inr (.inl ⟨_, bound⟩)
      · exact .inr (.inr ⟨target, isPending⟩)
  · intro placed final growth others
    apply lays.resolved (earlier.appends_newLabel.placed placed) final
      ((extends_bind unbound).trans growth)
    intro label target isPending
    rcases List.mem_cons.1 isPending with same | isPending
    · obtain ⟨rfl, rfl⟩ := Prod.mk.inj same
      exact growth.bound _ _ bound
    · exact others label target isPending

/-- A label that is bound in front of the code that names it. -/
theorem backward
    (lays : Lays ((earlier.newLabel.1, earlier.code.size) :: pending) code
      (earlier.newLabel.2.bind earlier.newLabel.1) later) : Lays pending code earlier later := by
  have inside : earlier.newLabel.1.index < earlier.newLabel.2.labels.size := by
    rw [size_newLabel]
    exact Nat.lt_succ_self _
  have bound := lays.appends.bound _ _ (address?_bind_self inside)
  have toTop := Appends.bind earlier.appends_newLabel (Nat.le_refl _)
    earlier.address?_newLabel_self
  constructor
  · exact toTop.trans lays.appends
  · exact lays.size
  · intro use mem
    rcases lays.settled use mem with mem | isBound | ⟨target, isPending⟩
    · exact .inl mem
    · exact .inr (.inl isBound)
    · rcases List.mem_cons.1 isPending with same | isPending
      · rw [(Prod.mk.inj same).1]
        exact .inr (.inl ⟨_, bound⟩)
      · exact .inr (.inr ⟨target, isPending⟩)
  · intro placed final growth others
    apply lays.resolved (toTop.placed placed) final growth
    intro label target isPending
    rcases List.mem_cons.1 isPending with same | isPending
    · obtain ⟨rfl, rfl⟩ := Prod.mk.inj same
      exact growth.bound _ _ bound
    · exact others label target isPending

/-! ### From the start -/

theorem settled_of_no_uses (lays : Lays [] code earlier later) (noUses : earlier.uses = #[]) :
    later.Settled := by
  intro use mem
  rcases lays.settled use mem with mem | bound | ⟨_, isPending⟩
  · rw [noUses] at mem
    exact absurd mem (Array.not_mem_empty use)
  · exact bound
  · cases isPending

/-- Code that is appended to nothing is all that there is. -/
theorem resolved_eq (lays : Lays [] code earlier later) (noCode : earlier.code = #[])
    (noUses : earlier.uses = #[]) (address : Nat) : later.resolved address = code[address]? := by
  have placed : earlier.Placed := by
    intro use mem
    rw [noUses] at mem
    exact absurd mem (Array.not_mem_empty use)
  have whole := lays.resolved placed later (.refl later) fun _ _ isPending =>
    absurd isPending List.not_mem_nil
  have size := lays.size
  rw [noCode] at whole size
  by_cases inside : address < code.length
  · rw [List.getElem?_eq_getElem inside]
    exact whole (code[address], address)
      (List.mem_zipIdx_iff_getElem?.2 (List.getElem?_eq_getElem inside))
  · have outside : later.code.size ≤ address := by
      rw [size, List.size_toArray, List.length_nil, Nat.zero_add]
      exact Nat.not_lt.1 inside
    rw [Builder.resolved, Array.getElem?_eq_none outside,
      List.getElem?_eq_none (Nat.not_lt.1 inside)]
    rfl

end Lays

end Builder

/-! ### Blocks -/

/-- Appends an enclosure around what is appended in between. -/
def Enclosure.assemble (body : Builder → Builder) : Enclosure → Builder → Builder
  | capture group, builder =>
      (body (builder.emit (.openGroup group true))).emit (.closeGroup group true)
  | look, builder => (body (builder.emit .lookStart)).emit .lookEnd
  | lookNot, builder =>
      let (after, builder) := builder.newLabel
      ((body (builder.lookNotStart after)).emit .lookNotFail).bind after
  | atomic, builder => (body (builder.emit .atomicStart)).emit .atomicEnd
  | behindNot length, builder =>
      let (after, builder) := builder.newLabel
      ((body (builder.lookBehindNotStart after length)).emit .lookBehindNotFail).bind after

/-- Appends an iteration around what is appended in between. -/
def Guard.assemble (body : Builder → Builder) : Option Guard → Builder → Builder
  | none, builder => body builder
  | some guard, builder =>
      (body (builder.emit (.emptyCheckStart guard.id))).emit
        (.emptyCheckEnd guard.id guard.watched)

namespace Block

/-- Appends a block. -/
def assemble : Block → Builder → Builder
  | empty, builder => builder
  | leaf instruction, builder => builder.emit instruction
  | sequence first second, builder => second.assemble (first.assemble builder)
  | choice left right, builder =>
      let (exit, builder) := builder.newLabel
      let (alternative, builder) := builder.newLabel
      let builder := ((left.assemble (builder.push alternative)).jump exit).bind alternative
      (right.assemble builder).bind exit
  | enclosed enclosure body, builder => enclosure.assemble body.assemble builder
  | star guard body, builder =>
      let (exit, builder) := builder.newLabel
      let (top, builder) := builder.newLabel
      ((Guard.assemble body.assemble guard ((builder.bind top).push exit)).jump top).bind exit
  | bounded id greedy direct guard body, builder =>
      let (exit, builder) := builder.newLabel
      ((Guard.assemble body.assemble guard (builder.repeatStart id exit greedy)).emit
        (.repeatNext id greedy direct)).bind exit

/-- The program of a block: its code, and the end of a candidate behind it. -/
def finish (block : Block) (builder : Builder) : Builder :=
  (block.assemble builder).emit .accept

end Block

open Builder

variable {pending : List (Label × Nat)} {lines : Listing} {assembled : Builder → Builder}

theorem Enclosure.lays
    (body : ∀ builder, Lays [] (lines.map Line.instruction) builder (assembled builder))
    (enclosure : Enclosure) (builder : Builder) :
    Lays [] (enclosure.opening (lines.length + 2 : Nat) ::
      (lines.map Line.instruction ++ [enclosure.closing])) builder
      (enclosure.assemble assembled builder) := by
  cases enclosure with
  | capture group => exact ((Lays.emit builder _).trans (body _)).trans (.emit _ _)
  | look => exact ((Lays.emit builder _).trans (body _)).trans (.emit _ _)
  | atomic => exact ((Lays.emit builder _).trans (body _)).trans (.emit _ _)
  | lookNot | behindNot length =>
      apply Lays.forward
      refine ((Lays.emitTo _ List.mem_cons_self ?_).trans (body _).weaken).trans (.emit _ _)
      simp only [Instruction.withTarget, opening, newLabel, List.length_cons, List.length_append,
        List.length_map, List.length_nil, Instruction.lookNotStart.injEq,
        Instruction.lookBehindNotStart.injEq, and_true]
      omega

theorem Guard.lays
    (body : ∀ builder, Lays [] (lines.map Line.instruction) builder (assembled builder))
    (outer : List Bracket) (guard : Option Guard) (builder : Builder) :
    Lays [] ((Guard.lines outer lines guard).map Line.instruction) builder
      (Guard.assemble assembled guard builder) := by
  cases guard with
  | none => exact body builder
  | some guard =>
      simp only [Guard.lines, List.map_cons, List.map_append, List.map_nil]
      exact (Lays.emit builder _).trans ((body _).trans (.emit _ _))

/-- Appending a block lays its lines out at the end. -/
theorem Block.lays (block : Block) (outer : List Bracket) (builder : Builder) :
    Lays [] ((block.lines outer).map Line.instruction) builder (block.assemble builder) := by
  induction block generalizing outer builder with
  | empty => exact .refl builder
  | leaf instruction => exact .emit builder instruction
  | sequence first second firstIH secondIH =>
      rw [lines, List.map_append]
      exact (firstIH outer builder).trans (secondIH outer _)
  | choice left right leftIH rightIH =>
      have parts : ((choice left right).lines outer).map Line.instruction =
          ([.push (left.size + 2 : Nat)] ++ (left.lines outer).map Line.instruction ++
            [.jump (right.size + 1 : Nat)]) ++ (right.lines outer).map Line.instruction := by
        simp only [lines, List.map_cons, List.map_append, List.cons_append, List.nil_append,
          List.append_assoc]
      rw [parts]
      apply Lays.forward
      refine Lays.trans (Lays.forward ?_) (rightIH outer _).weaken
      have inLeft := leftIH outer (builder.newLabel.2.newLabel.2.push builder.newLabel.2.newLabel.1)
      refine ((Lays.emitTo _ List.mem_cons_self ?_).trans inLeft.weaken).trans
        (.emitTo _ (List.mem_cons_of_mem _ List.mem_cons_self) ?_)
      · simp only [Instruction.withTarget, newLabel, List.length_append, List.length_cons,
          List.length_map, List.length_nil, length_lines, Instruction.push.injEq]
        omega
      · rw [inLeft.size]
        simp only [Instruction.withTarget, newLabel, Builder.push, code_emitTo, Array.size_push,
          List.length_append, List.length_cons, List.length_map, List.length_nil, length_lines,
          Instruction.jump.injEq]
        omega
  | enclosed enclosure body ih =>
      have laid := Enclosure.lays (ih (enclosure.context outer)) enclosure builder
      simp only [lines, List.map_cons, List.map_append, List.map_nil]
      rw [length_lines] at laid
      exact laid
  | star guard body ih =>
      simp only [lines, List.map_cons, List.map_append, List.map_nil]
      apply Lays.forward
      apply Lays.backward
      have iteration := Guard.lays (ih (Guard.context outer guard)) outer guard
      refine ((Lays.emitTo _ (List.mem_cons_of_mem _ List.mem_cons_self) ?_).trans
        (iteration _).weaken).trans (.emitTo _ List.mem_cons_self ?_)
      · simp only [Instruction.withTarget, newLabel, Builder.bind, List.length_cons,
          List.length_append, List.length_map, List.length_nil, Guard.length_lines, length_lines,
          Instruction.push.injEq]
        omega
      · rw [(iteration _).size]
        simp only [Instruction.withTarget, newLabel, Builder.bind, code_emitTo, Array.size_push,
          List.length_map, Guard.length_lines, length_lines, Instruction.jump.injEq]
        omega
  | bounded id greedy direct guard body ih =>
      simp only [lines, List.map_cons, List.map_append, List.map_nil]
      apply Lays.forward
      have iteration := Guard.lays (ih (Guard.context (.loop id :: outer) guard))
        (.loop id :: outer) guard
      refine ((Lays.emitTo _ List.mem_cons_self ?_).trans (iteration _).weaken).trans (.emit _ _)
      simp only [Instruction.withTarget, newLabel, List.length_cons, List.length_append,
        List.length_map, List.length_nil, Guard.length_lines, length_lines,
        Instruction.repeatStart.injEq, and_true, true_and]
      omega

/-- On a builder without code, every block can be built, and the program is its listing. -/
theorem Block.finish_build (block : Block) {builder : Builder} (noCode : builder.code = #[])
    (noUses : builder.uses = #[]) :
    ∃ program, (block.finish builder).build.1 = .ok program ∧
      program.code.toList = block.listing.map Line.instruction := by
  have laid : Lays [] (block.listing.map Line.instruction) builder (block.finish builder) := by
    rw [listing, List.map_append]
    exact (block.lays [] builder).trans (.emit _ _)
  obtain ⟨code, resolved, built⟩ := build_ok (laid.settled_of_no_uses noUses)
  refine ⟨_, built, ?_⟩
  apply List.ext_getElem?
  intro address
  rw [Array.getElem?_toList, resolved, laid.resolved_eq noCode noUses]

end PatternMachine
