import PatternMachine.Proofs.Exploration.Abreast

/-!
# What a loop is to explore

A bounded repeat explores the numbers of iterations that its range allows: from a state that has
come through the block so many times, it goes through the block once more, leaves, or does both, in
the order of its kind (`Loop.explore`).  The states here have never heard of the repeat.  That is
what the instructions of the loop are measured against.
-/

namespace PatternMachine

/-- A loop: the start of a repeat, a block of instructions behind it, and the count of the repeat
behind that. -/
structure Loop where
  id : Nat
  range : RepeatRange
  /-- The address of the start. -/
  start : Nat
  /-- The address of the count. -/
  stop : Nat
  greedy : Bool
  direct : Bool
  deriving DecidableEq, Repr

/-- What is said of all addresses at which an instruction concerns a repeat may be told from those
of the code. -/
theorem Program.of_lt_size {program : Program} {concerned? : Instruction → Option Nat} {id : Nat}
    {Holds : Nat → Prop}
    (inside : ∀ address, address < program.code.size →
      program.code[address]?.bind concerned? = some id → Holds address)
    (address : Nat) (concerns : program.code[address]?.bind concerned? = some id) :
    Holds address := by
  obtain ⟨_, fetched, _⟩ := Option.bind_eq_some_iff.1 concerns
  exact inside address (Array.getElem?_eq_some_iff.1 fetched).1 concerns

/-- The search that goes on elsewhere. -/
def Search.moveTo (address : Nat) (search : Search) : Search :=
  { search with point := ⟨address, search.point.cursor⟩ }

/-- What is seen of a search by all but one repeat. -/
structure Scene where
  point : Point
  captures : Nat → Option Nat × Option Nat
  repeats : Nat → Option ((Nat × Nat) × Nat)

/-- The scene of a search. -/
def Search.scene (id : Nat) (search : Search) : Scene where
  point := search.point
  captures := search.store.captures
  repeats := fun other => if other = id then none else search.store.standing? other

/-- Where a search may come to that goes through a block, and fails whenever it has come through. -/
inductive Search.Within (setting : Setting) (stop : Nat) (entry : Search) : Search → Prop
  | entered : Within setting stop entry entry
  | dispatched {search next : Search} (within : Within setting stop entry search)
      (inside : search.point.address ≠ stop) (stepped : search.step setting = .ok next)
      (above : entry.store.depth ≤ next.store.depth) : Within setting stop entry next
  | retried {search next : Search} (within : Within setting stop entry search)
      (through : search.point.address = stop) (failed : search.fail setting = .ok next)
      (above : entry.store.depth ≤ next.store.depth) : Within setting stop entry next

namespace Loop

/-- Where the block starts. -/
def first (loop : Loop) : Nat :=
  loop.start + 1

/-- Where the search goes on behind the loop. -/
def exit (loop : Loop) : Nat :=
  loop.stop + 1

/-- What is to be found by going through the block once, and on from there. -/
def iterate (loop : Loop) (setting : Setting) (fuel : Nat) (goOn : Search → Findings Search)
    (search : Search) : Findings Search :=
  ((search.moveTo loop.first).tries setting loop.stop search.store.depth fuel).flatMap goOn

/-- What is to be found behind a loop from a state that has come through its block a number of
times, with bounded fuel. -/
def explore (loop : Loop) (setting : Setting) :
    (fuel iterations : Nat) → Search → Findings Search
  | 0, _, _ => .cut
  | fuel + 1, iterations, search =>
      let more : Findings Search :=
        if iterations < loop.range.upper then
          loop.iterate setting fuel (explore loop setting fuel (iterations + 1)) search
        else .none
      let enough : Findings Search :=
        if loop.range.lower ≤ iterations then .one (search.moveTo loop.exit) else .none
      if loop.greedy then more.append enough else enough.append more

section

variable {loop : Loop} {setting : Setting} {fuel iterations : Nat} {search : Search}

theorem explore_of_few (few : iterations < loop.range.lower)
    (more : iterations < loop.range.upper) :
    loop.explore setting (fuel + 1) iterations search =
      loop.iterate setting fuel (loop.explore setting fuel (iterations + 1)) search := by
  rw [explore, if_pos more, if_neg (Nat.not_le.2 few), Findings.append_none, Findings.none_append,
    ite_self]

theorem explore_of_full (enough : loop.range.lower ≤ iterations)
    (full : loop.range.upper ≤ iterations) :
    loop.explore setting (fuel + 1) iterations search = .one (search.moveTo loop.exit) := by
  rw [explore, if_neg (Nat.not_lt.2 full), if_pos enough, Findings.append_none,
    Findings.none_append, ite_self]

theorem explore_of_greedy (isGreedy : loop.greedy = true) (enough : loop.range.lower ≤ iterations)
    (more : iterations < loop.range.upper) :
    loop.explore setting (fuel + 1) iterations search =
      (loop.iterate setting fuel (loop.explore setting fuel (iterations + 1)) search).append
        (.one (search.moveTo loop.exit)) := by
  rw [explore, if_pos more, if_pos enough, if_pos isGreedy]

theorem explore_of_lazy (isLazy : loop.greedy = false) (enough : loop.range.lower ≤ iterations)
    (more : iterations < loop.range.upper) :
    loop.explore setting (fuel + 1) iterations search =
      (Findings.one (search.moveTo loop.exit)).append
        (loop.iterate setting fuel (loop.explore setting fuel (iterations + 1)) search) := by
  rw [explore, if_pos more, if_pos enough, if_neg (by rw [isLazy]; exact Bool.noConfusion)]

end

/-- Whether a loop stands in a program, with a repeat of its own whose range is not empty. -/
structure Stands (program : Program) (loop : Loop) : Prop where
  starts : ∃ offset,
    program.code[loop.start]? = some (.repeatStart loop.id offset loop.greedy) ∧
      program.target? loop.start offset = some loop.exit
  counts : program.code[loop.stop]? = some (.repeatNext loop.id loop.greedy loop.direct)
  nested : loop.start < loop.stop
  alone : ∀ address, program.repeatAt? address = some loop.id →
    address = loop.start ∨ address = loop.stop
  ranged : program.repeatRanges[loop.id]? = some loop.range
  ordered : loop.range.lower ≤ loop.range.upper
  some_allowed : 0 < loop.range.upper
  counted : loop.range.upper ≤ maxIterations

/-- Whether the block of a loop is left only by its end or by failing, and ends the brackets that it
has opened and no others, whatever the state that it is entered in. -/
structure Encloses (setting : Setting) (loop : Loop) : Prop where
  enclosed : ∀ address instruction, loop.first ≤ address → address < loop.stop →
    setting.program.code[address]? = some instruction → instruction.isEnclosed = true
  confined : ∀ entry search : Search, entry.point.address = loop.first →
    entry.store.Orderly setting.program → entry.Within setting loop.stop search →
      loop.first ≤ search.point.address ∧ search.point.address ≤ loop.stop
  closes : ∀ (entry search : Search) instruction mark, entry.point.address = loop.first →
    entry.store.Orderly setting.program → entry.Within setting loop.stop search →
      search.point.address < loop.stop →
        setting.program.code[search.point.address]? = some instruction →
          instruction.closes? = some mark → ∃ index,
            search.store.stack.lastIndex? (Frame.isMark mark) = some index ∧
              entry.store.depth ≤ index

/-- Whether every repeat that the block of a loop counts in a register is started at no more than
one address. -/
def CountsOnce (program : Program) (loop : Loop) : Prop :=
  ∀ address other greedy, loop.first ≤ address → address < loop.stop →
    program.code[address]? = some (.repeatNext other greedy true) → program.StartsOnce other

end Loop

end PatternMachine
