import PatternMachine.Proofs.Counting.Stores
import PatternMachine.Proofs.Paired
import PatternMachine.Proofs.Recoding
import PatternMachine.Proofs.Subcalls

/-!
# Registers instead of frames

A program that counts repeats in frames may count them in registers instead.  The two runs make the
same dispatches, from stores that are twins; a dispatch that counts an iteration differs in one
effect only.
-/

namespace PatternMachine

/-! ### Counting in registers -/

/-- The instruction that counts in a register what another one counts in a frame. -/
def Instruction.direct : Instruction → Instruction
  | .repeatNext id greedy _ => .repeatNext id greedy true
  | other => other

/-- The program that counts all repeats in registers. -/
def Program.direct (program : Program) : Program :=
  { program with code := program.code.map Instruction.direct }

/-- The attempt of the program that counts all repeats in registers. -/
def Attempt.direct (attempt : Attempt) : Attempt :=
  { attempt with program := attempt.program.direct }

/-- The setting of the program that counts all repeats in registers. -/
def Setting.direct (setting : Setting) : Setting :=
  { setting with program := setting.program.direct }

/-- Whether a program throws nothing away, and starts every repeat that it counts in frames at one
address and never counts it in a register. -/
structure Program.Interchangeable (program : Program) : Prop where
  noPop : .pop ∉ program.code
  oneForm : ∀ id greedy greedy', .repeatNext id greedy false ∈ program.code →
    .repeatNext id greedy' true ∉ program.code
  oneStart : ∀ id greedy, .repeatNext id greedy false ∈ program.code → ∀ address address',
    program.startedAt? address = some id → program.startedAt? address' = some id →
      address = address'

namespace Instruction

@[simp] theorem isLoopBack_direct (instruction : Instruction) :
    instruction.direct.isLoopBack = instruction.isLoopBack := by
  cases instruction <;> rfl

/-- Only the instructions that count in frames are replaced. -/
theorem direct_eq_or (instruction : Instruction) :
    instruction.direct = instruction ∨ ∃ id greedy, instruction = .repeatNext id greedy false := by
  cases instruction with
  | repeatNext id greedy direct =>
      cases direct with
      | true => exact .inl rfl
      | false => exact .inr ⟨id, greedy, rfl⟩
  | _ => exact .inl rfl

end Instruction

namespace Program

variable {program : Program}

theorem getElem?_direct (program : Program) (address : Nat) :
    program.direct.code[address]? = program.code[address]?.map Instruction.direct :=
  Array.getElem?_map

/-- A repeat is counted in a frame exactly if an instruction does so. -/
theorem countsDirectly_eq_false_iff {id : Nat} :
    program.countsDirectly id = false ↔ ∃ greedy, .repeatNext id greedy false ∈ program.code := by
  rw [countsDirectly, ← Bool.not_eq_true, Array.all_eq_true_iff_forall_mem]
  constructor
  · intro some_counts
    simp only [not_forall] at some_counts
    obtain ⟨instruction, mem, counts⟩ := some_counts
    split at counts
    · next other greedy =>
        obtain rfl : other = id := by simpa using counts
        exact ⟨greedy, mem⟩
    · exact absurd rfl counts
  · rintro ⟨greedy, mem⟩ all
    simpa using all _ mem

theorem Interchangeable.countsDirectly (interchangeable : program.Interchangeable) {id : Nat}
    {greedy : Bool} (mem : .repeatNext id greedy true ∈ program.code) :
    program.countsDirectly id = true := by
  rw [← Bool.not_eq_false, countsDirectly_eq_false_iff]
  rintro ⟨greedy', mem'⟩
  exact interchangeable.oneForm id greedy' greedy mem' mem

/-- A repeat that is counted in frames has one body. -/
theorem Interchangeable.body_eq (interchangeable : program.Interchangeable) {id body body' : Nat}
    (inFrames : program.countsDirectly id = false) (starts : program.BodyAt id body)
    (starts' : program.BodyAt id body') : body = body' := by
  obtain ⟨greedy, mem⟩ := countsDirectly_eq_false_iff.1 inFrames
  obtain ⟨address, started, rfl⟩ := starts
  obtain ⟨address', started', rfl⟩ := starts'
  rw [interchangeable.oneStart id greedy mem address address' started started']

end Program

/-! ### The same instructions -/

namespace Attempt

variable (attempt : Attempt)

/-- What an instruction does depends on the size of the code and on the ways back of loops, and
these are the same. -/
theorem ofInstruction_direct (point : Point) (store : Store) (instruction : Instruction) :
    Plan.ofInstruction attempt.direct point store instruction =
      Plan.ofInstruction attempt point store instruction := by
  refine Plan.ofInstruction_withCode Array.size_map point store instruction fun _ _ _ => ?_
  rw [Array.getElem?_map, Option.map_map]
  exact congrArg (Option.map · _) (funext Instruction.isLoopBack_direct)

end Attempt

/-- Where a repeat is started, its body comes right behind. -/
theorem Plan.body_of_mem_repeatStart {attempt : Attempt} {point : Point} {id entered body : Nat}
    {offset : Int} {greedy : Bool}
    (mem : .enterRepeat entered body ∈ (repeatStart attempt point id offset greedy).effects) :
    body = point.next := by
  simp only [repeatStart] at mem
  split at mem
  · cases mem
  · obtain ⟨target, mem⟩ := of_mem_branch mem
    repeat' split at mem
    all_goals
      simp [goto, choiceAt] at mem
      exact mem.2

theorem Attempt.bodyAt_of_enterRepeat {attempt : Attempt} {point : Point} {store : Store}
    {id body : Nat} (mem : .perform (.enterRepeat id body) ∈ attempt.moves point store) :
    attempt.program.BodyAt id body := by
  refine ⟨point.address, startedAt?_of_enterRepeat mem, ?_⟩
  rcases of_mem_moves mem with isReject | ⟨instruction, fetched, made⟩
  · cases isReject
  rcases made with isWork | ⟨event, isNote⟩ | ⟨effect, effectMem, same⟩ | exitMem
  · cases isWork
  · cases isNote
  · cases same
    cases causes_of_mem_effects effectMem with
    | enterRepeat => exact Plan.body_of_mem_repeatStart effectMem
  · obtain ⟨point', same⟩ := choice_of_mem_exitMoves exitMem
    cases same

/-- The moves of a dispatch that neither discards anything nor counts in a frame may be copied. -/
theorem Attempt.copied_of_mem_moves {attempt : Attempt} {point : Point} {store : Store}
    {instruction : Instruction} (fetched : attempt.program.code[point.address]? = some instruction)
    (interchangeable : attempt.program.Interchangeable)
    (same : instruction.direct = instruction) {move : Move}
    (mem : move ∈ attempt.moves point store) : move.Copied attempt.program := by
  have fetchedMem : instruction ∈ attempt.program.code := Array.mem_of_getElem? fetched
  rcases of_mem_moves mem with rfl | ⟨instruction', fetched', made⟩
  · trivial
  obtain rfl : instruction = instruction' := by
    rw [fetched] at fetched'
    exact Option.some.inj fetched'
  rcases made with rfl | ⟨event, rfl⟩ | ⟨effect, effectMem, rfl⟩ | exitMem
  · trivial
  · trivial
  · cases causes_of_mem_effects effectMem with
    | enterRepeat => exact bodyAt_of_enterRepeat mem
    | countInRegister => exact interchangeable.countsDirectly fetchedMem
    | countInEntry => cases same
    | discard => exact interchangeable.noPop fetchedMem
    | _ => trivial
  · cases move with
    | perform effect =>
        obtain ⟨point', rfl⟩ := choice_of_mem_exitMoves exitMem
        trivial
    | _ => trivial

/-! ### The same dispatches -/

namespace Store.Twin

variable {attempt : Attempt} {left right : Store} (twin : left.Twin attempt.program right)
  (interchangeable : attempt.program.Interchangeable)

include twin interchangeable

/-- Twins continue from the same counts and bodies. -/
theorem progress (id : Nat) :
    left.progress? id (attempt.program.countsDirectly id) = right.progress? id true := by
  have counted := twin.count id
  cases isActive : left.active id with
  | none =>
      rw [count?_of_inactive isActive, count?] at counted
      rw [Option.map_eq_none_iff.1 counted.symm, progress?, isActive]
      rfl
  | some entry =>
      obtain ⟨count, body, continues⟩ :=
        twin.anchored.exists_progress? isActive (attempt.program.countsDirectly id)
      rw [count?, continues] at counted
      obtain ⟨⟨_, body'⟩, continues', rfl⟩ := Option.map_eq_some_iff.1 counted.symm
      rw [continues, continues']
      obtain ⟨_, _, isRegister⟩ := Option.bind_eq_some_iff.1 continues'
      obtain rfl : (right.registers.repeatOf id).body = body' :=
        congrArg Prod.snd (Option.some.inj isRegister)
      rw [progress?, isActive, Option.bind_some] at continues
      rw [← twin.bodies id]
      cases inFrames : attempt.program.countsDirectly id with
      | true =>
          rw [inFrames, if_pos rfl] at continues
          obtain rfl := congrArg Prod.snd (Option.some.inj continues)
          rfl
      | false =>
          rw [inFrames, if_neg Bool.noConfusion] at continues
          obtain ⟨_, _, outer, savedCount, read⟩ := twin.anchored.active id entry isActive
          simp only [Stack.entry?, read, Option.some.injEq, Prod.mk.injEq] at continues
          obtain ⟨rfl, rfl⟩ := continues
          rw [interchangeable.body_eq inFrames (twin.bodied.entries _ _ _ _ _ _ read)
            (twin.bodied.registers id entry (lt_size_of_active isActive) ⟨_, _, _, _, read⟩)]

/-- To end an iteration is for twins the same, but for what counts it. -/
theorem repeatNext_mirrors (point : Point) (id : Nat) (greedy : Bool) {direct : Bool}
    (form : attempt.program.countsDirectly id = direct) :
    (∃ reason, Plan.repeatNext attempt point left id greedy direct = .corrupt reason ∧
      Plan.repeatNext attempt point right id greedy true = .corrupt reason) ∨
    ∃ range count body record, left.counting? id direct = some record ∧
      Plan.repeatNext attempt point left id greedy direct =
        Plan.afterIteration point range count body greedy record ∧
      Plan.repeatNext attempt point right id greedy true =
        Plan.afterIteration point range count body greedy (.countInRegister id) := by
  subst form
  have progress := twin.progress interchangeable id
  cases ranged : attempt.program.repeatRanges[id]? with
  | none =>
      refine .inl ⟨.invalidRepeat id, ?_, ?_⟩
      · rw [Plan.repeatNext, ranged]
      · rw [Plan.repeatNext, ranged]
  | some range =>
      cases continues : left.progress? id (attempt.program.countsDirectly id) with
      | some found =>
          rw [continues] at progress
          obtain ⟨record, counts, plan⟩ :=
            Plan.repeatNext_of_progress? continues ranged point greedy
          obtain ⟨record', counts', plan'⟩ :=
            Plan.repeatNext_of_progress? progress.symm ranged point greedy
          cases counts'
          exact .inr ⟨_, _, _, record, counts, plan, plan'⟩
      | none =>
          have inactive : (left.registers.repeatOf id).entry = none := by
            cases isActive : left.active id with
            | none => exact isActive
            | some entry =>
                obtain ⟨count, body, found⟩ := twin.anchored.exists_progress? isActive
                  (attempt.program.countsDirectly id)
                rw [continues] at found
                cases found
          have inactive' : (right.registers.repeatOf id).entry = none := by
            rw [continues] at progress
            cases isActive : right.active id with
            | none => exact isActive
            | some entry =>
                rw [progress?, isActive] at progress
                cases progress
          refine .inl ⟨.repeatNotEntered id, ?_, ?_⟩
          · simp only [Plan.repeatNext, ranged, inactive]
          · simp only [Plan.repeatNext, ranged, inactive']

/-- An instruction that is not replaced does the same for twins. -/
theorem plan_eq (point : Point) {instruction : Instruction}
    (mem : instruction ∈ attempt.program.code) (same : instruction.direct = instruction) :
    Plan.ofInstruction attempt point right instruction =
      Plan.ofInstruction attempt point left instruction := by
  cases isCount : instruction.isCount with
  | false =>
      rw [← Plan.ofInstruction_outline _ _ right isCount, ← twin.outline,
        Plan.ofInstruction_outline _ _ left isCount]
  | true =>
      cases instruction with
      | repeatNext id greedy direct =>
          cases direct with
          | false => cases same
          | true =>
              have form := interchangeable.countsDirectly mem
              rcases twin.repeatNext_mirrors interchangeable point id greedy form with
                ⟨reason, plan, plan'⟩ | ⟨range, count, body, record, counts, plan, plan'⟩
              · exact plan'.trans plan.symm
              · cases counts
                exact plan'.trans plan.symm
      | _ => cases isCount

end Store.Twin

/-! ### The same runs -/

/-- The moves of a dispatch that counts an iteration, and those of one that counts it in a
register. -/
inductive Move.CountsIn (id : Nat) (record : Effect) : Move → Move → Prop
  | work : CountsIn id record .work .work
  | note {event : Event} : CountsIn id record (.perform (.note event)) (.perform (.note event))
  | choice {point : Point} :
      CountsIn id record (.perform (.push (.choice point))) (.perform (.push (.choice point)))
  | goto {point : Point} : CountsIn id record (.goto point) (.goto point)
  | count : CountsIn id record (.perform record) (.perform (.countInRegister id))

/-- Two searches that stand at the same point with stores that are twins. -/
structure Search.Twin (program : Program) (left right : Search) : Prop where
  same : right = { left with store := right.store }
  stores : left.store.Twin program right.store

namespace Search.Twin

variable {setting : Setting} {left right : Search} {move move' : Move}

theorem candidateRegion (twin : left.Twin setting.program right) :
    right.candidateRegion setting.direct = left.candidateRegion setting := by
  have position : right.point = left.point := by rw [twin.same]
  rw [Search.candidateRegion, Search.candidateRegion, position, ← right.store.region_outline,
    ← left.store.region_outline, twin.stores.outline]
  rfl

/-- An effect is carried out on twins, or there is no room for it on either. -/
theorem perform (twin : left.Twin setting.program right) {effect effect' : Effect}
    (mirrors : (Move.perform effect).Mirrors setting.program left.store (.perform effect')) :
    Paired (Search.Twin setting.program) (left.perform setting effect)
      (right.perform setting.direct effect') := by
  have stores : (effect.onStore left.store).Twin setting.program (effect'.onStore right.store) :=
    twin.stores.onStore mirrors
  have depth : right.store.stack.depth = left.store.stack.depth := twin.stores.depth.symm
  have room : right.store.stack.hasRoom setting.stackLimit =
      left.store.stack.hasRoom setting.stackLimit := by
    rw [Stack.hasRoom, Stack.hasRoom, depth]
  -- Reports aside, both effects ask for room or neither does.
  have carried : (∀ event, effect ≠ .note event) → (∀ event, effect' ≠ .note event) →
      effect'.needsRoom = effect.needsRoom →
        Paired (Search.Twin setting.program) (left.perform setting effect)
          (right.perform setting.direct effect') := by
    intro silent silent' needs
    rw [perform_of_ne_note _ _ silent, perform_of_ne_note _ _ silent', needs,
      show setting.direct.stackLimit = setting.stackLimit from rfl, room]
    refine .ite (.ends rfl) (.goesOn ⟨?_, stores⟩)
    rw [twin.same]
  cases mirrors with
  | same =>
      by_cases isNote : ∃ event, effect = .note event
      · obtain ⟨event, rfl⟩ := isNote
        refine .goesOn ⟨?_, ?_⟩
        · rw [twin.same]
          unfold Search.note
          have traces : setting.direct.options = setting.options := rfl
          rw [traces]
          split <;> rfl
        · rw [note_eq, note_eq setting.direct]
          exact twin.stores
      · exact carried (fun event same => isNote ⟨event, same⟩)
          (fun event same => isNote ⟨event, same⟩) rfl
  | count inFrames counts =>
      obtain ⟨index, _, rfl⟩ := Option.map_eq_some_iff.1 counts
      exact carried nofun nofun rfl

/-- Twins that make mirrored moves stay twins, or end alike. -/
theorem attempt (twin : left.Twin setting.program right)
    (mirrors : move.Mirrors setting.program left.store move') :
    Paired (Search.Twin setting.program) (move.attempt setting left)
      (move'.attempt setting.direct right) := by
  cases mirrors with
  | count inFrames counts => exact twin.perform (.count inFrames counts)
  | same regular copied =>
      have region := twin.candidateRegion
      have effects : ∀ effect, move = .perform effect →
          Paired (Search.Twin setting.program) (left.perform setting effect)
            (right.perform setting.direct effect) := by
        rintro effect rfl
        exact twin.perform (.same regular copied)
      obtain ⟨same, twins⟩ := twin
      have stores := twins.onStore (.same regular copied)
      generalize right.store = store at same twins stores
      subst same
      cases move with
      | perform effect => exact effects effect rfl
      | work =>
          simp only [Move.attempt, Search.work, hookCalls]
          exact .ite (.ends rfl) (.goesOn ⟨rfl, stores⟩)
      | fail =>
          have clock : outOfTime setting.direct = outOfTime setting := rfl
          simp only [Move.attempt, clock]
          exact .ite (.ends rfl) (.ite (.ends rfl) (.goesOn ⟨rfl, stores⟩))
      | backtrack =>
          have back := congrArg Prod.fst left.store.outline_backtrack
          have back' := congrArg Prod.fst store.outline_backtrack
          rw [twins.outline] at back
          have resumed : store.backtrack.1 = left.store.backtrack.1 := back'.symm.trans back
          simp only [Move.onStore] at stores
          simp only [Move.attempt]
          generalize left.store.backtrack = found, store.backtrack = found' at resumed stores
          obtain ⟨point?, rest⟩ := found
          obtain ⟨point?', rest'⟩ := found'
          obtain rfl : point?' = point? := resumed
          cases point?' with
          | some point => exact .goesOn ⟨rfl, stores⟩
          | none => exact .ends rfl
      | goto point => exact .goesOn ⟨rfl, stores⟩
      | consider =>
          have improved : ∀ length,
              improvedBy { left with store := store } length = left.improvedBy length :=
            fun _ => rfl
          simp only [Move.attempt, Search.consider, improved]
          rw [region, show setting.direct.input = setting.input from rfl]
          cases left.improvedBy (left.point.cursor.position - setting.input.start) with
          | true => exact .goesOn ⟨rfl, stores⟩
          | false => exact .goesOn ⟨rfl, stores⟩
      | matched =>
          simp only [Move.attempt]
          rw [region]
          exact .ends rfl
      | conclude | reject reason => exact .ends rfl

/-- Twins that make the same moves stay twins, if these may be copied. -/
theorem play_same (twin : left.Twin setting.program right) {moves : List Move}
    (legal : ∀ move ∈ moves, move.Regular setting.program ∧ move.Copied setting.program) :
    Paired (Search.Twin setting.program) (Move.play setting left moves)
      (Move.play setting.direct right moves) := by
  have attempts : ∀ {left right : Search} {move move' : Move}, left.Twin setting.program right →
      (move = move' ∧ move.Regular setting.program ∧ move.Copied setting.program) →
        Paired (Search.Twin setting.program) (move.attempt setting left)
          (move'.attempt setting.direct right) := by
    rintro left right move _ twin ⟨rfl, regular, copied⟩
    exact twin.attempt (.same regular copied)
  refine Move.play_paired attempts ?_ twin
  rw [List.forall₂_same]
  exact fun move mem => ⟨rfl, legal move mem⟩

/-- Twins that count an iteration stay twins. -/
theorem play_count (twin : left.Twin setting.program right) {id : Nat} {record : Effect}
    (inFrames : setting.program.countsDirectly id = false)
    (counts : left.store.counting? id false = some record) {moves moves' : List Move}
    (pairs : List.Forall₂ (Move.CountsIn id record) moves moves') :
    Paired (Search.Twin setting.program) (Move.play setting left moves)
      (Move.play setting.direct right moves') := by
  have both : Paired
      (fun left right => left.Twin setting.program right ∧
        left.store.counting? id false = some record)
      (Move.play setting left moves) (Move.play setting.direct right moves') := by
    refine Move.play_paired ?_ pairs ⟨twin, counts⟩
    rintro left right move move' ⟨twin, counts⟩ pair
    obtain ⟨index, _, rfl⟩ := Option.map_eq_some_iff.1 counts
    have keeps : ∀ {next}, move.attempt setting left = .ok next →
        next.store.active id = left.store.active id := by
      intro next attempted
      rw [Move.store_of_attempt attempted]
      cases pair with
      | work | note | choice | goto | count => rfl
    have mirrors : move.Mirrors setting.program left.store move' := by
      cases pair with
      | work | note | goto => exact .same trivial trivial
      | choice => exact .same rfl trivial
      | count => exact .count inFrames counts
    refine (twin.attempt mirrors).imp fun attempted twin => ⟨twin, ?_⟩
    rw [Store.counting?, keeps attempted]
    exact counts
  exact both.imp fun _ related => related.1

/-- Twins dispatch alike. -/
theorem step (twin : left.Twin setting.program right)
    (interchangeable : setting.program.Interchangeable) :
    Paired (Search.Twin setting.program) (left.step setting) (right.step setting.direct) := by
  have here : right.point = left.point := by rw [twin.same]
  have depth : right.store.depth = left.store.depth := twin.stores.depth.symm
  have fetchedDirect := setting.program.getElem?_direct left.point.address
  rw [step_eq_play, step_eq_play, here]
  cases fetched : setting.program.code[left.point.address]? with
  | none =>
      rw [fetched] at fetchedDirect
      have moves : setting.moves left.point left.store = [.reject .addressOutOfRange] := by
        rw [Attempt.moves, fetched]
      have moves' : setting.direct.moves left.point right.store =
          [.reject .addressOutOfRange] := by
        rw [Attempt.moves, show setting.direct.program = setting.program.direct from rfl,
          fetchedDirect]
        rfl
      rw [moves, moves']
      refine twin.play_same fun move mem => ?_
      obtain rfl := List.mem_singleton.1 mem
      exact ⟨trivial, trivial⟩
  | some instruction =>
      rw [fetched] at fetchedDirect
      have mem : instruction ∈ setting.program.code := Array.mem_of_getElem? fetched
      have moves : ∀ {plan}, Plan.ofInstruction setting.toAttempt left.point left.store
          instruction = plan → setting.moves left.point left.store =
            .work :: .perform (.note (.dispatched left.point left.store.depth)) ::
              setting.planMoves left.point plan := by
        rintro plan rfl
        rw [Attempt.moves, fetched]
      have moves' : ∀ {plan}, Plan.ofInstruction setting.toAttempt left.point right.store
          instruction.direct = plan → setting.direct.moves left.point right.store =
            .work :: .perform (.note (.dispatched left.point left.store.depth)) ::
              setting.planMoves left.point plan := by
        rintro plan rfl
        rw [Attempt.moves, show setting.direct.program = setting.program.direct from rfl,
          fetchedDirect]
        rw [← Attempt.ofInstruction_direct, ← depth]
        rfl
      rcases instruction.direct_eq_or with same | ⟨id, greedy, rfl⟩
      · rw [same] at moves'
        rw [moves' (twin.stores.plan_eq interchangeable left.point mem same), ← moves rfl]
        exact twin.play_same fun move mem => ⟨Attempt.regular_of_mem_moves mem,
          Attempt.copied_of_mem_moves fetched interchangeable same mem⟩
      · have inFrames : setting.program.countsDirectly id = false :=
          Program.countsDirectly_eq_false_iff.2 ⟨greedy, mem⟩
        rcases twin.stores.repeatNext_mirrors interchangeable left.point id greedy inFrames with
          ⟨reason, plan, plan'⟩ | ⟨range, count, body, record, counts, plan, plan'⟩
        · rw [moves plan, moves' plan']
          refine twin.play_same fun move mem => ?_
          rcases List.mem_cons.1 mem with rfl | mem
          · exact ⟨trivial, trivial⟩
          rcases List.mem_cons.1 mem with rfl | mem
          · exact ⟨trivial, trivial⟩
          obtain rfl : move = .reject reason := List.mem_singleton.1 mem
          exact ⟨trivial, trivial⟩
        · rw [moves plan, moves' plan']
          refine twin.play_count inFrames counts (.cons .work (.cons .note ?_))
          unfold Plan.afterIteration
          split
          · exact .cons .count (.cons .goto .nil)
          split
          · exact .cons .count (.cons .goto .nil)
          split
          · exact .cons .choice (.cons .count (.cons .goto .nil))
          · exact .cons .count (.cons .choice (.cons .goto .nil))

/-- Runs of twins have the same outcome. -/
theorem run? (twin : left.Twin setting.program right)
    (interchangeable : setting.program.Interchangeable) (dispatches : Nat) :
    (Search.run? setting.direct dispatches right).map Ending.outcome =
      (Search.run? setting dispatches left).map Ending.outcome := by
  induction dispatches generalizing left right with
  | zero => rfl
  | succ dispatches ih =>
      have stepped := twin.step interchangeable
      rw [Search.run?, Search.run?]
      revert stepped
      generalize left.step setting = result, right.step setting.direct = result'
      intro stepped
      cases stepped with
      | goesOn twin => exact ih twin
      | ends same => exact congrArg some same.symm

end Search.Twin

namespace Search

/-- Counting in registers instead of frames changes nothing about a run, whatever its limits are:
the match and its groups, the absence of a match and the error are the same after the same number of
dispatches.  The program throws nothing away, and every repeat that it counts in frames is started
at one address and is not counted in a register as well; it may be entered from anywhere, again
while it is active, and left in any way. -/
theorem registers_count_as_frames_do {setting : Setting}
    (interchangeable : setting.program.Interchangeable) (store : Store) (dispatches : Nat) :
    (run? setting.direct dispatches (start setting.direct store)).map Ending.outcome =
      (run? setting dispatches (start setting store)).map Ending.outcome := by
  have twin : (start setting store).Twin setting.program (start setting.direct store) :=
    ⟨rfl, .reset store⟩
  exact twin.run? interchangeable dispatches

/-- A repeat in the body of another one is entered twice, and gives back a character the second
time. -/
theorem registers_count_as_frames_do_when_nested :
    let setting := plainSetting #[⟨2, 2⟩, ⟨1, 2⟩]
      #[.repeatStart 0 5 true, .repeatStart 1 3 true, .byte 97, .repeatNext 1 true false,
        .repeatNext 0 true false, .byte 97, .accept] #[97, 97, 97, 97]
    setting.program.Interchangeable ∧
      (run? setting 17 (outset setting)).map (fun ending => ending.outcome) =
        some (.matched ⟨#[some 0], #[some 4]⟩) ∧
      (run? setting.direct 17 (outset setting.direct)).map (fun ending => ending.outcome) =
        some (.matched ⟨#[some 0], #[some 4]⟩) := by
  intro setting
  have interchangeable : setting.program.Interchangeable := by
    refine ⟨by decide +kernel, ?_, ?_⟩
    · intro id greedy greedy' _ mem
      simp [setting, plainSetting] at mem
    · have unique : ∀ address id, setting.program.startedAt? address = some id → address = id := by
        intro address id started
        rcases address with _ | _ | _ | _ | _ | _ | _ | address
        all_goals first | exact Option.some.inj started | cases started
      intro id greedy _ address address' started started'
      rw [unique address id started, unique address' id started']
  have matched : (run? setting 17 (outset setting)).map (fun ending => ending.outcome) =
      some (.matched ⟨#[some 0], #[some 4]⟩) := by decide +kernel
  refine ⟨interchangeable, matched, ?_⟩
  exact (registers_count_as_frames_do interchangeable _ 17).trans matched

/-- Where the conditions are not met, the runs differ.  A repeat that is started in vain elsewhere
while it is active goes on with the other body, as the register of the body is not written back; a
frame keeps its own body.  And a repeat that is counted in both ways has two counts. -/
theorem registers_do_not_count_as_frames_do :
    (let setting := plainSetting #[⟨2, 2⟩]
      #[.repeatStart 0 6 true, .push 3, .repeatStart 0 1 true, .fail, .byte 97,
        .repeatNext 0 true false, .accept] #[97, 97]
    .pop ∉ setting.program.code ∧
      (run? setting 17 (outset setting)).map (fun ending => ending.outcome) =
        some (.matched ⟨#[some 0], #[some 2]⟩) ∧
      (run? setting.direct 17 (outset setting.direct)).map (fun ending => ending.outcome) =
        some .unmatched) ∧
    (let setting := plainSetting #[⟨2, 2⟩]
      #[.repeatStart 0 7 true, .push 4, .byte 97, .repeatNext 0 true false, .jump 3, .byte 98,
        .repeatNext 0 true true, .accept] #[97, 98]
    .pop ∉ setting.program.code ∧
      (run? setting 17 (outset setting)).map (fun ending => ending.outcome) = some .unmatched ∧
      (run? setting.direct 17 (outset setting.direct)).map (fun ending => ending.outcome) =
        some (.matched ⟨#[some 0], #[some 2]⟩)) := by
  refine ⟨?vain, ?both⟩
  case vain => exact ⟨by decide +kernel, by decide +kernel, by decide +kernel⟩
  case both => exact ⟨by decide +kernel, by decide +kernel, by decide +kernel⟩

end Search

end PatternMachine
