import PatternMachine.Proofs.Exploration.Loop
import PatternMachine.Proofs.Route

/-!
# Blocks that enclose their brackets

Whether a block is left only by its end, and ends only the brackets that it has opened, may be told
from its instructions: a list of open brackets for each address, such that each instruction leads
only to addresses where those are listed that are open by then (`Loop.Listed`).  Such a block
encloses what it does, in whatever state it is entered (`Loop.Listed.encloses`).
-/

namespace PatternMachine

/-! ### Brackets above a floor -/

/-- The bracket that the frame at an index opens. -/
def Stack.markAt? (stack : Stack) (index : Nat) : Option Mark :=
  (stack.get? index).bind Frame.mark?

/-- Whether frames below a height open the brackets of a list, the innermost first, and none of them
lies below a floor. -/
inductive Stack.Opens (stack : Stack) (floor : Nat) : Nat → List Mark → Prop
  | nil {height : Nat} : Opens stack floor height []
  | cons {height index : Nat} {mark : Mark} {context : List Mark} (above : floor ≤ index)
      (below : index < height) (isMark : stack.markAt? index = some mark)
      (outer : Opens stack floor index context) : Opens stack floor height (mark :: context)

namespace Stack

variable {stack other : Stack} {floor height index : Nat} {context : List Mark} {mark : Mark}

theorem markAt?_push_of_lt (frame : Frame) (below : index < stack.depth) :
    (stack.push frame).markAt? index = stack.markAt? index := by
  rw [markAt?, markAt?, get?_push_of_lt _ _ below]

theorem markAt?_setEntryCount (entry count : Nat) :
    (stack.setEntryCount entry count).markAt? index = stack.markAt? index := by
  rw [markAt?, markAt?, setEntryCount, get?_modify]
  split
  · cases stack.get? index with
    | none => rfl
    | some frame => cases frame <;> rfl
  · rfl

namespace Opens

theorem higher (opens : stack.Opens floor height context) {height' : Nat}
    (more : height ≤ height') : stack.Opens floor height' context := by
  cases opens with
  | nil => exact .nil
  | cons above below isMark outer => exact .cons above (Nat.lt_of_lt_of_le below more) isMark outer

/-- Brackets stay open as long as the frames below the height open the same. -/
theorem transport (opens : stack.Opens floor height context)
    (same : ∀ index, index < height → other.markAt? index = stack.markAt? index) :
    other.Opens floor height context := by
  induction opens with
  | nil => exact .nil
  | cons above below isMark outer ih =>
      exact .cons above below ((same _ below).trans isMark)
        (ih fun index lower => same index (Nat.lt_trans lower below))

/-- An open bracket is found from the top, above the floor and above all around it. -/
theorem exists_lastIndex? (opens : stack.Opens floor height (mark :: context)) :
    ∃ last, stack.lastIndex? (Frame.isMark mark) = some last ∧ floor ≤ last ∧
      stack.Opens floor last context := by
  cases opens with
  | cons above below isMark outer =>
      obtain ⟨frame, read, opensMark⟩ := Option.bind_eq_some_iff.1 isMark
      have passes : frame.isMark mark = true := by
        rw [Frame.isMark, opensMark]
        exact beq_self_eq_true _
      obtain ⟨last, higher, found⟩ := Stack.exists_lastIndex? read passes
      exact ⟨last, found, Nat.le_trans above higher, outer.higher higher⟩

end Opens

end Stack

/-! ### Choices above a floor -/

/-- Whether every choice above a floor resumes at an address where those brackets may be open that
are open below it. -/
def Store.Resumable (good : List Mark → Nat → Prop) (floor : Nat) (store : Store) : Prop :=
  ∀ index frame point, floor ≤ index → store.Offers index frame → frame.resume? = some point →
    ∃ context, good context point.address ∧ store.stack.Opens floor index context

/-- Whether brackets are open above a floor, and all choices above it may be gone back to. -/
structure Store.Fenced (good : List Mark → Nat → Prop) (floor : Nat) (store : Store)
    (context : List Mark) : Prop where
  opens : store.stack.Opens floor store.depth context
  resumable : store.Resumable good floor

/-- Whether an effect takes frames off, or gives them up. -/
def Effect.isClosing : Effect → Bool
  | .discard | .commit _ | .unwindTo _ => true
  | _ => false

theorem Effect.rises_of_keeps {effect : Effect} (keeps : effect.isClosing = false)
    (store : Store) : store.depth ≤ (effect.onStore store).depth := by
  cases effect with
  | discard | commit mark | unwindTo mark => cases keeps
  | note event | setGroup group bounds => exact Nat.le_refl _
  | _ => exact raises_of_needsRoom rfl store

namespace Store

variable {store : Store} {index : Nat}

theorem markAt?_onStore {effect : Effect} (keeps : effect.isClosing = false)
    (below : index < store.depth) :
    (effect.onStore store).stack.markAt? index = store.stack.markAt? index := by
  cases effect with
  | discard | commit mark | unwindTo mark => cases keeps
  | note event | setGroup group bounds => rfl
  | countInEntry entry =>
      have deep : ∀ count, index < (store.stack.setEntryCount entry count).depth := fun count => by
        rw [Stack.depth_setEntryCount]
        exact below
      exact (Stack.markAt?_push_of_lt _ (deep _)).trans (Stack.markAt?_setEntryCount _ _)
  | push frame => exact Stack.markAt?_push_of_lt frame below
  | openGroup | closeGroup | clearGroup | enterRepeat | countInRegister =>
      exact Stack.markAt?_push_of_lt _ below

theorem markAt?_unwind {test : Frame → Bool} (plain : ∀ frame, test frame = true → frame.IsPlain)
    (below : index < (store.unwind test).2.depth) :
    (store.unwind test).2.stack.markAt? index = store.stack.markAt? index := by
  induction store using push_induction with
  | empty registers =>
      rw [unwind_blank]
  | push store frame ih =>
      rw [unwind_push] at below ⊢
      split at below
      · next passes =>
          rw [if_pos passes]
          exact (Stack.markAt?_push_of_lt frame below).symm
      · next fails =>
          rw [if_neg fails]
          have lower : index < store.depth := by
            have shallow := (unwind_eq_rewind plain (store.restore frame)).1
            rw [depth_restore] at shallow
            exact Nat.lt_of_lt_of_le below shallow
          rw [ih _ (store.depth_restore frame) below]
          have kept : (store.restore frame).stack.markAt? index = store.stack.markAt? index := by
            cases frame with
            | entryCount entry count => exact Stack.markAt?_setEntryCount _ _
            | _ => rfl
          exact kept.trans (Stack.markAt?_push_of_lt frame lower).symm

theorem markAt?_commit {mark : Mark} {last : Nat}
    (found : store.stack.lastIndex? (Frame.isMark mark) = some last) (below : index < last) :
    (store.commit mark).2.stack.markAt? index = store.stack.markAt? index := by
  have kept := (Stack.get?_commit found index).trans (if_pos below)
  rw [Stack.markAt?, Stack.markAt?]
  exact congrArg (Option.bind · Frame.mark?) kept

variable {good : List Mark → Nat → Prop} {floor : Nat} {context : List Mark}

/-- What is unwound may be gone back from. -/
theorem Resumable.unwind (resumable : store.Resumable good floor) {test : Frame → Bool}
    (plain : ∀ frame, test frame = true → frame.IsPlain) :
    (store.unwind test).2.Resumable good floor := by
  intro index frame point above offers resumes
  obtain ⟨context, isGood, opens⟩ := resumable index frame point above offers.of_unwind resumes
  refine ⟨context, isGood, opens.transport fun other lower => markAt?_unwind plain ?_⟩
  exact Nat.lt_trans lower (Stack.lt_depth_of_get? offers.1)

/-- The brackets that were open when a choice was left are open when the search goes back to it. -/
theorem Resumable.backtrack (resumable : store.Resumable good floor) {point : Point}
    (back : store.backtrack.1 = some point) (above : floor ≤ store.backtrack.2.depth) :
    ∃ context, good context point.address ∧ store.backtrack.2.Fenced good floor context := by
  have plain : ∀ frame : Frame, frame.isResumable = true → frame.IsPlain :=
    fun _ => Frame.IsPlain.of_isResumable
  obtain ⟨frame, found, resumes⟩ := Option.bind_eq_some_iff.1 back
  obtain ⟨context, isGood, opens⟩ := resumable _ frame point above (offers_of_unwind found) resumes
  exact ⟨context, isGood, opens.transport fun _ => markAt?_unwind plain, resumable.unwind plain⟩

namespace Fenced

/-- Brackets stay open behind an effect that takes nothing off, and a choice that it pushes resumes
where they may be open. -/
theorem onStore (fenced : store.Fenced good floor context) {effect : Effect}
    (keeps : effect.isClosing = false)
    (resumes : ∀ frame point, effect = .push frame → frame.resume? = some point →
      good context point.address) : (effect.onStore store).Fenced good floor context where
  opens :=
    Stack.Opens.higher (fenced.opens.transport fun _ => markAt?_onStore keeps)
      (Effect.rises_of_keeps keeps store)
  resumable := by
    intro index frame point above offers resumesAt
    rcases offers.of_onStore with older | ⟨rfl, rfl⟩
    · obtain ⟨outer, isGood, opens⟩ := fenced.resumable index frame point above older resumesAt
      have inside := Stack.lt_depth_of_get? older.1
      exact ⟨outer, isGood, opens.transport fun _ lower =>
        markAt?_onStore keeps (Nat.lt_trans lower inside)⟩
    · exact ⟨context, resumes frame point rfl resumesAt,
        fenced.opens.transport fun _ => markAt?_onStore keeps⟩

/-- A mark that is pushed opens its bracket inside all others. -/
theorem push (fenced : store.Fenced good floor context) {frame : Frame} {mark : Mark}
    (above : floor ≤ store.depth) (isMark : frame.mark? = some mark)
    (resumes : ∀ point, frame.resume? = some point → good context point.address) :
    (store.push frame).Fenced good floor (mark :: context) where
  opens := by
    refine .cons above ?_ ?_ (fenced.opens.transport fun _ => Stack.markAt?_push_of_lt frame)
    · exact Nat.lt_of_lt_of_eq (Nat.lt_succ_self _) (store.depth_push _).symm
    · exact (congrArg (Option.bind · Frame.mark?) (store.stack.get?_depth_push frame)).trans isMark
  resumable := by
    have pushed : ((Effect.push frame).onStore store).Fenced good floor context := by
      refine fenced.onStore rfl ?_
      rintro _ point ⟨⟩ resumesAt
      exact resumes point resumesAt
    exact pushed.resumable

/-- The end of a bracket gives up what was pushed inside of it, and nothing that is around it. -/
theorem commit {mark : Mark} (fenced : store.Fenced good floor (mark :: context)) :
    (store.commit mark).2.Fenced good floor context := by
  obtain ⟨last, found, _, outer⟩ := fenced.opens.exists_lastIndex?
  have inside : last < store.depth := Stack.lt_depth_of_lastIndex? found
  constructor
  · rw [depth_commit]
    exact Stack.Opens.higher (outer.transport fun _ => markAt?_commit found) (Nat.le_of_lt inside)
  · intro index frame point above offers resumes
    obtain ⟨last', found', below⟩ := offers.lt_of_commit
    obtain rfl : last = last' := Option.some.inj (found.symm.trans found')
    obtain ⟨outer, isGood, opens⟩ := fenced.resumable index frame point above offers.of_commit
      resumes
    exact ⟨outer, isGood, opens.transport fun _ lower =>
      markAt?_commit found (Nat.lt_trans lower below)⟩

end Fenced

end Store

/-! ### Moves in a block -/

/-- The lists of moves that lead from where some brackets are open to where others may be, or to a
choice. -/
inductive Move.Stays (good : List Mark → Nat → Prop) : List Mark → List Move → Prop
  | goto {point : Point} {context : List Mark} (isGood : good context point.address) :
      Stays good context [.goto point]
  | failing {context : List Mark} : Stays good context failing
  | exclude {mark : Mark} {context : List Mark} :
      Stays good context (.perform (.unwindTo mark) :: failing)
  | reject {reason : Corruption} {context : List Mark} : Stays good context [.reject reason]
  | work {moves : List Move} {context : List Mark} (rest : Stays good context moves) :
      Stays good context (.work :: moves)
  | perform {effect : Effect} {moves : List Move} {context : List Mark}
      (keeps : effect.isClosing = false)
      (resumes : ∀ frame point, effect = .push frame → frame.resume? = some point →
        good context point.address) (rest : Stays good context moves) :
      Stays good context (.perform effect :: moves)
  | opens {frame : Frame} {mark : Mark} {moves : List Move} {context : List Mark}
      (isMark : frame.mark? = some mark)
      (resumes : ∀ point, frame.resume? = some point → good context point.address)
      (rest : Stays good (mark :: context) moves) :
      Stays good context (.perform (.push frame) :: moves)
  | commit {mark : Mark} {moves : List Move} {context : List Mark}
      (rest : Stays good context moves) :
      Stays good (mark :: context) (.perform (.commit mark) :: moves)

namespace Move.Stays

variable {good : List Mark → Nat → Prop} {context : List Mark} {moves : List Move}

theorem of_sweeps {star : Star} (isGood : good context star.next) (sweeps : star.Sweeps moves) :
    Stays good context moves := by
  induction sweeps with
  | goto => exact .goto isGood
  | failing => exact .failing
  | work rest ih => exact .work ih
  | choice rest ih =>
      refine .perform rfl ?_ ih
      rintro _ _ ⟨⟩ ⟨⟩
      exact isGood

theorem exitMoves {attempt : Attempt} (point : Point) {exit : Exit}
    (leads : exit.LeadsInto (good context)) :
    Stays good context (attempt.exitMoves point exit) := by
  cases leads with
  | goto isGood => exact .goto isGood
  | fail => exact .failing
  | sweep isGood => exact of_sweeps isGood (Star.sweeps_sweepMoves ..)
  | leap isGood => exact of_sweeps isGood (Star.sweeps_leapMoves ..)
  | corrupt => exact .reject

/-- A plan without closings that leads to good addresses stays where the same brackets are open. -/
theorem planMoves {attempt : Attempt} {point : Point} {plan : Plan}
    (leads : plan.LeadsInto (good context))
    (keeps : ∀ effect ∈ plan.effects, effect.isClosing = false) :
    Stays good context (attempt.planMoves point plan) := by
  have performs : ∀ effects : List Effect, (∀ effect ∈ effects, effect ∈ plan.effects) →
      Stays good context (effects.map .perform ++ attempt.exitMoves point plan.exit) := by
    intro effects among
    induction effects with
    | nil => exact exitMoves point leads.exit
    | cons effect effects ih =>
        have own := among effect List.mem_cons_self
        refine .perform (keeps effect own) ?_
          (ih fun other mem => among other (List.mem_cons_of_mem _ mem))
        rintro frame resumed rfl
        exact leads.choices frame resumed own
  exact performs plan.effects fun _ mem => mem

variable {setting : Setting} {floor : Nat} {search next : Search}

/-- A failure leads to a choice that is left in the store that fails. -/
theorem fenced_of_failing (resumable : search.store.Resumable good floor)
    (played : play setting search Move.failing = .ok next) (above : floor ≤ next.store.depth) :
    ∃ context, good context next.point.address ∧ next.store.Fenced good floor context := by
  have back := (of_play_failing played).2
  have resumed := @resumable.backtrack _ _ _ next.point
  rw [back] at resumed
  exact resumed rfl above

/-- A search that stays in a block comes to where the brackets may be open that are. -/
theorem fenced_of_play (stays : Stays good context moves)
    (fenced : search.store.Fenced good floor context) (above : floor ≤ search.store.depth)
    (played : play setting search moves = .ok next) (above' : floor ≤ next.store.depth) :
    ∃ context, good context next.point.address ∧ next.store.Fenced good floor context := by
  induction stays generalizing search with
  | goto isGood =>
      cases played
      exact ⟨_, isGood, fenced⟩
  | failing => exact fenced_of_failing fenced.resumable played above'
  | reject => cases played
  | exclude =>
      obtain ⟨middle, attempted, played⟩ := exists_of_play_cons played
      have store := store_of_attempt attempted
      refine fenced_of_failing ?_ played above'
      rw [store]
      exact fenced.resumable.unwind fun _ => Frame.IsPlain.of_isMark
  | work rest ih =>
      obtain ⟨middle, attempted, played⟩ := exists_of_play_cons played
      have store : middle.store = search.store := store_of_attempt attempted
      exact ih (store ▸ fenced) (store ▸ above) played
  | perform keeps resumes rest ih =>
      obtain ⟨middle, attempted, played⟩ := exists_of_play_cons played
      have store := store_of_attempt attempted
      have kept := fenced.onStore keeps resumes
      refine ih (store ▸ kept) (store ▸ Nat.le_trans above ?_) played
      exact Effect.rises_of_keeps keeps _
  | opens isMark resumes rest ih =>
      obtain ⟨middle, attempted, played⟩ := exists_of_play_cons played
      have store := store_of_attempt attempted
      refine ih (store ▸ fenced.push above isMark resumes) (store ▸ Nat.le_trans above ?_) played
      exact Effect.rises_of_keeps rfl _
  | commit rest ih =>
      obtain ⟨middle, attempted, played⟩ := exists_of_play_cons played
      have store := store_of_attempt attempted
      refine ih (store ▸ fenced.commit) ?_ played
      rw [store, onStore, Effect.onStore, Store.depth_commit]
      exact above

end Move.Stays

/-! ### Blocks whose brackets are listed -/

/-- The bracket that an instruction starts. -/
def Instruction.opens? : Instruction → Option Mark
  | .lookStart => some .look
  | .atomicStart => some .atomic
  | .lookNotStart _ => some .lookNot
  | .lookBehindNotStart .. => some .behindNot
  | _ => none

/-- The brackets that are open behind an instruction.  Only the innermost bracket may be ended. -/
def Instruction.behind? (instruction : Instruction) (context : List Mark) : Option (List Mark) :=
  match instruction.opens?, instruction.closes?, context with
  | some mark, _, _ => some (mark :: context)
  | none, none, _ => some context
  | none, some mark, inner :: outer => if inner = mark then some outer else none
  | none, some _, [] => none

/-- Where an instruction may lead other than to the next one: to its target, and to the bodies of
the repeat that it counts. -/
def Instruction.targets (program : Program) (address : Nat) (instruction : Instruction) :
    List Nat :=
  (instruction.offset?.bind (program.target? address)).toList ++
    match instruction with
    | .repeatNext id _ _ =>
        ((List.range program.code.size).filter fun start =>
          program.startedAt? start = some id).map (· + 1)
    | _ => []

/-- Whether an instruction may stand at an address where brackets are open, if the addresses are
good to which it leads. -/
structure Instruction.Admitted (program : Program) (good : List Mark → Nat → Prop) (address : Nat)
    (context : List Mark) (instruction : Instruction) : Prop where
  enclosed : instruction.isEnclosed = true
  next : ∃ outer ∈ instruction.behind? context, good outer (address + 1)
  targets : ∀ target ∈ instruction.targets program address, good context target

instance {program : Program} {good : List Mark → Nat → Prop}
    [∀ brackets, DecidablePred (good brackets)] {address : Nat} {context : List Mark}
    {instruction : Instruction} :
    Decidable (instruction.Admitted program good address context) :=
  decidable_of_iff
    (instruction.isEnclosed = true ∧
      (∃ outer ∈ instruction.behind? context, good outer (address + 1)) ∧
        ∀ target ∈ instruction.targets program address, good context target)
    ⟨fun ⟨enclosed, next, targets⟩ => ⟨enclosed, next, targets⟩,
      fun ⟨enclosed, next, targets⟩ => ⟨enclosed, next, targets⟩⟩

/-- An instruction opens a bracket, ends the innermost one, or does neither. -/
theorem Instruction.behind?_cases {instruction : Instruction} {context outer : List Mark}
    (isBehind : instruction.behind? context = some outer) :
    (∃ mark, instruction.opens? = some mark ∧ outer = mark :: context) ∨
      (∃ mark, instruction.closes? = some mark ∧ context = mark :: outer) ∨
        (instruction.opens? = none ∧ instruction.closes? = none ∧ outer = context) := by
  unfold behind? at isBehind
  split at isBehind
  · next mark opening =>
      exact .inl ⟨mark, opening, (Option.some.inj isBehind).symm⟩
  · next noOpening noClosing =>
      exact .inr (.inr ⟨noOpening, noClosing, (Option.some.inj isBehind).symm⟩)
  · next mark inner rest noOpening closing =>
      split at isBehind
      · next same =>
          cases isBehind
          exact .inr (.inl ⟨mark, closing, same ▸ rfl⟩)
      · cases isBehind
  · cases isBehind

namespace Instruction.Admitted

variable {attempt : Attempt} {good : List Mark → Nat → Prop} {point : Point} {store : Store}
  {context : List Mark} {instruction : Instruction} {program : Program} {address : Nat}

theorem target (admitted : instruction.Admitted program good address context) {offset : Int}
    {target : Nat} (named : instruction.offset? = some offset)
    (isTarget : program.target? address offset = some target) : good context target := by
  refine admitted.targets target (List.mem_append_left _ ?_)
  rw [named]
  exact Option.mem_toList.2 isTarget

theorem body {id : Nat} {greedy direct : Bool}
    (admitted : (Instruction.repeatNext id greedy direct).Admitted program good address context)
    {body : Nat} (starts : program.BodyAt id body) : good context body := by
  obtain ⟨start, started, rfl⟩ := starts
  refine admitted.targets _ (List.mem_append_right _ (List.mem_map.2 ⟨start, ?_, rfl⟩))
  have inside : start < program.code.size := by
    obtain ⟨instruction, fetched, _⟩ := Option.bind_eq_some_iff.1 started
    exact (Array.getElem?_eq_some_iff.1 fetched).1
  exact List.mem_filter.2 ⟨List.mem_range.2 inside, decide_eq_true started⟩

/-- The bracket that an instruction ends is the innermost that is open. -/
theorem context_of_closes (admitted : instruction.Admitted program good address context)
    {mark : Mark} (closing : instruction.closes? = some mark) :
    ∃ outer, context = mark :: outer := by
  obtain ⟨outer, isBehind, _⟩ := admitted.next
  rcases behind?_cases isBehind with ⟨_, opening, _⟩ | ⟨_, closing', rfl⟩ | ⟨_, noClosing, _⟩
  · cases instruction <;> cases opening <;> cases closing
  · cases closing.symm.trans closing'
    exact ⟨outer, rfl⟩
  · rw [noClosing] at closing
    cases closing

/-- An instruction that may stand in a block makes moves that stay there. -/
theorem stays (admitted : instruction.Admitted attempt.program good point.address context)
    (orderly : store.Orderly attempt.program) :
    Move.Stays good context
      (attempt.planMoves point (.ofInstruction attempt point store instruction)) := by
  obtain ⟨outer, isBehind, next⟩ := admitted.next
  rcases behind?_cases isBehind with
    ⟨mark, opening, rfl⟩ | ⟨mark, closing, rfl⟩ | ⟨noOpening, noClosing, rfl⟩
  · have goes : ∀ cursor, Move.Stays good (mark :: context) [.goto ⟨point.next, cursor⟩] :=
      fun _ => .goto next
    cases instruction with
    | lookStart | atomicStart =>
        cases opening
        exact .opens rfl nofun (goes _)
    | lookNotStart offset =>
        cases opening
        simp only [Plan.ofInstruction, Plan.branch]
        split
        · next there isTarget =>
            refine .opens rfl ?_ (goes _)
            rintro _ ⟨⟩
            exact admitted.target rfl isTarget
        · exact .reject
    | lookBehindNotStart offset length =>
        cases opening
        simp only [Plan.ofInstruction, Plan.lookBehindNotStart, Plan.branch]
        split
        · next there isTarget =>
            have isGood := admitted.target rfl isTarget
            split
            · refine .opens rfl ?_ (goes _)
              rintro _ ⟨⟩
              exact isGood
            · exact .goto isGood
        · exact .reject
    | _ => cases opening
  · rcases Plan.closing_cases closing attempt point store with
      ⟨reason, plan⟩ | ⟨cursor, plan, _⟩ | plan
    · rw [plan]
      exact .reject
    · rw [plan]
      exact .commit (.goto next)
    · rw [plan]
      exact .exclude
  · have leads : attempt.Leads point store instruction (good outer) := by
      refine ⟨next, fun offset target => admitted.target, ?_⟩
      rintro id greedy direct count body rfl continues
      exact admitted.body (orderly.bodied.bodyAt orderly.anchored continues)
    refine .planMoves (Plan.leadsInto_ofInstruction admitted.enclosed leads) fun effect mem => ?_
    cases Attempt.causes_of_mem_effects mem with
    | discard => cases admitted.enclosed
    | lookEnd | atomicEnd | lookNotFail | behindNotFail => cases noClosing
    | _ => rfl

end Instruction.Admitted

namespace Loop

/-- Whether an address lies in the block of a loop or at its end, and some brackets are listed
there. -/
def Lists (loop : Loop) (context : Nat → List Mark) (brackets : List Mark) (address : Nat) : Prop :=
  loop.first ≤ address ∧ address ≤ loop.stop ∧ context address = brackets

/-- Whether the brackets that are listed at the addresses of a block are those that are open there,
none at first. -/
structure Listed (program : Program) (loop : Loop) (context : Nat → List Mark) : Prop where
  nested : loop.start < loop.stop
  nothing : context loop.first = []
  admits : ∀ address instruction, loop.first ≤ address → address < loop.stop →
    program.code[address]? = some instruction →
      instruction.Admitted program (loop.Lists context) address (context address)

instance {loop : Loop} {context : Nat → List Mark} (brackets : List Mark) :
    DecidablePred (loop.Lists context brackets) :=
  fun address => inferInstanceAs
    (Decidable (loop.first ≤ address ∧ address ≤ loop.stop ∧ context address = brackets))

instance {program : Program} {loop : Loop} {context : Nat → List Mark} :
    Decidable (loop.Listed program context) :=
  decidable_of_iff
    (loop.start < loop.stop ∧ context loop.first = [] ∧
      ∀ address, address < loop.stop → loop.first ≤ address →
        ∀ instruction ∈ program.code[address]?,
          instruction.Admitted program (loop.Lists context) address (context address))
    ⟨fun ⟨nested, nothing, admits⟩ => ⟨nested, nothing,
        fun address instruction lower before fetched =>
          admits address before lower instruction fetched⟩,
      fun ⟨nested, nothing, admits⟩ => ⟨nested, nothing,
        fun address before lower instruction fetched =>
          admits address instruction lower before fetched⟩⟩

namespace Listed

variable {setting : Setting} {loop : Loop} {context : Nat → List Mark}
  (listed : loop.Listed setting.program context) (restorable : setting.program.Restorable)

include listed restorable

/-- Wherever a search comes to in the block, the brackets are open that are listed there. -/
theorem fenced {entry search : Search} (entered : entry.point.address = loop.first)
    (orderly : entry.store.Orderly setting.program)
    (within : entry.Within setting loop.stop search) :
    loop.first ≤ search.point.address ∧ search.point.address ≤ loop.stop ∧
      search.store.Orderly setting.program ∧ entry.store.depth ≤ search.store.depth ∧
        search.store.Fenced (loop.Lists context) entry.store.depth
          (context search.point.address) := by
  have there : ∀ {next : Search},
      (∃ brackets, loop.Lists context brackets next.point.address ∧
        next.store.Fenced (loop.Lists context) entry.store.depth brackets) →
      next.store.Orderly setting.program → entry.store.depth ≤ next.store.depth →
        loop.first ≤ next.point.address ∧ next.point.address ≤ loop.stop ∧
          next.store.Orderly setting.program ∧ entry.store.depth ≤ next.store.depth ∧
            next.store.Fenced (loop.Lists context) entry.store.depth
              (context next.point.address) := by
    rintro next ⟨_, ⟨lower, upper, rfl⟩, fenced⟩ ordered above
    exact ⟨lower, upper, ordered, above, fenced⟩
  induction within with
  | entered =>
      rw [entered]
      refine ⟨Nat.le_refl _, listed.nested, orderly, Nat.le_refl _, ?_, ?_⟩
      · rw [listed.nothing]
        exact .nil
      · intro index frame point above offers _
        exact absurd (Stack.lt_depth_of_get? offers.1) (Nat.not_lt.2 above)
  | @dispatched search next within inside stepped above ih =>
      obtain ⟨lower, upper, ordered, deep, fenced⟩ := ih
      refine there ?_ (Search.orderly_of_step restorable ordered stepped) above
      rw [Search.step_eq_play, Attempt.moves] at stepped
      split at stepped
      · cases stepped
      · next instruction fetched =>
          have admitted := listed.admits _ instruction lower (Nat.lt_of_le_of_ne upper inside)
            fetched
          have stays : Move.Stays _ _ (setting.planMoves search.point
              (.ofInstruction setting.toAttempt search.point search.store instruction)) :=
            admitted.stays ordered
          refine Move.Stays.fenced_of_play (.work (.perform rfl ?_ stays)) fenced deep stepped above
          rintro _ _ ⟨⟩
  | @retried search next within through failed above ih =>
      obtain ⟨lower, upper, ordered, deep, fenced⟩ := ih
      refine there ?_ (Search.orderly_of_fail ordered failed) above
      rw [← Move.play_failing] at failed
      exact Move.Stays.fenced_of_failing fenced.resumable failed above

/-- A block whose brackets are listed encloses what it does. -/
theorem encloses : loop.Encloses setting where
  enclosed := fun address instruction lower before fetched =>
    (listed.admits address instruction lower before fetched).enclosed
  confined := by
    intro entry search entered orderly within
    obtain ⟨lower, upper, _⟩ := listed.fenced restorable entered orderly within
    exact ⟨lower, upper⟩
  closes := by
    intro entry search instruction mark entered orderly within before fetched closing
    obtain ⟨lower, _, _, _, fenced⟩ := listed.fenced restorable entered orderly within
    obtain ⟨outer, isContext⟩ :=
      (listed.admits _ instruction lower before fetched).context_of_closes closing
    have opens := fenced.opens
    rw [isContext] at opens
    obtain ⟨last, found, above, _⟩ := opens.exists_lastIndex?
    exact ⟨last, found, above⟩

end Listed

end Loop

end PatternMachine
