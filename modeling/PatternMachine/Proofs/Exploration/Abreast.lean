import PatternMachine.Proofs.Exploration.Block
import PatternMachine.Proofs.Exploration.Findings

/-!
# Searches abreast

Two searches are abreast if they stand at the same point with stores in tandem.  They stay so with
every instruction of a block that is not of the repeat that makes the difference, or go back to
what their bases go back to, or are both stopped (`Search.Abreast.step`).
-/

namespace PatternMachine

/-! ### Going back -/

/-- Whether a search that fails with a store comes to a result: the latest choice, or the end of the
run for want of one. -/
inductive Store.FailsTo (program : Program) (store : Store) : Except Ending Search → Prop
  | resumed {next : Search} (back : store.backtrack.1 = some next.point)
      (below : next.store.forgetBodies = store.backtrack.2.forgetBodies)
      (orderly : next.store.Orderly program) : FailsTo program store (.ok next)
  | exhausted {ending : Ending} (noChoice : store.backtrack.1 = none)
      (answered : ending.isStopped = false) : FailsTo program store (.error ending)

namespace Store.FailsTo

variable {program : Program} {store other : Store} {result : Except Ending Search} {next : Search}

/-- Stores that go back to the same fail to the same. -/
theorem congr (fails : store.FailsTo program result)
    (unwinds : store.UnwindsAs Frame.isResumable other) : other.FailsTo program result := by
  have found : other.backtrack.1 = store.backtrack.1 :=
    congrArg (fun found? => found?.bind Frame.resume?) unwinds.1.symm
  have rest : other.backtrack.2.forgetBodies = store.backtrack.2.forgetBodies := unwinds.2.symm
  cases fails with
  | resumed back below orderly =>
      exact .resumed (found.trans back) (below.trans rest.symm) orderly
  | exhausted noChoice answered => exact .exhausted (found.trans noChoice) answered

/-- A choice lies below what a search goes back from. -/
theorem depth_lt (fails : store.FailsTo program (.ok next)) : next.store.depth < store.depth := by
  cases fails with
  | resumed back below =>
      obtain ⟨frame, found, _⟩ := Option.bind_eq_some_iff.1 back
      obtain ⟨read, resumable⟩ := offers_of_unwind found
      have sameDepth : next.store.depth = store.backtrack.2.depth :=
        congrArg (fun store => store.stack.depth) below
      rw [sameDepth]
      exact Stack.lt_depth_of_get? read

end Store.FailsTo

/-- A failure of a run without limits goes back as its store does. -/
theorem Search.failsTo_failing {setting : Setting} (free : setting.Free) {search : Search}
    (orderly : search.store.Orderly setting.program) :
    search.store.FailsTo setting.program (Move.play setting search Move.failing) := by
  have ordered : ∀ {next}, Move.play setting search Move.failing = .ok next →
      next.store.Orderly setting.program := by
    intro next played
    rw [Move.play_failing] at played
    exact orderly_of_fail orderly played
  rw [Move.play_failing_of_free free] at ordered ⊢
  cases back : search.store.backtrack with
  | mk found store =>
      cases found with
      | some point =>
          rw [back] at ordered
          refine .resumed ?_ ?_ (ordered rfl)
          · rw [back]
          · rw [back]
      | none =>
          refine .exhausted (by rw [back]) ?_
          cases search.best <;> rfl

/-! ### Moves in tandem -/

/-- Moves that two searches abreast may make, in such a way that they stay abreast. -/
inductive Move.Pairs (id : Nat) (base left right : Store) : Move → Move → Prop
  | work : Pairs id base left right .work .work
  | note {event event' : Event} :
      Pairs id base left right (.perform (.note event)) (.perform (.note event'))
  | goto {point : Point} : Pairs id base left right (.goto point) (.goto point)
  | still {effect : Effect} (same : effect.onStore left = left)
      (same' : effect.onStore right = right) :
      Pairs id base left right (.perform effect) (.perform effect)
  | matching {effect effect' : Effect} (isMatch : effect.Matches id left right effect') :
      Pairs id base left right (.perform effect) (.perform effect')
  | commit {mark : Mark} {index : Nat} (noCall : mark ≠ .call)
      (found : left.stack.lastIndex? (Frame.isMark mark) = some index)
      (above : base.depth ≤ index) :
      Pairs id base left right (.perform (.commit mark)) (.perform (.commit mark))
  | unwindTo {mark : Mark} {index : Nat}
      (found : left.stack.lastIndex? (Frame.isMark mark) = some index)
      (above : base.depth ≤ index) :
      Pairs id base left right (.perform (.unwindTo mark)) (.perform (.unwindTo mark))

/-- Moves that two searches abreast may make wherever they are, and after which they either go on
or fail. -/
inductive Move.Shared (program : Program) (id : Nat) : List Move → Prop
  | onward : Shared program id []
  | failing : Shared program id failing
  | reject {reason : Corruption} : Shared program id [.reject reason]
  | cons {move : Move} {moves : List Move}
      (pairs : ∀ {base left right : Store}, left.Orderly program → right.Orderly program →
        move.Pairs id base left right move)
      (rest : Shared program id moves) : Shared program id (move :: moves)

/-- Two searches at the same point with stores in tandem. -/
structure Search.Abreast (program : Program) (id : Nat) (direct : Bool) (count : Nat)
    (base base' : Store) (left right : Search) : Prop where
  here : right.point = left.point
  tandem : Store.Tandem id direct count base base' left.store right.store
  orderly : left.store.Orderly program
  orderly_right : right.store.Orderly program

/-- What two searches come to that were abreast. -/
inductive Search.Proceed (program : Program) (id : Nat) (direct : Bool) (count : Nat)
    (base base' : Store) : Except Ending Search → Except Ending Search → Prop
  | inside {left right : Search} (abreast : left.Abreast program id direct count base base' right) :
      Proceed program id direct count base base' (.ok left) (.ok right)
  | outside {result result' : Except Ending Search} (fails : base.FailsTo program result)
      (fails' : base'.FailsTo program result') :
      Proceed program id direct count base base' result result'
  | stopped {ending ending' : Ending} (stopped : ending.isStopped = true)
      (stopped' : ending'.isStopped = true) :
      Proceed program id direct count base base' (.error ending) (.error ending')

namespace Search.Abreast

open Move

variable {setting : Setting} {id count : Nat} {direct : Bool} {base base' : Store}
  {left right : Search}

section

variable (abreast : left.Abreast setting.program id direct count base base' right)

include abreast

/-- Searches abreast go back to where they are abreast again, or as their bases do. -/
theorem of_failsTo {result result' : Except Ending Search}
    (fails : left.store.FailsTo setting.program result)
    (fails' : right.store.FailsTo setting.program result') :
    (∃ next next', result = .ok next ∧ result' = .ok next' ∧
      next.Abreast setting.program id direct count base base' next') ∨
    (base.FailsTo setting.program result ∧ base'.FailsTo setting.program result') := by
  rcases abreast.tandem.backtrack with
    ⟨point, below, below', goesBack, goesBack', rest⟩ | ⟨asBase, asBase'⟩
  · left
    cases fails with
    | exhausted noChoice => rw [goesBack] at noChoice; cases noChoice
    | @resumed next back same orderly =>
        cases fails' with
        | exhausted noChoice => rw [goesBack'] at noChoice; cases noChoice
        | @resumed next' back' same' orderly' =>
            rw [goesBack] at back same
            rw [goesBack'] at back' same'
            refine ⟨next, next', rfl, rfl, ?_, rest.congr same same', orderly, orderly'⟩
            exact (Option.some.inj back').symm.trans (Option.some.inj back)
  · exact .inr ⟨fails.congr asBase, fails'.congr asBase'⟩

/-- A choice that a search abreast goes back to and that is not above the base is below it. -/
theorem failing (free : setting.Free) :
    Proceed setting.program id direct count base base' (play setting left failing)
      (play setting right failing) := by
  have fails := failsTo_failing free abreast.orderly
  have fails' := failsTo_failing free abreast.orderly_right
  rcases abreast.of_failsTo fails fails' with ⟨next, next', same, same', goesOn⟩ | ⟨out, out'⟩
  · rw [same, same']
    exact .inside goesOn
  · exact .outside out out'

variable (free : setting.Free) (start : base.Alike id direct count base')

include free start

/-- Searches abreast stay so with moves in tandem. -/
theorem attempt {move move' : Move} (pairs : move.Pairs id base left.store right.store move')
    (lawful : move.Lawful setting.program) (lawful' : move'.Lawful setting.program) :
    ∃ next next', move.attempt setting left = .ok next ∧ move'.attempt setting right = .ok next' ∧
      next.Abreast setting.program id direct count base base' next' := by
  have ordered := abreast.orderly.onStore lawful
  have ordered' := abreast.orderly_right.onStore lawful'
  obtain ⟨here, tandem, orderly, orderly'⟩ := abreast
  -- Effects leave the point alone, so only what they make of the stores matters.
  have performed : ∀ {effect effect' : Effect}, move = .perform effect → move' = .perform effect' →
      Store.Tandem id direct count base base' (effect.onStore left.store)
        (effect'.onStore right.store) →
      ∃ next next', move.attempt setting left = .ok next ∧
        move'.attempt setting right = .ok next' ∧
          next.Abreast setting.program id direct count base base' next' := by
    rintro effect effect' rfl rfl tandem
    obtain ⟨next, made, point, store, _⟩ := perform_of_unlimited free.stackLimit left effect
    obtain ⟨next', made', point', store', _⟩ := perform_of_unlimited free.stackLimit right effect'
    refine ⟨next, next', made, made', ?_, ?_, ?_, ?_⟩
    · rw [point', here, point]
    · rw [store, store']
      exact tandem
    · rw [store]
      exact ordered
    · rw [store']
      exact ordered'
  cases pairs with
  | work =>
      exact ⟨_, _, work_of_free free left, work_of_free free right, here, tandem, orderly, orderly'⟩
  | goto => exact ⟨_, _, rfl, rfl, rfl, tandem, orderly, orderly'⟩
  | note => exact performed rfl rfl tandem
  | still same same' => exact performed rfl rfl (same.symm ▸ same'.symm ▸ tandem)
  | matching isMatch =>
      exact performed rfl rfl
        (tandem.onStore start orderly orderly' isMatch lawful.regular lawful'.regular)
  | commit noCall found above => exact performed rfl rfl (tandem.commit found above noCall)
  | @unwindTo mark index found above =>
      refine performed rfl rfl ?_
      rcases tandem.unwind (fun _ => Frame.IsPlain.of_isMark)
          (fun _ _ shape => Frame.isMark_of_shape shape mark) with
        ⟨top, top', below, below', goesBack, goesBack', _, _, rest⟩ | ⟨_, _, lower⟩
      · rw [Effect.onStore, Effect.onStore, Store.unwindTo, Store.unwindTo, goesBack, goesBack']
        exact rest
      · exact absurd (lower index found) (Nat.not_lt.2 above)

/-- Searches abreast make one move after the other. -/
theorem play_cons {move move' : Move} {moves moves' : List Move}
    (pairs : move.Pairs id base left.store right.store move')
    (lawful : move.Lawful setting.program) (lawful' : move'.Lawful setting.program)
    (rest : ∀ {next next' : Search}, next.Abreast setting.program id direct count base base' next' →
      next.store = move.onStore left.store → next'.store = move'.onStore right.store →
        Proceed setting.program id direct count base base' (play setting next moves)
          (play setting next' moves')) :
    Proceed setting.program id direct count base base' (play setting left (move :: moves))
      (play setting right (move' :: moves')) := by
  obtain ⟨next, next', made, made', goesOn⟩ := abreast.attempt free start pairs lawful lawful'
  rw [Move.play_cons, Move.play_cons, made, made']
  exact rest goesOn (store_of_attempt made) (store_of_attempt made')

/-- Searches abreast make shared moves. -/
theorem play_shared {moves : List Move} (shared : Shared setting.program id moves)
    (lawful : ∀ move ∈ moves, move.Lawful setting.program) :
    Proceed setting.program id direct count base base' (play setting left moves)
      (play setting right moves) := by
  induction shared generalizing left right with
  | onward => exact .inside abreast
  | failing => exact abreast.failing free
  | reject => exact .stopped rfl rfl
  | cons pairs rest ih =>
      have first := lawful _ List.mem_cons_self
      refine abreast.play_cons free start (pairs abreast.orderly abreast.orderly_right) first
        first ?_
      intro next next' goesOn _ _
      exact ih goesOn fun move mem => lawful move (List.mem_cons_of_mem _ mem)

end

end Search.Abreast

/-! ### Dispatches that do the same -/

/-- The bracket that an instruction ends. -/
def Instruction.closes? : Instruction → Option Mark
  | .lookEnd => some .look
  | .atomicEnd => some .atomic
  | .lookNotFail => some .lookNot
  | .lookBehindNotFail => some .behindNot
  | _ => none

namespace Move.Shared

variable {program : Program} {id : Nat} {moves : List Move}

theorem of_sweeps {star : Star} (sweeps : star.Sweeps moves) : Shared program id moves := by
  induction sweeps with
  | goto => exact .cons (fun _ _ => .goto) .onward
  | failing => exact .failing
  | work rest ih => exact .cons (fun _ _ => .work) ih
  | choice rest ih => exact .cons (fun _ _ => .matching (.push rfl)) ih

theorem exitMoves {attempt : Attempt} (point : Point) {exit : Exit} {Good : Nat → Prop}
    (leads : exit.LeadsInto Good) : Shared program id (attempt.exitMoves point exit) := by
  cases leads with
  | goto => exact .cons (fun _ _ => .goto) .onward
  | fail => exact .failing
  | sweep => exact of_sweeps (Star.sweeps_sweepMoves ..)
  | leap => exact of_sweeps (Star.sweeps_leapMoves ..)
  | corrupt => exact .reject

theorem perform {effects : List Effect} (rest : Shared program id moves)
    (pairs : ∀ effect ∈ effects, ∀ {base left right : Store}, left.Orderly program →
      right.Orderly program →
        (Move.perform effect).Pairs id base left right (.perform effect)) :
    Shared program id (effects.map .perform ++ moves) := by
  induction effects with
  | nil => exact rest
  | cons effect effects ih =>
      exact .cons (pairs effect List.mem_cons_self)
        (ih fun other mem => pairs other (List.mem_cons_of_mem _ mem))

end Move.Shared

namespace Attempt

variable {attempt : Attempt} {point : Point} {store : Store} {instruction : Instruction} {id : Nat}

/-- The effects of an instruction that neither is of the repeat, nor counts, nor ends a bracket do
the same in stores in tandem. -/
theorem Causes.pairs (restorable : attempt.program.Restorable)
    (mem : instruction ∈ attempt.program.code) (enclosed : instruction.isEnclosed = true)
    (apart : instruction.repeat? ≠ some id) (noCount : instruction.isCount = false)
    (noClosing : instruction.closes? = none) {effect : Effect}
    (causes : attempt.Causes point store instruction effect) {base left right : Store}
    (orderly : left.Orderly attempt.program) (orderly' : right.Orderly attempt.program) :
    (Move.perform effect).Pairs id base left right (.perform effect) := by
  cases causes with
  | report => exact .note
  | choice | look | lookNot | behindNot | atomic => exact .matching (.push rfl)
  | openGroup => exact .matching .openGroup
  | closeGroup => exact .matching .closeGroup
  | clearGroup => exact .matching .clearGroup
  | startGroup | stopGroup => exact absurd (restorable.logsAll _ mem) Bool.noConfusion
  | unsetGroup known direct =>
      have unset : ∀ {store : Store}, store.Orderly attempt.program →
          store.setGroup _ .unset = store := fun orderly => by
        rw [← orderly.logged.unset _ direct, Store.setGroup_self]
      exact .still (unset orderly) (unset orderly')
  | enterRepeat => exact .matching (.enterRepeat fun same => apart (congrArg some same))
  | countInEntry | countInRegister => cases noCount
  | emptyCheck | call | returned | discard => cases enclosed
  | lookEnd | atomicEnd | lookNotFail | behindNotFail => cases noClosing

/-- The moves of such an instruction are shared. -/
theorem shared_planMoves (restorable : attempt.program.Restorable)
    (mem : instruction ∈ attempt.program.code) (enclosed : instruction.isEnclosed = true)
    (apart : instruction.repeat? ≠ some id) (noCount : instruction.isCount = false)
    (noClosing : instruction.closes? = none) (point : Point) (store : Store) :
    Move.Shared attempt.program id
      (attempt.planMoves point (.ofInstruction attempt point store instruction)) := by
  have leads : (Plan.ofInstruction attempt point store instruction).LeadsInto fun _ => True :=
    Plan.leadsInto_ofInstruction enclosed
      ⟨trivial, fun _ _ _ _ => trivial, fun _ _ _ _ _ _ _ => trivial⟩
  refine (Move.Shared.exitMoves point leads.exit).perform fun effect effectMem => ?_
  intro base left right orderly orderly'
  exact (causes_of_mem_effects effectMem).pairs restorable mem enclosed apart noCount noClosing
    orderly orderly'

end Attempt

namespace Store.Resembles

variable {attempt : Attempt} {left right : Store} {id : Nat} (resembles : left.Resembles id right)

include resembles

theorem span? (group : Nat) : right.span? group = left.span? group := by
  have same := congrFun resembles.captures group
  simp only [Store.captures] at same
  rw [Store.span?, Store.span?, same]

theorem repeat? (position : Nat) (reference : BackReference) :
    reference.repeat? attempt right position = reference.repeat? attempt left position :=
  BackReference.repeat?_congr rfl (fun _ => rfl) resembles.span? rfl
    (fun groups wanted => (resembles.spans groups wanted (0, none)).symm) position reference

/-- An instruction that neither counts nor ends a bracket does the same in stores that resemble each
other. -/
theorem plan_eq (logsAll : attempt.program.LogsAll) (point : Point) {instruction : Instruction}
    (mem : instruction ∈ attempt.program.code) (enclosed : instruction.isEnclosed = true)
    (noCount : instruction.isCount = false) (noClosing : instruction.closes? = none) :
    Plan.ofInstruction attempt point right instruction =
      Plan.ofInstruction attempt point left instruction := by
  cases instruction with
  | openGroup group logged | closeGroup group logged =>
      cases logged with
      | true => rfl
      | false => exact absurd (logsAll _ mem) Bool.noConfusion
  | backReference reference =>
      simp only [Plan.ofInstruction, Plan.backReference, resembles.repeat?]
  | pop | emptyCheckStart | emptyCheckEnd | call | callReturn => cases enclosed
  | repeatNext => cases noCount
  | lookEnd | atomicEnd | lookNotFail | lookBehindNotFail => cases noClosing
  | _ => rfl

end Store.Resembles

/-! ### Dispatches that count -/

/-- What a repeat does after an iteration differs in what counts it alone. -/
theorem Plan.afterIteration_cases (point : Point) (range : RepeatRange) (count body : Nat)
    (greedy : Bool) :
    ∃ address,
      (∀ record, afterIteration point range count body greedy record =
        .goto address point.cursor [record]) ∨
      (∃ left, ∀ record, afterIteration point range count body greedy record =
        .goto address point.cursor [choiceAt point left, record]) ∨
      ∃ left, ∀ record, afterIteration point range count body greedy record =
        .goto address point.cursor [record, choiceAt point left] := by
  unfold afterIteration
  split
  · exact ⟨_, .inl fun _ => rfl⟩
  split
  · exact ⟨_, .inl fun _ => rfl⟩
  split
  · exact ⟨_, .inr (.inl ⟨_, fun _ => rfl⟩)⟩
  · exact ⟨_, .inr (.inr ⟨_, fun _ => rfl⟩)⟩

/-- Whether a repeat is started at no more than one address. -/
def Program.StartsOnce (program : Program) (id : Nat) : Prop :=
  ∀ address address', program.startedAt? address = some id →
    program.startedAt? address' = some id → address = address'

theorem Program.StartsOnce.body_eq {program : Program} {id body body' : Nat}
    (once : program.StartsOnce id) (starts : program.BodyAt id body)
    (starts' : program.BodyAt id body') : body = body' := by
  obtain ⟨address, started, rfl⟩ := starts
  obtain ⟨address', started', rfl⟩ := starts'
  rw [once address address' started started']

namespace Store.Resembles

variable {program : Program} {left right : Store} {id other : Nat} {direct : Bool}
  (resembles : left.Resembles id right) (orderly : left.Orderly program)
  (orderly' : right.Orderly program) (apart : other ≠ id)
  (once : direct = true → program.StartsOnce other)

include resembles orderly orderly' apart

/-- Other repeats are active in both stores or in none, and have come as far. -/
theorem standing_cases :
    (left.active other = none ∧ right.active other = none) ∨
    ∃ standing, left.standing? other = some standing ∧ right.standing? other = some standing := by
  have same := resembles.repeats other apart
  have stands : ∀ {store : Store}, store.Orderly program →
      store.active other = none ∨ ∃ standing, store.standing? other = some standing := by
    intro store orderly
    cases isActive : store.active other with
    | none => exact .inl rfl
    | some entry =>
        obtain ⟨count, body, continues⟩ := orderly.anchored.exists_progress? isActive false
        refine .inr ⟨((count, body), (store.registers.repeatOf other).count), ?_⟩
        rw [standing?, continues]
        rfl
  rcases stands orderly with inactive | ⟨standing, isStanding⟩
  · rcases stands orderly' with inactive' | ⟨standing', isStanding'⟩
    · exact .inl ⟨inactive, inactive'⟩
    · rw [standing?_of_inactive inactive, isStanding'] at same
      cases same
  · exact .inr ⟨standing, isStanding, same.symm.trans isStanding⟩

include once

/-- Other repeats continue from the same. -/
theorem progress {standing : (Nat × Nat) × Nat} (stands : left.standing? other = some standing) :
    ∃ progress, left.progress? other direct = some progress ∧
      right.progress? other direct = some progress := by
  have stands' := (resembles.repeats other apart).symm.trans stands
  obtain ⟨progress, continues, made⟩ := Option.map_eq_some_iff.1 stands
  obtain ⟨progress', continues', made'⟩ := Option.map_eq_some_iff.1 stands'
  obtain ⟨rfl, counts⟩ := Prod.mk.inj (made.trans made'.symm)
  cases direct with
  | false => exact ⟨progress, continues, continues'⟩
  | true =>
      obtain ⟨entry, isActive, _⟩ := Option.bind_eq_some_iff.1 continues
      obtain ⟨entry', isActive', _⟩ := Option.bind_eq_some_iff.1 continues'
      have reads : ∀ {store : Store} {entry : Nat}, store.active other = some entry →
          store.progress? other true = some
            ((store.registers.repeatOf other).count, (store.registers.repeatOf other).body) := by
        intro store entry isActive
        rw [progress?, isActive]
        rfl
      have body := (once rfl).body_eq (orderly.bodied.bodyAt orderly.anchored (reads isActive))
        (orderly'.bodied.bodyAt orderly'.anchored (reads isActive'))
      refine ⟨_, reads isActive, ?_⟩
      rw [reads isActive', counts, body]

/-- To end an iteration of another repeat is the same, but for what counts it. -/
theorem repeatNext (attempt : Attempt) (point : Point) (greedy : Bool) :
    (∃ reason, Plan.repeatNext attempt point left other greedy direct = .corrupt reason ∧
      Plan.repeatNext attempt point right other greedy direct = .corrupt reason) ∨
    ∃ range count body record record' standing, left.standing? other = some standing ∧
      left.counting? other direct = some record ∧ right.counting? other direct = some record' ∧
      Plan.repeatNext attempt point left other greedy direct =
        Plan.afterIteration point range count body greedy record ∧
      Plan.repeatNext attempt point right other greedy direct =
        Plan.afterIteration point range count body greedy record' := by
  cases ranged : attempt.program.repeatRanges[other]? with
  | none =>
      refine .inl ⟨.invalidRepeat other, ?_, ?_⟩
      · rw [Plan.repeatNext, ranged]
      · rw [Plan.repeatNext, ranged]
  | some range =>
      rcases resembles.standing_cases orderly orderly' apart with
        ⟨inactive, inactive'⟩ | ⟨standing, stands, _⟩
      · replace inactive : (left.registers.repeatOf other).entry = none := inactive
        replace inactive' : (right.registers.repeatOf other).entry = none := inactive'
        refine .inl ⟨.repeatNotEntered other, ?_, ?_⟩
        · simp only [Plan.repeatNext, ranged, inactive]
        · simp only [Plan.repeatNext, ranged, inactive']
      · obtain ⟨⟨count, body⟩, continues, continues'⟩ :=
          resembles.progress orderly orderly' apart once stands
        obtain ⟨record, counts, plan⟩ :=
          Plan.repeatNext_of_progress? continues ranged point greedy
        obtain ⟨record', counts', plan'⟩ :=
          Plan.repeatNext_of_progress? continues' ranged point greedy
        exact .inr ⟨range, _, body, record, record', standing, stands, counts, counts', plan, plan'⟩

end Store.Resembles

/-! ### Dispatches that end brackets -/

/-- What an instruction that ends a bracket may do. -/
theorem Plan.closing_cases {instruction : Instruction} {mark : Mark}
    (closes : instruction.closes? = some mark) (attempt : Attempt) (point : Point)
    (store : Store) :
    (∃ reason, ofInstruction attempt point store instruction = .corrupt reason) ∨
    (∃ cursor, ofInstruction attempt point store instruction =
      .goto point.next cursor [.commit mark] ∧ mark ≠ .call) ∨
    ofInstruction attempt point store instruction = ⟨[.unwindTo mark], .fail⟩ := by
  cases instruction with
  | lookEnd =>
      cases closes
      simp only [ofInstruction, lookEnd]
      cases store.stack.lookCursor? with
      | some cursor => exact .inr (.inl ⟨_, rfl, Mark.noConfusion⟩)
      | none => exact .inl ⟨_, rfl⟩
  | atomicEnd =>
      cases closes
      simp only [ofInstruction, atomicEnd]
      cases store.stack.hasMark .atomic with
      | true => exact .inr (.inl ⟨_, rfl, Mark.noConfusion⟩)
      | false => exact .inl ⟨_, rfl⟩
  | lookNotFail | lookBehindNotFail =>
      cases closes
      simp only [ofInstruction, excluded]
      split
      · exact .inr (.inr rfl)
      · exact .inl ⟨_, rfl⟩
  | _ => cases closes

/-- An instruction that ends a bracket does the same in stores in tandem, if the bracket was opened
above the bases. -/
theorem Store.Tandem.plan_eq {id count : Nat} {direct : Bool} {base base' left right : Store}
    (tandem : Tandem id direct count base base' left right) {instruction : Instruction}
    {mark : Mark} (closes : instruction.closes? = some mark) {index : Nat}
    (found : left.stack.lastIndex? (Frame.isMark mark) = some index) (above : base.depth ≤ index)
    (attempt : Attempt) (point : Point) :
    Plan.ofInstruction attempt point right instruction =
      Plan.ofInstruction attempt point left instruction := by
  have here : left.stack.hasMark mark = true := by
    rw [Stack.hasMark, found]
    rfl
  have here' := tandem.hasMark found above
  cases instruction with
  | lookEnd =>
      cases closes
      simp only [Plan.ofInstruction, Plan.lookEnd, tandem.lookCursor? found above]
  | atomicEnd | lookNotFail | lookBehindNotFail =>
      cases closes
      simp only [Plan.ofInstruction, Plan.atomicEnd, Plan.excluded, here, here']
  | _ => cases closes

/-! ### Dispatches of a block -/

/-- Whether a block above a base may dispatch an instruction with a store. -/
structure Instruction.Fits (program : Program) (id : Nat) (base store : Store)
    (instruction : Instruction) : Prop where
  enclosed : instruction.isEnclosed = true
  apart : instruction.repeat? ≠ some id
  once : ∀ other greedy, instruction = .repeatNext other greedy true → program.StartsOnce other
  closes : ∀ mark, instruction.closes? = some mark → ∃ index,
    store.stack.lastIndex? (Frame.isMark mark) = some index ∧ base.depth ≤ index

namespace Search.Abreast

open Move

variable {setting : Setting} {id count : Nat} {direct : Bool} {base base' : Store}
  {left right : Search}

/-- Searches abreast count an iteration of another repeat alike. -/
theorem play_counting (abreast : left.Abreast setting.program id direct count base base' right)
    (free : setting.Free) (start : base.Alike id direct count base') {other : Nat} {form : Bool}
    (apart : other ≠ id) {standing : (Nat × Nat) × Nat}
    (stands : left.store.standing? other = some standing) {record record' : Effect}
    (counts : left.store.counting? other form = some record)
    (counts' : right.store.counting? other form = some record')
    (lawful : (Move.perform record).Lawful setting.program)
    (lawful' : (Move.perform record').Lawful setting.program) (point : Point) (range : RepeatRange)
    (iterations body : Nat) (greedy : Bool) :
    Proceed setting.program id direct count base base'
      (play setting left (setting.planMoves point
        (.afterIteration point range iterations body greedy record)))
      (play setting right (setting.planMoves point
        (.afterIteration point range iterations body greedy record'))) := by
  have goes : ∀ {next next' : Search} (point : Point),
      next.Abreast setting.program id direct count base base' next' →
        Proceed setting.program id direct count base base' (play setting next [.goto point])
          (play setting next' [.goto point]) := by
    intro next next' point goesOn
    refine goesOn.play_shared free start (.cons (fun _ _ => .goto) .onward) fun move mem => ?_
    rw [List.mem_singleton.1 mem]
    exact ⟨trivial, trivial, nofun, Move.noConfusion⟩
  have matching : record.Matches id left.store right.store record' :=
    .count apart stands counts counts'
  obtain ⟨address, plan | ⟨choice, plan⟩ | ⟨choice, plan⟩⟩ :=
    Plan.afterIteration_cases point range iterations body greedy
  · rw [plan, plan]
    exact abreast.play_cons free start (.matching matching) lawful lawful' fun goesOn _ _ =>
      goes _ goesOn
  · rw [plan, plan]
    refine abreast.play_cons free start (.matching (.push rfl)) (lawful_choice _ _)
      (lawful_choice _ _) ?_
    intro next next' goesOn store store'
    -- A choice below what counts changes nothing about the repeat.
    have kept : ((Move.perform (Plan.choiceAt point choice)).onStore left.store).standing? other =
        left.store.standing? other :=
      Store.standing?_of_push abreast.orderly.anchored rfl rfl
    have matching : record.Matches id next.store next'.store record' := by
      rw [store, store']
      exact .count apart (kept.trans stands) counts counts'
    exact goesOn.play_cons free start (.matching matching) lawful lawful' fun goesOn _ _ =>
      goes _ goesOn
  · rw [plan, plan]
    refine abreast.play_cons free start (.matching matching) lawful lawful' fun goesOn _ _ => ?_
    exact goesOn.play_cons free start (.matching (.push rfl)) (lawful_choice _ _)
      (lawful_choice _ _) fun goesOn _ _ => goes _ goesOn

/-- Searches abreast end a bracket alike that was opened above the base. -/
theorem play_closing (abreast : left.Abreast setting.program id direct count base base' right)
    (free : setting.Free) (start : base.Alike id direct count base') {instruction : Instruction}
    {mark : Mark} (closes : instruction.closes? = some mark) {index : Nat}
    (found : left.store.stack.lastIndex? (Frame.isMark mark) = some index)
    (above : base.depth ≤ index) {point : Point}
    (lawful : ∀ move ∈ setting.planMoves point
      (.ofInstruction setting.toAttempt point left.store instruction),
      move.Lawful setting.program) :
    Proceed setting.program id direct count base base'
      (play setting left (setting.planMoves point
        (.ofInstruction setting.toAttempt point left.store instruction)))
      (play setting right (setting.planMoves point
        (.ofInstruction setting.toAttempt point right.store instruction))) := by
  rw [abreast.tandem.plan_eq closes found above]
  rcases Plan.closing_cases closes setting.toAttempt point left.store with
    ⟨reason, plan⟩ | ⟨cursor, plan, noCall⟩ | plan
  · rw [plan]
    exact .stopped rfl rfl
  · rw [plan] at lawful ⊢
    have first := lawful _ List.mem_cons_self
    refine abreast.play_cons free start (.commit noCall found above) first first ?_
    intro _ _ goesOn _ _
    exact goesOn.play_shared free start (.cons (fun _ _ => .goto) .onward) fun move mem =>
      lawful move (List.mem_cons_of_mem _ mem)
  · rw [plan] at lawful ⊢
    have first := lawful _ List.mem_cons_self
    refine abreast.play_cons free start (.unwindTo found above) first first ?_
    intro _ _ goesOn _ _
    exact goesOn.failing free

/-- Searches abreast carry out what a block may do at their point. -/
theorem planMoves (abreast : left.Abreast setting.program id direct count base base' right)
    (free : setting.Free) (start : base.Alike id direct count base')
    (restorable : setting.program.Restorable) {instruction : Instruction}
    (mem : instruction ∈ setting.program.code)
    (fits : instruction.Fits setting.program id base left.store) {point : Point}
    (lawful : ∀ move ∈ setting.planMoves point
      (.ofInstruction setting.toAttempt point left.store instruction),
      move.Lawful setting.program)
    (lawful' : ∀ move ∈ setting.planMoves point
      (.ofInstruction setting.toAttempt point right.store instruction),
      move.Lawful setting.program) :
    Proceed setting.program id direct count base base'
      (play setting left (setting.planMoves point
        (.ofInstruction setting.toAttempt point left.store instruction)))
      (play setting right (setting.planMoves point
        (.ofInstruction setting.toAttempt point right.store instruction))) := by
  have resembles := (abreast.tandem.alike start).resembles
  cases isCount : instruction.isCount with
  | true =>
      obtain ⟨other, greedy, form, rfl⟩ :
          ∃ other greedy form, instruction = .repeatNext other greedy form := by
        cases instruction with
        | repeatNext other greedy form => exact ⟨other, greedy, form, rfl⟩
        | _ => cases isCount
      have apart : other ≠ id := fun same => fits.apart (congrArg some same)
      rcases resembles.repeatNext abreast.orderly abreast.orderly_right apart
          (fun direct => fits.once other greedy (direct ▸ rfl)) setting.toAttempt point greedy with
        ⟨reason, plan, plan'⟩ |
        ⟨range, iterations, body, record, record', standing, stands, counts, counts', plan, plan'⟩
      · simp only [Plan.ofInstruction, plan, plan']
        exact .stopped rfl rfl
      · simp only [Plan.ofInstruction, plan, plan'] at lawful lawful' ⊢
        have recorded : ∀ record : Effect, Move.perform record ∈ setting.planMoves point
            (.afterIteration point range iterations body greedy record) := by
          intro record
          obtain ⟨address, plan | ⟨choice, plan⟩ | ⟨choice, plan⟩⟩ :=
            Plan.afterIteration_cases point range iterations body greedy
          all_goals
            rw [plan]
            simp [Attempt.planMoves, Plan.goto]
        exact abreast.play_counting free start apart stands counts counts'
          (lawful _ (recorded _)) (lawful' _ (recorded _)) point range iterations body greedy
  | false =>
      cases closes : instruction.closes? with
      | none =>
          rw [resembles.plan_eq restorable.logsAll point mem fits.enclosed isCount closes]
          exact abreast.play_shared free start
            (Attempt.shared_planMoves restorable mem fits.enclosed fits.apart isCount closes
              point _)
            lawful
      | some mark =>
          obtain ⟨index, found, above⟩ := fits.closes mark closes
          exact abreast.play_closing free start closes found above lawful

/-- Searches abreast dispatch alike what a block may do. -/
theorem step (abreast : left.Abreast setting.program id direct count base base' right)
    (free : setting.Free) (start : base.Alike id direct count base')
    (restorable : setting.program.Restorable) {instruction : Instruction}
    (fetched : setting.program.code[left.point.address]? = some instruction)
    (fits : instruction.Fits setting.program id base left.store) :
    Proceed setting.program id direct count base base' (left.step setting)
      (right.step setting) := by
  have lawful : ∀ store, ∀ move ∈ setting.moves left.point store, move.Lawful setting.program :=
    fun store move mem => Attempt.lawful_of_mem_moves restorable mem
  rw [step_eq_play, step_eq_play, abreast.here]
  simp only [Attempt.moves, fetched] at lawful ⊢
  have work := lawful left.store _ List.mem_cons_self
  refine abreast.play_cons free start .work work work ?_
  intro worked worked' goesOn store store'
  have noted := fun store => lawful store _ (List.mem_cons_of_mem _ List.mem_cons_self)
  refine goesOn.play_cons free start .note (noted _) (noted _) ?_
  intro next next' goesOn sameStore sameStore'
  obtain here : next.store = left.store := sameStore.trans store
  obtain here' : next'.store = right.store := sameStore'.trans store'
  have planned := fun store move mem =>
    lawful store move (List.mem_cons_of_mem _ (List.mem_cons_of_mem _ mem))
  rw [← here, ← here']
  rw [← here] at fits
  exact goesOn.planMoves free start restorable (Array.mem_of_getElem? fetched) fits (planned _)
    (planned _)

end Search.Abreast

end PatternMachine
