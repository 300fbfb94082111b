import Mathlib.Tactic.IntervalCases
import PatternMachine.Proofs.Exploration.Enclosure
import PatternMachine.Proofs.Exploration.Settling
import PatternMachine.Proofs.Subcalls

/-!
# Bounded repeats explore their ranges

A loop keeps its count in frames and registers, and leaves choices between the frames of its block.
All that is seen of it from behind is that the block was gone through so many times as the range
allows, in the order of its kind.
-/

namespace PatternMachine

variable {setting : Setting}

/-! ### What a loop leaves on the stack -/

/-- Whether a store fails as another one that it has grown from, and resembles it. -/
structure Store.Keeps (id : Nat) (before store : Store) : Prop where
  unwinds : store.UnwindsAs Frame.isResumable before
  resembles : store.Resembles id before
  rises : before.depth ≤ store.depth

theorem Store.Keeps.refl (id : Nat) (store : Store) : store.Keeps id store :=
  ⟨⟨rfl, rfl⟩, .refl store, Nat.le_refl _⟩

/-- Where bodies start does not matter to what is kept. -/
theorem Store.Keeps.of_forgetBodies {id : Nat} {before store other : Store}
    (keeps : before.Keeps id store) (same : other.forgetBodies = store.forgetBodies) :
    before.Keeps id other where
  unwinds := by
    have back : other.UnwindsAs Frame.isResumable store := .of_forgetBodies same
    exact ⟨back.1.trans keeps.unwinds.1, back.2.trans keeps.unwinds.2⟩
  resembles := (Store.Resembles.of_forgetBodies same).trans keeps.resembles
  rises := by
    have deep : other.depth = store.depth := congrArg (fun store => store.stack.depth) same
    rw [deep]
    exact keeps.rises

/-- The effects with which a repeat keeps count. -/
inductive Effect.Books (id : Nat) (direct : Bool) (store : Store) : Effect → Prop
  | enter {body : Nat} : Books id direct store (.enterRepeat id body)
  | count {record : Effect} (counts : store.counting? id direct = some record) :
      Books id direct store record

namespace Effect.Books

variable {program : Program} {id : Nat} {direct : Bool} {store : Store} {effect : Effect}

/-- To keep count is not noticed by others. -/
theorem keeps (books : effect.Books id direct store) (orderly : store.Orderly program)
    (regular : effect.Regular program) : store.Keeps id (effect.onStore store) := by
  obtain ⟨undone, room, outline⟩ :
      effect.IsUndone ∧ effect.needsRoom = true ∧ effect.outline = .push .void := by
    cases books with
    | enter => exact ⟨trivial, rfl, rfl⟩
    | count counts =>
        cases direct with
        | true => cases counts; exact ⟨trivial, rfl, rfl⟩
        | false =>
            obtain ⟨index, _, rfl⟩ := Option.map_eq_some_iff.1 counts
            exact ⟨trivial, rfl, rfl⟩
  have passes : ∀ pushed, effect.frame? store = some pushed → pushed.isResumable = false ∧
      ∀ groups wanted state, visitInstance groups wanted pushed state = .ok state := by
    intro pushed isPushed
    cases books with
    | enter => cases isPushed; exact ⟨rfl, fun _ _ _ => rfl⟩
    | count counts =>
        cases direct with
        | true => cases counts; cases isPushed; exact ⟨rfl, fun _ _ _ => rfl⟩
        | false =>
            obtain ⟨index, _, rfl⟩ := Option.map_eq_some_iff.1 counts
            cases isPushed
            exact ⟨rfl, fun _ _ _ => rfl⟩
  have repeats : ∀ other, other ≠ id →
      (effect.onStore store).standing? other = store.standing? other := by
    intro other apart
    cases books with
    | enter =>
        exact Store.standing?_of_push orderly.anchored rfl
          (Store.repeatOf_setRepeat_of_ne _ fun same => apart same.symm)
    | count counts =>
        exact Store.standing?_counting_of_ne orderly.anchored (fun same => apart same.symm) counts
  refine ⟨?_, ?_, ?_⟩
  · obtain ⟨below, top, pushed, isTop, restored⟩ := exists_push regular undone room
    rw [pushed]
    exact .of_push (passes top isTop).1 (.of_forgetBodies restored)
  · exact .onStore_own orderly outline room
      (fun groups wanted state pushed isPushed => (passes pushed isPushed).2 groups wanted state)
      repeats
  · exact raises_of_needsRoom room store

end Effect.Books

theorem Move.lawful_of_counting {program : Program} {store : Store} {id : Nat} {direct : Bool}
    {record : Effect} (counts : store.counting? id direct = some record) :
    (Move.perform record).Lawful program := by
  cases direct with
  | true =>
      cases counts
      exact ⟨trivial, trivial, nofun, nofun⟩
  | false =>
      obtain ⟨index, _, rfl⟩ := Option.map_eq_some_iff.1 counts
      exact ⟨trivial, trivial, nofun, nofun⟩

/-- A choice that is left is not noticed by others. -/
theorem Store.resembles_choice {program : Program} {store : Store} (orderly : store.Orderly program)
    (id : Nat) (point : Point) : (store.push (.choice point)).Resembles id store := by
  have own : ((Effect.push (.choice point)).onStore store).Resembles id store := by
    refine .onStore_own orderly rfl rfl ?_ fun _ _ => standing?_of_push orderly.anchored rfl rfl
    intro groups wanted state pushed isPushed
    cases isPushed
    rfl
  exact own

/-! ### What a loop may do -/

/-- What a loop does with a search that has come through its block a number of times: it goes
through the block once more, leaves, or does both one after the other. -/
inductive Loop.Decides (setting : Setting) (loop : Loop) (count : Nat) (search : Search) : Prop
  | iterate {next : Search} (few : count < loop.range.lower)
      (stepped : search.step setting = .ok next)
      (point : next.point = ⟨loop.first, search.point.cursor⟩)
      (counted : next.store.count? loop.id loop.direct = some count)
      (keeps : search.store.Keeps loop.id next.store)
  | leave {next : Search} (full : loop.range.upper ≤ count)
      (stepped : search.step setting = .ok next)
      (point : next.point = ⟨loop.exit, search.point.cursor⟩)
      (keeps : search.store.Keeps loop.id next.store)
  | greedily {next : Search} {left : Store} (enough : loop.range.lower ≤ count)
      (more : count < loop.range.upper) (isGreedy : loop.greedy = true)
      (stepped : search.step setting = .ok next)
      (point : next.point = ⟨loop.first, search.point.cursor⟩)
      (counted : next.store.count? loop.id loop.direct = some count)
      (unwinds : next.store.UnwindsAs Frame.isResumable
        (left.push (.choice ⟨loop.exit, search.point.cursor⟩)))
      (resembles : next.store.Resembles loop.id search.store)
      (rises : search.store.depth ≤ next.store.depth) (keeps : search.store.Keeps loop.id left)
  | lazily {next : Search} {left : Store} (enough : loop.range.lower ≤ count)
      (more : count < loop.range.upper) (isLazy : loop.greedy = false)
      (stepped : search.step setting = .ok next)
      (point : next.point = ⟨loop.exit, search.point.cursor⟩)
      (onTop : next.store = left.push (.choice ⟨loop.first, search.point.cursor⟩))
      (counted : left.count? loop.id loop.direct = some count)
      (orderly : left.Orderly setting.program) (keeps : search.store.Keeps loop.id left)

namespace Loop

variable {loop : Loop} {search : Search} (stands : loop.Stands setting.program)
  (orderly : search.store.Orderly setting.program)

include stands orderly

/-- An active repeat continues from its only body. -/
theorem progress?_eq {count : Nat}
    (counted : search.store.count? loop.id loop.direct = some count) :
    search.store.progress? loop.id loop.direct = some (count, loop.first) := by
  obtain ⟨⟨_, body⟩, continues, rfl⟩ := Option.map_eq_some_iff.1 counted
  obtain ⟨address, started, rfl⟩ := orderly.bodied.bodyAt orderly.anchored continues
  obtain ⟨instruction, fetched, isStart⟩ := Option.bind_eq_some_iff.1 started
  have isRepeat : setting.program.repeatAt? address = some loop.id := by
    rw [Program.repeatAt?, fetched]
    cases instruction <;> cases isStart
    rfl
  rcases stands.alone address isRepeat with rfl | rfl
  · exact continues
  · rw [stands.counts] at fetched
    cases fetched
    cases isStart

variable (free : setting.Free)

include free

/-- The start of a loop decides what to do without an iteration. -/
theorem decides_of_start (here : search.point.address = loop.start)
    (known : loop.id < search.store.registers.repeats.size) : loop.Decides setting 0 search := by
  obtain ⟨offset, isStart, isExit⟩ := stands.starts
  rw [← here] at isStart isExit
  have body : search.point.next = loop.first := by rw [Point.next, here, first]
  let enter : Effect := .enterRepeat loop.id loop.first
  have lawful : (Move.perform enter).Lawful setting.program := by
    refine ⟨(Array.getElem?_eq_some_iff.1 stands.ranged).1, trivial, ?_,
      fun same => Effect.noConfusion (Move.perform.inj same)⟩
    intro id body same
    obtain ⟨rfl, rfl⟩ := Effect.enterRepeat.inj (Move.perform.inj same)
    exact ⟨loop.start, by rw [Program.startedAt?, ← here, isStart]; rfl, rfl⟩
  have entered : (enter.onStore search.store).Orderly setting.program := orderly.onStore lawful
  have books : enter.Books loop.id loop.direct search.store := .enter
  have keeps := books.keeps orderly lawful.regular
  have counted : (enter.onStore search.store).count? loop.id loop.direct = some 0 :=
    Store.count?_enterRepeat known _
  have plan : Plan.ofInstruction setting.toAttempt search.point search.store
      (.repeatStart loop.id offset loop.greedy) =
        if loop.range.lower = 0 then
          if loop.greedy then
            .goto loop.first search.point.cursor [enter, Plan.choiceAt search.point loop.exit]
          else .goto loop.exit search.point.cursor [enter, Plan.choiceAt search.point loop.first]
        else .goto loop.first search.point.cursor [enter] := by
    simp only [Plan.ofInstruction, Plan.repeatStart, stands.ranged, Plan.branch, isExit, body,
      enter]
  by_cases none_needed : loop.range.lower = 0
  · rw [if_pos none_needed] at plan
    cases isGreedy : loop.greedy with
    | true =>
        rw [isGreedy, if_pos rfl] at plan
        rw [isGreedy] at isStart
        obtain ⟨next, stepped, point, store, _⟩ := Search.exists_step_goto free isStart plan
        replace store : next.store = (enter.onStore search.store).push
          (.choice ⟨loop.exit, search.point.cursor⟩) := store
        refine .greedily (Nat.le_of_eq none_needed) stands.some_allowed isGreedy stepped point ?_
          (store ▸ ⟨rfl, rfl⟩) ?_ ?_ keeps
        · rw [store, Store.count?_push entered.anchored]
          exact counted
        · rw [store]
          exact (Store.resembles_choice entered _ _).trans keeps.resembles
        · rw [store, Store.depth_push]
          exact Nat.le_succ_of_le keeps.rises
    | false =>
        rw [isGreedy, if_neg Bool.noConfusion] at plan
        rw [isGreedy] at isStart
        obtain ⟨next, stepped, point, store, _⟩ := Search.exists_step_goto free isStart plan
        exact .lazily (Nat.le_of_eq none_needed) stands.some_allowed isGreedy stepped point store
          counted entered keeps
  · rw [if_neg none_needed] at plan
    obtain ⟨next, stepped, point, store, _⟩ := Search.exists_step_goto free isStart plan
    replace store : next.store = enter.onStore search.store := store
    exact .iterate (Nat.pos_of_ne_zero none_needed) stepped point (store ▸ counted)
      (store ▸ keeps)

/-- The count of a loop decides what to do after one more iteration. -/
theorem decides_of_stop (here : search.point.address = loop.stop) {count : Nat}
    (counted : search.store.count? loop.id loop.direct = some count)
    (more : count < loop.range.upper) : loop.Decides setting (count + 1) search := by
  have isNext : setting.program.code[search.point.address]? =
      some (.repeatNext loop.id loop.greedy loop.direct) := here ▸ stands.counts
  have exit : search.point.next = loop.exit := by rw [Point.next, here, Loop.exit]
  have iterated : nextIteration count = count + 1 :=
    Nat.min_eq_left (Nat.le_trans more stands.counted)
  obtain ⟨record, counts, plan⟩ := @Plan.repeatNext_of_progress? setting.toAttempt _ _ _ _ _
    (progress?_eq stands orderly counted) _ stands.ranged search.point loop.greedy
  rw [iterated, Plan.afterIteration, exit] at plan
  have raised : ∀ {store : Store}, store.Orderly setting.program →
      store.count? loop.id loop.direct = some count →
        store.counting? loop.id loop.direct = some record →
          (record.onStore store).count? loop.id loop.direct = some (count + 1) := by
    intro store orderly counted counts
    rw [Store.count?_counting orderly.anchored counts, counted, ← iterated]
    rfl
  have lawful : (Move.perform record).Lawful setting.program := Move.lawful_of_counting counts
  have books : record.Books loop.id loop.direct search.store := .count counts
  have keeps := books.keeps orderly lawful.regular
  have recorded := raised orderly counted counts
  split at plan
  · next full =>
      obtain ⟨next, stepped, point, store, _⟩ := Search.exists_step_goto free isNext plan
      replace store : next.store = record.onStore search.store := store
      exact .leave full stepped point (store ▸ keeps)
  next notFull =>
  split at plan
  · next few =>
      obtain ⟨next, stepped, point, store, _⟩ := Search.exists_step_goto free isNext plan
      replace store : next.store = record.onStore search.store := store
      exact .iterate few stepped point (store ▸ recorded) (store ▸ keeps)
  next notFew =>
  have enough := Nat.not_lt.1 notFew
  have more := Nat.not_le.1 notFull
  split at plan
  · next isGreedy =>
      -- The choice is left first, so what counts lies above it.
      obtain ⟨next, stepped, point, store, _⟩ := Search.exists_step_goto free isNext plan
      let choice : Frame := .choice ⟨loop.exit, search.point.cursor⟩
      replace store : next.store = record.onStore (search.store.push choice) := store
      have left : (search.store.push choice).Orderly setting.program :=
        orderly.onStore (Move.lawful_choice _ _)
      have counts' : (search.store.push choice).counting? loop.id loop.direct = some record :=
        counts
      have books' : record.Books loop.id loop.direct (search.store.push choice) := .count counts'
      have keeps' := books'.keeps left lawful.regular
      refine .greedily enough more isGreedy stepped point ?_ (store ▸ keeps'.unwinds) ?_ ?_
        (.refl _ _)
      · rw [store]
        exact raised left ((Store.count?_push orderly.anchored _).trans counted) counts'
      · rw [store]
        exact keeps'.resembles.trans (Store.resembles_choice orderly _ _)
      · have deeper := keeps'.rises
        rw [Store.depth_push] at deeper
        rw [store]
        exact Nat.le_of_succ_le deeper
  · next notGreedy =>
      obtain ⟨next, stepped, point, store, _⟩ := Search.exists_step_goto free isNext plan
      exact .lazily enough more (Bool.eq_false_iff.2 notGreedy) stepped point store recorded
        (orderly.onStore lawful) keeps

end Loop

/-! ### What is found behind a loop -/

/-- A search that fails with a choice on top goes on there. -/
theorem Store.FailsTo.of_choice {program : Program} {store : Store} {point : Point}
    {result : Except Ending Search} (fails : (store.push (.choice point)).FailsTo program result) :
    ∃ next, result = .ok next ∧ next.point = point ∧
      next.store.forgetBodies = store.forgetBodies ∧ next.store.Orderly program := by
  have back : (store.push (.choice point)).backtrack = (some point, store) := by
    rw [backtrack, unwind_push]
    rfl
  cases fails with
  | @resumed next found below orderly =>
      rw [back] at found below
      exact ⟨next, rfl, (Option.some.inj found).symm, below, orderly⟩
  | exhausted noChoice =>
      rw [back] at noChoice
      cases noChoice

/-- Searches that resemble each other at one point show the same scene. -/
theorem Search.scene_eq {id : Nat} {left right : Search} (here : right.point = left.point)
    (resembles : left.store.Resembles id right.store) : right.scene id = left.scene id := by
  rw [scene, scene, here, resembles.captures]
  congr 1
  funext other
  split
  · rfl
  · next apart => exact (resembles.repeats other apart).symm

namespace Loop

variable {loop : Loop} {floor bound count : Nat} {left right : Search} (free : setting.Free)
  (orderly : left.store.Orderly setting.program)

include free

/-- A search behind the loop is found there. -/
theorem settles_leave (here : right.point = (left.moveTo loop.exit).point)
    (resembles : left.store.Resembles loop.id right.store)
    (orderly' : right.store.Orderly setting.program) :
    right.Settles setting loop.id loop.exit floor right.store bound
      ((Findings.one (left.moveTo loop.exit)).map (Search.scene loop.id)) := by
  have found := @Search.Settles.one setting loop.id loop.exit floor bound right free orderly'
    (congrArg Point.address here)
  have scene : right.scene loop.id = (left.moveTo loop.exit).scene loop.id :=
    Search.scene_eq here resembles
  rw [scene] at found
  exact found

variable (restorable : setting.program.Restorable) (stands : loop.Stands setting.program)
  (encloses : loop.Encloses setting) (once : loop.CountsOnce setting.program)

include restorable stands encloses once orderly

/-- A search that goes through the block once more settles on what that leads to, if every search
does so that decides what to do behind the block. -/
theorem settles_iterate
    (through : ∀ {inner inner' : Search}, loop.Decides setting (count + 1) inner' →
      inner.store.Resembles loop.id inner'.store →
        inner'.point.cursor = inner.point.cursor → inner.store.Orderly setting.program →
          inner'.store.Orderly setting.program → inner'.point.address ≠ loop.exit →
            floor ≤ inner'.store.depth →
              inner'.Settles setting loop.id loop.exit floor inner'.store bound
                ((loop.explore setting bound (count + 1) inner).map (Search.scene loop.id)))
    (more : count < loop.range.upper) (here : right.point = (left.moveTo loop.first).point)
    (alike : left.store.Alike loop.id loop.direct count right.store)
    (orderly' : right.store.Orderly setting.program) (above : floor ≤ right.store.depth) :
    right.Settles setting loop.id loop.exit floor right.store bound
      ((loop.iterate setting bound (loop.explore setting bound (count + 1)) left).map
        (Search.scene loop.id)) := by
  let entry := left.moveTo loop.first
  have start : entry.store.Alike loop.id loop.direct count right.store := alike
  have abreast : entry.Abreast setting.program loop.id loop.direct count entry.store right.store
      right := ⟨here, .floor rfl rfl, orderly, orderly'⟩
  have here : entry.point.address = loop.first := rfl
  have ordered : entry.store.Orderly setting.program := orderly
  refine Search.settles_block free restorable stands encloses once here ordered start above ?_
    (Nat.le_refl bound) abreast .entered
  intro inner inner' abreast atStop innerAbove
  have atStop' : inner'.point.address = loop.stop := abreast.here ▸ atStop
  have innerAlike := abreast.tandem.alike start
  exact through
    (decides_of_stop stands abreast.orderly_right free atStop' innerAlike.counted more)
    innerAlike.resembles (congrArg Point.cursor abreast.here) abreast.orderly abreast.orderly_right
    (atStop' ▸ Nat.ne_of_lt (Nat.lt_succ_self _)) innerAbove

/-- A search that decides what to do after a number of iterations settles on what is to be found
from the states that have come through the block so many times. -/
theorem settles (decides : loop.Decides setting count right)
    (resembles : left.store.Resembles loop.id right.store)
    (cursor : right.point.cursor = left.point.cursor)
    (orderly' : right.store.Orderly setting.program)
    (elsewhere : right.point.address ≠ loop.exit) (above : floor ≤ right.store.depth) :
    right.Settles setting loop.id loop.exit floor right.store bound
      ((loop.explore setting bound count left).map (Search.scene loop.id)) := by
  induction bound generalizing count left right with
  | zero => exact .cuts [] 0 (Nat.le_refl _) rfl rfl
  | succ bound ih =>
      have again := fun {next} => @settles_iterate setting loop floor bound count left next free
        orderly restorable stands encloses once fun decides resembles cursor orderly =>
          ih orderly decides resembles cursor
      have out := fun {next} => @settles_leave setting loop floor bound left next free
      have points : ∀ {next : Search} {address : Nat},
          next.point = ⟨address, right.point.cursor⟩ →
            next.point = (left.moveTo address).point := by
        intro next address point
        rw [point, cursor]
        rfl
      cases decides with
      | @iterate next few stepped point counted keeps =>
          have more : count < loop.range.upper := Nat.lt_of_lt_of_le few stands.ordered
          have risen := Nat.le_trans above keeps.rises
          have settled := again more (points point) ⟨resembles.trans keeps.resembles.symm, counted⟩
            (Search.orderly_of_step restorable orderly' stepped) risen
          rw [explore_of_few few more]
          exact (settled.of_unwindsAs keeps.unwinds).of_step elsewhere stepped risen
      | @leave next full stepped point keeps =>
          have risen := Nat.le_trans above keeps.rises
          have settled := out (points point)
            (resembles.trans keeps.resembles.symm)
            (Search.orderly_of_step restorable orderly' stepped)
          rw [explore_of_full (Nat.le_trans stands.ordered full) full]
          exact (settled.of_unwindsAs keeps.unwinds).of_step elsewhere stepped risen
      | @greedily next rest enough more isGreedy stepped point counted unwinds seen rises keeps =>
          have risen := Nat.le_trans above rises
          have settled := again more (points point) ⟨resembles.trans seen.symm, counted⟩
            (Search.orderly_of_step restorable orderly' stepped) risen
          rw [explore_of_greedy isGreedy enough more, Findings.map_append]
          refine Search.Settles.of_step (settled.append (Nat.le_succ bound) ?_) elsewhere stepped
            risen
          intro result fails
          obtain ⟨next', rfl, point', same, ordered⟩ := (fails.congr unwinds).of_choice
          have kept := keeps.of_forgetBodies same
          have left := out (points point') (resembles.trans kept.resembles.symm) ordered
          exact .inl ⟨next', rfl, Nat.le_trans above kept.rises, left.of_unwindsAs kept.unwinds⟩
      | @lazily next rest enough more isLazy stepped point onTop counted restOrderly keeps =>
          have risen : floor ≤ next.store.depth := by
            rw [onTop, Store.depth_push]
            exact Nat.le_succ_of_le (Nat.le_trans above keeps.rises)
          have seen : next.store.Resembles loop.id right.store := by
            rw [onTop]
            exact (Store.resembles_choice restOrderly _ _).trans keeps.resembles
          have settled := out (points point) (resembles.trans seen.symm)
            (Search.orderly_of_step restorable orderly' stepped)
          rw [explore_of_lazy isLazy enough more, Findings.map_append]
          refine Search.Settles.of_step (settled.append (Nat.le_succ bound) ?_) elsewhere stepped
            risen
          intro result fails
          rw [onTop] at fails
          obtain ⟨next', rfl, point', same, ordered⟩ := fails.of_choice
          have kept := keeps.of_forgetBodies same
          have counted' := (Store.count?_of_record (Store.record_congr same)).trans counted
          have risen' := Nat.le_trans above kept.rises
          have iterated := again more (points point')
            ⟨resembles.trans kept.resembles.symm, counted'⟩ ordered risen'
          exact .inl ⟨next', rfl, risen', iterated.of_unwindsAs kept.unwinds⟩

omit orderly

/-- A bounded repeat explores the numbers of iterations that its range allows, in the order of its
kind.  However far that is followed from a state in which control comes to a loop, the states in
which it comes to the exit, one after the other until all choices that the loop has left are used
up, are those that are to be found by going through the block as often, from the states in which it
was come through before, and leaving: they show the same point, the same groups and the same counts
of all other repeats.  The block is followed there with no loop around it.  Every repeat that the
block counts in a register has to be started at one address. -/
theorem bounded_repeats_explore_their_ranges {store : Store} {dispatches : Nat} {entry : Search}
    (reaches : (Search.start setting store).advance setting dispatches = .ok entry)
    (known : loop.id < store.registers.repeats.size) (here : entry.point.address = loop.start)
    (fuel : Nat) :
    ∃ many, fuel ≤ many ∧
      (entry.tries setting loop.exit entry.store.depth many).map (Search.scene loop.id) =
        (loop.explore setting fuel 0 entry).map (Search.scene loop.id) := by
  have orderly := Search.orderly_of_advance restorable reaches
  have slots : entry.store.registers.repeats.size = store.registers.repeats.size := by
    have kept := @Search.store_invariant setting dispatches (Search.start setting store)
      (fun later => later.registers.repeats.size = store.registers.repeats.size) entry reaches
      (by simp [Search.start, Store.reset, Registers.reset, Registers.blank])
    exact kept fun visit _ before => (Store.size_repeats_onStore _ visit.move).trans before
  have decides := decides_of_start stands orderly free here (slots ▸ known)
  have elsewhere : entry.point.address ≠ loop.exit := by
    rw [here]
    exact Nat.ne_of_lt (Nat.lt_succ_of_lt stands.nested)
  cases @settles setting loop entry.store.depth fuel 0 entry entry free orderly restorable stands
    encloses once decides (.refl _) rfl orderly elsewhere (Nat.le_refl _) with
  | yields found spent some_spent fails tries seen =>
      refine ⟨spent + fuel, Nat.le_add_left _ _, ?_⟩
      rw [seen, tries, fails.onward_eq, Findings.append_none]
      rfl
  | cuts found many enough tries seen =>
      refine ⟨many, enough, ?_⟩
      rw [seen, tries]
      rfl

end Loop

namespace Loop

open Search

/-- Each iteration takes as many characters as it can, and is held to that.  All four characters are
taken in two iterations, and two of them in one. -/
theorem bounded_repeats_explore_their_ranges_around_brackets :
    let setting := plainSetting #[⟨1, 2⟩, ⟨1, 2⟩]
      #[.repeatStart 0 7 true, .atomicStart, .repeatStart 1 3 true, .byte 97,
        .repeatNext 1 true true, .atomicEnd, .repeatNext 0 true false, .accept] #[97, 97, 97, 97]
    let loop : Loop := ⟨0, ⟨1, 2⟩, 0, 6, true, false⟩
    setting.Free ∧ setting.program.Restorable ∧ loop.Stands setting.program ∧
      loop.Encloses setting ∧ loop.CountsOnce setting.program ∧
        (loop.explore setting 20 0 (outset setting)).map
          (fun search => search.point.cursor.position) = ⟨[4, 2], true⟩ ∧
        ∃ many, 20 ≤ many ∧
          ((outset setting).tries setting loop.exit 0 many).map (Search.scene loop.id) =
            (loop.explore setting 20 0 (outset setting)).map (Search.scene loop.id) := by
  intro setting loop
  have restorable : setting.program.Restorable := by
    refine ⟨fun address group _ used => ?_, by decide +kernel, by decide +kernel⟩
    rcases used with used | used <;>
      exact absurd (Array.mem_of_getElem? used) (by simp [setting, plainSetting])
  have stands : loop.Stands setting.program :=
    ⟨⟨7, rfl, rfl⟩, rfl, by decide, Program.of_lt_size (by decide +kernel), rfl, by decide,
      by decide, by decide⟩
  have listed : loop.Listed setting.program fun address =>
      if 2 ≤ address ∧ address ≤ 5 then [.atomic] else [] := by decide +kernel
  have once : loop.CountsOnce setting.program := by
    have unique : setting.program.StartsOnce 1 := by
      have isTwo : ∀ address, setting.program.startedAt? address = some 1 → address = 2 :=
        Program.of_lt_size (by decide +kernel)
      exact fun address address' started started' =>
        (isTwo address started).trans (isTwo address' started').symm
    intro address other greedy lower before counted
    suffices other = 1 from this ▸ unique
    interval_cases address <;> cases counted
    rfl
  have free : setting.Free := ⟨rfl, fun _ => rfl⟩
  have encloses := listed.encloses restorable
  have reaches : (outset setting).advance setting 0 = .ok (outset setting) := rfl
  refine ⟨free, restorable, stands, encloses, once, by decide +kernel, ?_⟩
  exact bounded_repeats_explore_their_ranges free restorable stands encloses once reaches
    (by decide +kernel) rfl 20

/-- How a bounded repeat may fail to explore its range.  The block goes through one repeat, or
through another one that counts for the same id in the same register.  In the first iteration the
one is taken.  In the second one the other is tried as well, and given up.  When the search then
goes back into the first iteration, the repeat there goes on with the body of the other one, as the
register of the body was not written back.  With no loop around it, the block would have been come
through. -/
theorem bounded_repeats_may_miss_their_range :
    let setting := plainSetting #[⟨2, 2⟩, ⟨2, 2⟩]
      #[.repeatStart 0 15 true, .push 10, .repeatStart 1 8 true, .push 3, .byte 97, .jump 4,
        .assert .textBegin, .byte 97, .byte 97, .repeatNext 1 true true, .jump 4,
        .repeatStart 1 3 true, .byte 98, .repeatNext 1 true true, .repeatNext 0 true false,
        .accept] #[97, 97, 97, 98, 98]
    let loop : Loop := ⟨0, ⟨2, 2⟩, 0, 14, true, false⟩
    setting.Free ∧ setting.program.Restorable ∧ loop.Stands setting.program ∧
      loop.Encloses setting ∧
        (loop.explore setting 64 0 (outset setting)).map
          (fun search => search.point.cursor.position) = ⟨[5], true⟩ ∧
        ∀ many, ((outset setting).tries setting loop.exit 0 many).found = [] := by
  intro setting loop
  have restorable : setting.program.Restorable := by
    refine ⟨fun address group _ used => ?_, by decide +kernel, by decide +kernel⟩
    rcases used with used | used <;>
      exact absurd (Array.mem_of_getElem? used) (by simp [setting, plainSetting])
  have stands : loop.Stands setting.program :=
    ⟨⟨15, rfl, rfl⟩, rfl, by decide, Program.of_lt_size (by decide +kernel), rfl, by decide,
      by decide, by decide⟩
  have listed : loop.Listed setting.program fun _ => [] := by decide +kernel
  have finds : (loop.explore setting 64 0 (outset setting)).map
      (fun search => search.point.cursor.position) = ⟨[5], true⟩ := by decide +kernel
  refine ⟨⟨rfl, fun _ => rfl⟩, restorable, stands, listed.encloses restorable, finds, ?_⟩
  have nothing : ((outset setting).tries setting loop.exit 0 64).found = [] ∧
      ((outset setting).tries setting loop.exit 0 64).whole = true := by decide +kernel
  exact found_eq_nil_of_whole nothing.1 nothing.2

end Loop

end PatternMachine
