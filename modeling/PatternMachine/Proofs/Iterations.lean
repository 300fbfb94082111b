import PatternMachine.Proofs.Progress

/-!
# Iterations

A repeat has counted how often its body was executed on the path to a state
(`Search.Iterates.progress?_eq`), and that is less than `upper` while the body is executed once more
(`Search.Iterates.lt_upper`).
-/

namespace PatternMachine

/-! ### Where a dispatch leads -/

namespace Search

variable {setting : Setting} {id : Nat} {direct : Bool}

/-- What a dispatch has led to is where a search goes on: at once, or when it goes back to the
choice that the dispatch has left on top. -/
inductive Begins (setting : Setting) (id : Nat) (direct : Bool) : Search → Search → Prop
  | atOnce {next : Search} : Begins setting id direct next next
  | later {next begun : Search} {dispatches : Nat}
      (stretch : Stretch setting id direct dispatches begun.store.depth next begun)
      (onTop : next.store.depth = begun.store.depth + 1)
      (choice : next.store.stack.get? begun.store.depth = some (.choice begun.point)) :
      Begins setting id direct next begun

namespace Begins

variable {next begun : Search}

theorem comes (begins : Begins setting id direct next begun) : next.Comes setting begun := by
  cases begins with
  | atOnce => exact .refl _
  | later stretch => exact stretch.comes

/-- Nothing that is tried before a search goes back to a choice changes what a repeat continues
from. -/
theorem progress?_eq (begins : Begins setting id direct next begun)
    (anchored : next.store.Anchored setting.program) {progress : Nat × Nat}
    (continues : next.store.progress? id direct = some progress) :
    begun.store.progress? id direct = some progress := by
  cases begins with
  | atOnce => exact continues
  | later stretch onTop choice =>
      obtain ⟨entry, active, _⟩ := Option.bind_eq_some_iff.1 continues
      have enters := anchored.active id entry active
      have below : entry < begun.store.depth := by
        have inside := enters.lt_depth
        have apart : entry ≠ begun.store.depth := by
          rintro rfl
          obtain ⟨_, _, _, _, read⟩ := enters
          rw [choice] at read
          cases read
        have : next.store.stack.depth = next.store.depth := rfl
        omega
      rw [← continues]
      refine stretch.progress?_eq (by omega) active below ?_ ?_
      · intro index frame above read counts
        have inside : index < next.store.depth := Stack.lt_depth_of_get? read
        obtain rfl : index = begun.store.depth := by omega
        rw [choice] at read
        cases read
        exact counts
      · intro index frame above read
        exact absurd (Stack.lt_depth_of_get? read) (Nat.not_lt.2 above)

end Begins

end Search

/-! ### Where a repeat leads -/

/-- The point at which an exit lets the search go on at once. -/
def Exit.target? : Exit → Option Point
  | .goto point => some point
  | _ => none

/-- The choice that an effect leaves. -/
def Effect.choice? : Effect → Option Point
  | .push (.choice point) => some point
  | _ => none

/-- Where a plan lets the search go on: at once, or when it goes back to a choice that was left. -/
def Plan.targets (plan : Plan) : List Point :=
  plan.exit.target?.toList ++ plan.effects.filterMap Effect.choice?

theorem Plan.targets_goto (address : Nat) (cursor : Cursor) (effects : List Effect) :
    (goto address cursor effects).targets =
      ⟨address, cursor⟩ :: effects.filterMap Effect.choice? := rfl

/-- After an iteration a repeat leads back to its body as long as there were fewer than `upper`, and
on behind it if there were at least `lower`. -/
theorem Plan.mem_targets_afterIteration {point target : Point} {range : RepeatRange}
    {count body : Nat} {greedy : Bool} {record : Effect} (silent : record.choice? = none) :
    target ∈ (afterIteration point range count body greedy record).targets ↔
      target = ⟨body, point.cursor⟩ ∧ count < range.upper ∨
        target = ⟨point.next, point.cursor⟩ ∧ (range.lower ≤ count ∨ range.upper ≤ count) := by
  have alone : [record].filterMap Effect.choice? = [] := List.filterMap_cons_none silent
  have first : ∀ address, [choiceAt point address, record].filterMap Effect.choice? =
      [⟨address, point.cursor⟩] := by
    intro address
    have leaves : (choiceAt point address).choice? = some ⟨address, point.cursor⟩ := rfl
    rw [List.filterMap_cons_some leaves, alone]
  have second : ∀ address, [record, choiceAt point address].filterMap Effect.choice? =
      [⟨address, point.cursor⟩] := fun _ => List.filterMap_cons_none silent
  unfold afterIteration
  split
  · next done => simp [targets_goto, alone, done, Nat.not_lt.2 done]
  split
  · next more few =>
      have less := Nat.not_le.1 more
      simp [targets_goto, alone, less, Nat.not_le.2 few, Nat.not_le.2 less]
  split
  · next more enough _ =>
      simp [targets_goto, first, Nat.not_le.1 more, Nat.not_lt.1 enough]
  · next more enough _ =>
      simp [targets_goto, second, Nat.not_le.1 more, Nat.not_lt.1 enough, or_comm]

/-- After an iteration that is counted, and a choice may be left before or behind. -/
theorem Plan.exists_goto_afterIteration (point : Point) (range : RepeatRange) (count body : Nat)
    (greedy : Bool) (record : Effect) :
    ∃ address effects,
      afterIteration point range count body greedy record = .goto address point.cursor effects ∧
        (effects = [record] ∨ (∃ left, effects = [choiceAt point left, record]) ∨
          ∃ left, effects = [record, choiceAt point left]) := by
  unfold afterIteration
  split
  · exact ⟨_, _, rfl, .inl rfl⟩
  split
  · exact ⟨_, _, rfl, .inl rfl⟩
  split
  · exact ⟨_, _, rfl, .inr (.inl ⟨_, rfl⟩)⟩
  · exact ⟨_, _, rfl, .inr (.inr ⟨_, rfl⟩)⟩

/-- What a repeat does after an iteration depends on what it continues from. -/
theorem Plan.repeatNext_of_progress? {attempt : Attempt} {store : Store} {id count body : Nat}
    {direct : Bool} (continues : store.progress? id direct = some (count, body))
    {range : RepeatRange} (ranged : attempt.program.repeatRanges[id]? = some range) (point : Point)
    (greedy : Bool) :
    ∃ record, store.counting? id direct = some record ∧
      repeatNext attempt point store id greedy direct =
        afterIteration point range (nextIteration count) body greedy record := by
  obtain ⟨entry, active, found⟩ := Option.bind_eq_some_iff.1 continues
  have isActive : (store.registers.repeatOf id).entry = some entry := active
  simp only [repeatNext, ranged, isActive]
  cases direct with
  | true =>
      cases found
      exact ⟨_, rfl, rfl⟩
  | false =>
      replace found : store.stack.entry? entry = some (count, body) := found
      refine ⟨.countInEntry entry, congrArg (Option.map Effect.countInEntry) active, ?_⟩
      simp only [found]
      rfl

theorem Store.choice?_counting {store : Store} {id : Nat} {direct : Bool} {record : Effect}
    (counts : store.counting? id direct = some record) : record.choice? = none := by
  cases direct with
  | true =>
      cases counts
      rfl
  | false =>
      obtain ⟨entry, _, rfl⟩ := Option.map_eq_some_iff.1 counts
      rfl

namespace Search

variable {setting : Setting} {search next : Search} {id count body : Nat} {greedy direct : Bool}

/-- A repeat that has been started continues from its body and no iteration. -/
theorem progress?_of_repeatStart {offset : Int}
    (isStart : setting.program.code[search.point.address]? = some (.repeatStart id offset greedy))
    (stepped : search.step setting = .ok next) (known : id < search.store.registers.repeats.size) :
    next.store.progress? id direct = some (0, search.point.next) := by
  have sound := ne_corrupt_of_step isStart stepped
  have goes := @of_step_goto setting search next _ isStart
  simp only [Plan.ofInstruction, Plan.repeatStart, Plan.branch] at sound goes
  have enters : (search.store.enterRepeat id search.point.next).progress? id direct =
      some (0, search.point.next) := Store.progress?_enterRepeat known _
  split at goes
  · next unranged => exact absurd (by rw [unranged]; rfl) (sound (.invalidRepeat id))
  split at goes
  · split at goes
    · split at goes
      · rw [(goes rfl stepped).2]
        exact Store.progress?_push enters _
      · rw [(goes rfl stepped).2]
        exact Store.progress?_push enters _
    · rw [(goes rfl stepped).2]
      exact enters
  · next range ranged _ outside =>
      exact absurd (by rw [ranged, outside]; rfl) (sound .addressOutOfRange)

/-- A search goes on where the dispatch goes, or at the choice on top. -/
theorem Begins.point_eq {begun : Search} (begins : Begins setting id direct next begun) :
    begun.point = next.point ∨
      next.store.stack.get? (next.store.depth - 1) = some (.choice begun.point) := by
  cases begins with
  | atOnce => exact .inl rfl
  | later stretch onTop choice =>
      right
      rw [onTop, Nat.add_sub_cancel]
      exact choice

/-- A repeat that goes on has counted one iteration more, and goes on where its plan says. -/
theorem progress?_of_repeatNext
    (isNext : setting.program.code[search.point.address]? = some (.repeatNext id greedy direct))
    (stepped : search.step setting = .ok next)
    (continues : search.store.progress? id direct = some (count, body)) {range : RepeatRange}
    (ranged : setting.program.repeatRanges[id]? = some range) :
    next.store.progress? id direct = some (nextIteration count, body) ∧
      ∀ begun, Begins setting id direct next begun → begun.point ∈
        (Plan.repeatNext setting.toAttempt search.point search.store id greedy direct).targets := by
  obtain ⟨record, counts, plan⟩ :=
    Plan.repeatNext_of_progress? continues ranged search.point greedy
  obtain ⟨address, effects, goesTo, form⟩ :=
    Plan.exists_goto_afterIteration search.point range (nextIteration count) body greedy record
  rw [goesTo] at plan
  obtain ⟨point, stored⟩ := of_step_goto isNext plan stepped
  rw [plan, Plan.targets_goto, ← point]
  have counted := Store.progress?_counting continues counts
  have onTop := Store.top_counting counts
  rcases form with rfl | ⟨left, rfl⟩ | ⟨left, rfl⟩
  · refine ⟨by rw [stored]; exact counted, fun begun begins => ?_⟩
    rcases begins.point_eq with same | top
    · exact List.mem_cons.2 (.inl same)
    · rw [stored] at top
      exact absurd top (onTop _)
  · -- The choice lies below what counts, so the search does not go back to it alone.
    have continues' := Store.progress?_push continues (.choice ⟨left, search.point.cursor⟩)
    have counts' : (search.store.push (.choice ⟨left, search.point.cursor⟩)).counting? id direct =
        some record := counts
    refine ⟨by rw [stored]; exact Store.progress?_counting continues' counts', ?_⟩
    intro begun begins
    rcases begins.point_eq with same | top
    · exact List.mem_cons.2 (.inl same)
    · rw [stored] at top
      exact absurd top (Store.top_counting counts' _)
  · refine ⟨by rw [stored]; exact Store.progress?_push counted _, fun begun begins => ?_⟩
    rcases begins.point_eq with same | top
    · exact List.mem_cons.2 (.inl same)
    · rw [stored] at top
      have read := (record.onStore search.store).stack.get?_top
        (.choice ⟨left, search.point.cursor⟩)
      have same := Frame.choice.inj (Option.some.inj (read.symm.trans top))
      rw [← same]
      exact .tail _ (List.mem_filterMap.2 ⟨_, .tail _ (.head _), rfl⟩)

end Search

/-! ### Iterations on a path -/

theorem nextIteration_min (iterations : Nat) :
    nextIteration (min iterations maxIterations) = min (iterations + 1) maxIterations := by
  unfold nextIteration
  omega

namespace Search

variable {setting : Setting} {origin last : Search} {id body iterations : Nat} {direct : Bool}

/-- A repeat was started in a run, its body has been executed a number of times on the path, and is
being executed once more.  An iteration begins behind the start of the repeat or behind the end of
the one before, and until it ends the path does not come by the repeat. -/
inductive Iterates (setting : Setting) (origin : Search) (id : Nat) (direct : Bool) :
    (body iterations : Nat) → Search → Prop
  | start {entering next begun last : Search} {offset : Int} {greedy : Bool} {dispatches : Nat}
      (comes : origin.Comes setting entering)
      (isStart :
        setting.program.code[entering.point.address]? = some (.repeatStart id offset greedy))
      (enters : entering.step setting = .ok next)
      (begins : Begins setting id direct next begun)
      (atBody : begun.point.address = entering.point.next)
      (spares : Spares setting id direct dispatches begun last) :
      Iterates setting origin id direct entering.point.next 0 last
  | again {body iterations : Nat} {ended next begun last : Search} {greedy : Bool}
      {dispatches : Nat} (iterates : Iterates setting origin id direct body iterations ended)
      (isNext :
        setting.program.code[ended.point.address]? = some (.repeatNext id greedy direct))
      (goesOn : ended.step setting = .ok next)
      (begins : Begins setting id direct next begun)
      (atBody : begun.point.address = body)
      (spares : Spares setting id direct dispatches begun last) :
      Iterates setting origin id direct body (iterations + 1) last

namespace Iterates

theorem comes (iterates : Iterates setting origin id direct body iterations last) :
    origin.Comes setting last := by
  induction iterates with
  | start comes isStart enters begins atBody spares =>
      have isRepeat := congrArg (fun found => found.bind Instruction.repeat?) isStart
      exact ((comes.trans (.of_repeat isRepeat enters)).trans begins.comes).trans
        spares.stretch.comes
  | again iterates isNext goesOn begins atBody spares ih =>
      have isRepeat := congrArg (fun found => found.bind Instruction.repeat?) isNext
      exact ((ih.trans (.of_repeat isRepeat goesOn)).trans begins.comes).trans spares.stretch.comes

/-- The body of a repeat is the code behind its start. -/
theorem exists_start (iterates : Iterates setting origin id direct body iterations last) :
    ∃ address offset greedy, body = address + 1 ∧
      setting.program.code[address]? = some (.repeatStart id offset greedy) := by
  induction iterates with
  | start comes isStart => exact ⟨_, _, _, rfl, isStart⟩
  | again iterates isNext goesOn begins atBody spares ih => exact ih

/-- A repeat continues from the iterations on the path, as far as it counts. -/
theorem progress?_eq (iterates : Iterates setting origin id direct body iterations last)
    (anchored : origin.store.Anchored setting.program)
    (known : id < origin.store.registers.repeats.size) {range : RepeatRange}
    (ranged : setting.program.repeatRanges[id]? = some range) :
    last.store.progress? id direct = some (min iterations maxIterations, body) := by
  induction iterates with
  | start comes isStart enters begins atBody spares =>
      have isRepeat := congrArg (fun found => found.bind Instruction.repeat?) isStart
      have toNext := comes.trans (.of_repeat isRepeat enters)
      rw [← comes.size_repeats] at known
      refine spares.progress?_eq ((toNext.trans begins.comes).anchored anchored) ?_
      exact begins.progress?_eq (toNext.anchored anchored)
        (progress?_of_repeatStart isStart enters known)
  | again iterates isNext goesOn begins atBody spares ih =>
      have isRepeat := congrArg (fun found => found.bind Instruction.repeat?) isNext
      have toNext := iterates.comes.trans (.of_repeat isRepeat goesOn)
      refine spares.progress?_eq ((toNext.trans begins.comes).anchored anchored) ?_
      rw [← nextIteration_min]
      exact begins.progress?_eq (toNext.anchored anchored)
        (progress?_of_repeatNext isNext goesOn ih ranged).1

/-- The body is not executed more often than the range of its repeat allows. -/
theorem lt_upper (iterates : Iterates setting origin id direct body iterations last)
    (anchored : origin.store.Anchored setting.program)
    (known : id < origin.store.registers.repeats.size) {range : RepeatRange}
    (ranged : setting.program.repeatRanges[id]? = some range) (some_allowed : 0 < range.upper)
    (counts : range.upper ≤ maxIterations) : iterations < range.upper := by
  induction iterates with
  | start => exact some_allowed
  | again iterates isNext goesOn begins atBody spares ih =>
      have continues := iterates.progress?_eq anchored known ranged
      have target := (progress?_of_repeatNext isNext goesOn continues ranged).2 _ begins
      obtain ⟨record, counted, plan⟩ := Plan.repeatNext_of_progress? continues ranged _ _
      rw [plan, Plan.mem_targets_afterIteration (Store.choice?_counting counted)] at target
      rcases target with ⟨_, fewer⟩ | ⟨behind, _⟩
      · rw [nextIteration_min] at fewer
        omega
      · -- The end of the iteration would have to be the start of the repeat.
        obtain ⟨address, offset, greedy, rfl, isStart⟩ := iterates.exists_start
        rw [behind] at atBody
        obtain rfl := Nat.succ.inj atBody
        rw [isStart] at isNext
        cases isNext

end Iterates

end Search

end PatternMachine
