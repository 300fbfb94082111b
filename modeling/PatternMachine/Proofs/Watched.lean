import PatternMachine.Proofs.EmptyIterations
import PatternMachine.Proofs.Guarded.Store
import PatternMachine.Proofs.Unwritten

/-!
# Groups that iterations watch

Where a group lay when an iteration has started is not stored.  The first frame above the mark of
the iteration that saves bounds of the group tells it (`Store.boundsAt`), and what these bounds refer
to is further down, in frames that stay where they are until the iteration ends.  So a group that is
only opened, closed and cleared by logged instructions is compared with what it was
(`Search.iterations_end_empty_with_captures`).
-/

namespace PatternMachine

/-! ### Frames that stay -/

/-- Whether all frames of a store but its choices are still where they were in another one. -/
def Store.StaysIn (base store : Store) : Prop :=
  ∀ index frame, base.stack.get? index = some frame → frame.isChoice = false →
    ∃ later, store.stack.get? index = some later ∧ frame.Becomes later

namespace Store.StaysIn

variable {base store : Store}

theorem refl (store : Store) : store.StaysIn store :=
  fun _ frame read _ => ⟨frame, read, .same⟩

theorem onStore {program : Program} {move : Move} (stays : base.StaysIn store)
    (regular : move.Regular program) (climbs : move.Climbs) :
    base.StaysIn (move.onStore store) := by
  intro index frame read noChoice
  obtain ⟨later, readLater, becomes⟩ := stays index frame read noChoice
  have deep := Nat.lt_of_lt_of_le (Stack.lt_depth_of_get? readLater) (climbs.1 store)
  obtain ⟨last, readLast, becomes'⟩ := Move.exists_get?_onStore regular readLater deep
  exact ⟨last, readLast, becomes.trans becomes'⟩

theorem trans {last : Store} (stays : base.StaysIn store) (stays' : store.StaysIn last) :
    base.StaysIn last := by
  intro index frame read noChoice
  obtain ⟨later, readLater, becomes⟩ := stays index frame read noChoice
  obtain ⟨found, readFound, becomes'⟩ :=
    stays' index later readLater (becomes.isChoice_eq_false noChoice)
  exact ⟨found, readFound, becomes.trans becomes'⟩

theorem push (store : Store) (frame : Frame) : store.StaysIn (store.push frame) := by
  intro index old read _
  refine ⟨old, ?_, .same⟩
  exact (store.stack.get?_push_of_lt frame (Stack.lt_depth_of_get? read)).trans read

theorem of_stack_eq {last : Store} (stays : base.StaysIn store) (stack : last.stack = store.stack) :
    base.StaysIn last := by
  rw [StaysIn, stack]
  exact stays

/-- A choice on top is none of the frames that stay. -/
theorem lower {point : Point} (stays : base.StaysIn (store.push (.choice point))) :
    base.StaysIn store := by
  intro index frame read noChoice
  obtain ⟨later, readLater, becomes⟩ := stays index frame read noChoice
  replace readLater : (store.stack.push (.choice point)).get? index = some later := readLater
  rw [Stack.get?_push] at readLater
  split at readLater
  · cases readLater
    cases becomes.isChoice_eq_false noChoice
  · exact ⟨later, readLater, becomes⟩

end Store.StaysIn

/-! ### What groups were -/

namespace Store

variable (store : Store) (index group : Nat)

/-- The bounds that a group had when the frame at an index was pushed: what the first frame above it
that saves bounds of the group has saved, or else what the group has now. -/
def boundsAt : Bounds :=
  (store.boundsBefore? index group).getD (store.registers.boundsOf group)

/-- Watched groups are unchanged if each lies where it lay. -/
theorem groupsUnchanged_eq (groups : List Nat) :
    store.groupsUnchanged index groups =
      groups.all fun group =>
        store.resolveBounds (store.boundsAt index group) == store.captures group := by
  unfold groupsUnchanged
  congr 1
  funext group
  rw [boundsAt]
  cases store.boundsBefore? index group with
  | none => exact (beq_self_eq_true (store.captures group)).symm
  | some before => rfl

variable {store index group}

/-- Frames that stay answer as before. -/
theorem firstAbove?_savedBounds?_eq {stack later : Stack} (depth : later.depth = stack.depth)
    (becomes : ∀ index frame, stack.get? index = some frame →
      ∃ found, later.get? index = some found ∧ frame.Becomes found) :
    later.firstAbove? (Frame.savedBounds? group) index =
      stack.firstAbove? (Frame.savedBounds? group) index := by
  have same : ∀ index, (later.get? index).bind (Frame.savedBounds? group) =
      (stack.get? index).bind (Frame.savedBounds? group) := by
    intro index
    cases read : stack.get? index with
    | none =>
        have outside := Array.getElem?_eq_none_iff.1 read
        rw [Stack.get?_eq_none (by rwa [depth])]
    | some frame =>
        obtain ⟨found, readFound, becomes⟩ := becomes index frame read
        rw [readFound]
        exact becomes.savedBounds?_eq group
  have run : ∀ count index, later.firstFrom? (Frame.savedBounds? group) index count =
      stack.firstFrom? (Frame.savedBounds? group) index count := by
    intro count
    induction count with
    | zero => exact fun _ => rfl
    | succ count ih =>
        intro index
        rw [Stack.firstFrom?, Stack.firstFrom?, same, ih]
  rw [Stack.firstAbove?, Stack.firstAbove?, depth, run]

/-- A frame that saves nothing of a group tells nothing of it. -/
theorem boundsAt_push (frame : Frame) (inside : index < store.depth)
    (nothing : frame.savedBounds? group = none) :
    (store.push frame).boundsAt index group = store.boundsAt index group := by
  have above : (store.push frame).boundsBefore? index group = store.boundsBefore? index group := by
    unfold boundsBefore?
    refine (store.stack.firstAbove?_push frame _ inside).trans ?_
    rw [nothing, Option.or_none]
  rw [boundsAt, above]
  rfl

/-- A frame on top was pushed when the group had the bounds that it has. -/
theorem boundsAt_depth_push (store : Store) (frame : Frame) (group : Nat) :
    (store.push frame).boundsAt store.depth group = store.registers.boundsOf group := by
  rw [boundsAt, boundsBefore?, Stack.firstAbove?,
    show (store.push frame).stack.depth - (store.depth + 1) = 0 by
      rw [← store.depth_push frame]; exact Nat.sub_self _]
  rfl

theorem boundsAt_congr {other : Store} (stack : other.stack = store.stack)
    (bounds : other.registers.boundsOf group = store.registers.boundsOf group) :
    other.boundsAt index group = store.boundsAt index group := by
  rw [boundsAt, boundsAt, boundsBefore?, boundsBefore?, stack, bounds]

/-- To write a group does not change what it was, if a frame saves its bounds. -/
theorem boundsAt_setGroup_push {frame : Frame} {written : Nat} (bounds : Bounds)
    (inside : index < store.depth)
    (saves : frame.savedBounds? group =
      if written = group then some (store.registers.boundsOf written) else none) :
    ((store.push frame).setGroup written bounds).boundsAt index group =
      store.boundsAt index group := by
  by_cases own : written = group
  · subst own
    rw [if_pos rfl] at saves
    have above : ((store.push frame).setGroup written bounds).boundsBefore? index written =
        (store.boundsBefore? index written).or (some (store.registers.boundsOf written)) := by
      unfold boundsBefore?
      refine (store.stack.firstAbove?_push frame _ inside).trans ?_
      rw [saves]
    rw [boundsAt, above, boundsAt]
    cases store.boundsBefore? index written <;> rfl
  · rw [if_neg own] at saves
    rw [← boundsAt_push _ inside saves]
    rcases (store.push frame).boundsOf_setGroup_or written bounds group with same | ⟨isOwn, _⟩
    · exact congrArg _ same
    · exact absurd isOwn.symm own

/-- What a group was does not change while nothing is taken off, if the group is written by logged
instructions alone. -/
theorem boundsAt_onStore {program : Program} {move : Move} (reverts : program.Reverts group)
    (reversible : move.Reversible program) (climbs : move.Climbs) (inside : index < store.depth) :
    (move.onStore store).boundsAt index group = store.boundsAt index group := by
  cases move with
  | perform effect =>
      cases effect with
      | note event => rfl
      | push frame =>
          refine boundsAt_push _ inside ?_
          have nothing : frame.savesNothing = true := reversible.regular
          cases frame <;> first | rfl | cases nothing
      | openGroup written position => exact boundsAt_setGroup_push _ inside rfl
      | closeGroup written position => exact boundsAt_setGroup_push _ inside rfl
      | clearGroup written => exact boundsAt_setGroup_push _ inside rfl
      | setGroup written bounds =>
          have other : group ≠ written := by
            rintro rfl
            exact reversible.unwritten group bounds rfl reverts
          rcases store.boundsOf_setGroup_or written bounds group with same | ⟨isOwn, _⟩
          · exact congrArg _ same
          · exact absurd isOwn other
      | enterRepeat id body =>
          exact boundsAt_push (.repeatEntry id 0 body _ _) inside rfl
      | countInRegister id => exact boundsAt_push (.registerCount id _) inside rfl
      | countInEntry entry =>
          let counted (count : Nat) : Store :=
            { store with stack := store.stack.setEntryCount entry (nextIteration count) }
          have same : ∀ count, (counted count).boundsAt index group =
              store.boundsAt index group := by
            intro count
            refine congrArg (fun before => Option.getD before _)
              (firstAbove?_savedBounds?_eq (Stack.depth_setEntryCount _ _ _) ?_)
            intro other frame read
            simp only [counted, Stack.setEntryCount, Stack.get?_modify]
            split
            · exact ⟨_, congrArg _ read, .withCount frame _⟩
            · exact ⟨frame, read, .same⟩
          have deep : ∀ count, index < (counted count).depth := by
            intro count
            rw [depth, Stack.depth_setEntryCount]
            exact inside
          exact (boundsAt_push (.entryCount entry _) (deep _) rfl).trans (same _)
      | commit mark =>
          refine congrArg (fun before => Option.getD before _)
            (firstAbove?_savedBounds?_eq (Stack.depth_commit _ _) ?_)
          intro other frame read
          have deep := Nat.lt_of_lt_of_le (Stack.lt_depth_of_get? read) (climbs.1 store)
          exact Move.exists_get?_onStore reversible.regular read deep
      | discard => exact absurd rfl climbs.ne_discard
      | unwindTo mark => exact absurd rfl (climbs.ne_unwindTo mark)
  | backtrack => exact absurd rfl climbs.ne_backtrack
  | _ => rfl

/-- Whether a group's bounds refer to frames of the group. -/
def Tracks (store : Store) (group : Nat) : Prop :=
  ∀ index, (store.registers.boundsOf group).start = .inFrame index ∨
    (store.registers.boundsOf group).stop = .inFrame index →
      ∃ frame, store.stack.get? index = some frame ∧ frame.group? = some group

namespace Tracks

theorem reset (store : Store) (group : Nat) : store.reset.Tracks group := by
  intro index refers
  rw [boundsOf_reset] at refers
  rcases refers with ⟨⟨⟩⟩ | ⟨⟨⟩⟩

/-- What bounds refer to stays. -/
theorem of_staysIn {other : Store} (tracks : store.Tracks group) (stays : store.StaysIn other)
    (refers : ∀ index, (other.registers.boundsOf group).start = .inFrame index ∨
      (other.registers.boundsOf group).stop = .inFrame index →
        ((store.registers.boundsOf group).start = .inFrame index ∨
          (store.registers.boundsOf group).stop = .inFrame index) ∨
        ∃ frame, other.stack.get? index = some frame ∧ frame.group? = some group) :
    other.Tracks group := by
  intro index isReferred
  rcases refers index isReferred with before | own
  · obtain ⟨frame, read, isOwn⟩ := tracks index before
    have noChoice : frame.isChoice = false := by
      cases frame <;> first | rfl | cases isOwn
    obtain ⟨later, readLater, becomes⟩ := stays index frame read noChoice
    exact ⟨later, readLater, becomes.group?_eq.trans isOwn⟩
  · exact own

/-- To write a group refers to the frame that does so, if it refers to anything new. -/
theorem setGroup_push {frame : Frame} {written : Nat} {bounds : Bounds} {store : Store}
    (tracks : store.Tracks group) (own : frame.group? = some written)
    (refers : ∀ index, bounds.start = .inFrame index ∨ bounds.stop = .inFrame index →
      index = store.depth ∨ (store.registers.boundsOf written).start = .inFrame index) :
    ((store.push frame).setGroup written bounds).Tracks group := by
  refine tracks.of_staysIn (StaysIn.push store frame) ?_
  intro index isReferred
  rcases (store.push frame).boundsOf_setGroup_or written bounds group with same | ⟨rfl, same⟩
  · rw [same] at isReferred
    exact .inl isReferred
  · rw [same] at isReferred
    rcases refers index isReferred with rfl | before
    · exact .inr ⟨frame, store.stack.get?_depth_push frame, own⟩
    · exact .inl (.inl before)

/-- A group keeps referring to its own frames while nothing is taken off. -/
theorem onStore {program : Program} {move : Move} (tracks : store.Tracks group)
    (reverts : program.Reverts group) (reversible : move.Reversible program)
    (climbs : move.Climbs) : (move.onStore store).Tracks group := by
  have stays := (StaysIn.refl store).onStore reversible.regular climbs
  cases move with
  | perform effect =>
      cases effect with
      | openGroup written position =>
          refine tracks.setGroup_push rfl ?_
          rintro index (isTop | ⟨⟨⟩⟩)
          exact .inl (Bound.inFrame.inj isTop).symm
      | closeGroup written position =>
          refine tracks.setGroup_push rfl ?_
          rintro index (before | isTop)
          · exact .inr before
          · exact .inl (Bound.inFrame.inj isTop).symm
      | clearGroup written =>
          refine tracks.setGroup_push rfl ?_
          rintro index (⟨⟨⟩⟩ | ⟨⟨⟩⟩)
      | setGroup written bounds =>
          refine tracks.of_staysIn stays ?_
          intro index isReferred
          rcases store.boundsOf_setGroup_or written bounds group with same | ⟨rfl, _⟩
          · exact .inl (by rwa [← same])
          · exact absurd reverts (reversible.unwritten group bounds rfl)
      | discard => exact absurd rfl climbs.ne_discard
      | unwindTo mark => exact absurd rfl (climbs.ne_unwindTo mark)
      | _ => exact tracks.of_staysIn stays fun index => .inl
  | backtrack => exact absurd rfl climbs.ne_backtrack
  | _ => exact tracks

/-- No choice is referred to. -/
theorem lower {point : Point} (tracks : (store.push (.choice point)).Tracks group) :
    store.Tracks group :=
  tracks.of_staysIn (StaysIn.refl _).lower fun _ => .inl

/-- What a group's bounds stand for stays the same. -/
theorem resolveBounds_eq {other : Store} (tracks : store.Tracks group)
    (stays : store.StaysIn other) :
    other.resolveBounds (store.registers.boundsOf group) = store.captures group := by
  have same : ∀ bound, (∀ index, bound = .inFrame index →
      ∃ frame, store.stack.get? index = some frame ∧ frame.group? = some group) →
      other.resolve? bound = store.resolve? bound := by
    intro bound tracked
    cases bound with
    | inFrame index =>
        obtain ⟨frame, read, isOwn⟩ := tracked index rfl
        have noChoice : frame.isChoice = false := by
          cases frame <;> first | rfl | cases isOwn
        obtain ⟨later, readLater, becomes⟩ := stays index frame read noChoice
        simp only [resolve?, read, readLater, Option.bind_some]
        exact becomes.position?_eq
    | _ => rfl
  exact Prod.ext (same _ fun index isIndex => tracks index (.inl isIndex))
    (same _ fun index isIndex => tracks index (.inr isIndex))

end Tracks

/-- A group that is never written was always unset. -/
theorem Idle.boundsAt_eq (idle : store.Idle group) (index : Nat) :
    store.boundsAt index group = .unset := by
  rw [boundsAt]
  cases found : store.boundsBefore? index group with
  | none => exact idle.unset
  | some bounds =>
      obtain ⟨other, frame, read, saved⟩ := Stack.exists_of_firstFrom? found
      have notOwn := idle.frames other frame read
      cases frame with
      | groupStart written position bounds' | groupEnd written position bounds' =>
          simp only [Frame.savedBounds?] at saved
          split at saved
          · next same => exact absurd (congrArg some same) notOwn
          · cases saved
      | _ => cases saved

end Store

/-! ### What groups were on a route -/

namespace Search

variable {setting : Setting} {search next : Search} {point : Point} {left : Store} {group : Nat}

/-- Frames stay when a dispatch leaves them. -/
theorem Leaves.staysIn (leaves : search.Leaves setting point left)
    (discards : ∀ visit ∈ Move.trail setting search (setting.moves search.point search.store),
      visit.DiscardsChoice) : search.store.StaysIn left := by
  refine @Leaves.invariant setting search point left search.store.StaysIn leaves discards (.refl _)
    ?_ fun store point => Store.StaysIn.lower
  intro move mem climbs store stays
  exact stays.onStore (Attempt.regular_of_mem_moves mem) climbs

theorem Leaves.tracks (leaves : search.Leaves setting point left)
    (discards : ∀ visit ∈ Move.trail setting search (setting.moves search.point search.store),
      visit.DiscardsChoice)
    (reverts : setting.program.Reverts group) (tracks : search.store.Tracks group) :
    left.Tracks group := by
  refine @Leaves.invariant setting search point left (fun store => store.Tracks group) leaves
    discards tracks ?_ fun store point => Store.Tracks.lower
  intro move mem climbs store tracks
  exact tracks.onStore reverts (Attempt.reversible_of_mem_moves mem) climbs

/-- What a group was when some frame was pushed does not change, unless that frame is a choice. -/
theorem Leaves.boundsAt_eq (leaves : search.Leaves setting point left)
    (discards : ∀ visit ∈ Move.trail setting search (setting.moves search.point search.store),
      visit.DiscardsChoice)
    (reverts : setting.program.Reverts group) {index : Nat} {mark : Frame}
    (read : search.store.stack.get? index = some mark) (noChoice : mark.isChoice = false) :
    left.boundsAt index group = search.store.boundsAt index group := by
  refine (@Leaves.invariant setting search point left (fun store => search.store.StaysIn store ∧
    store.boundsAt index group = search.store.boundsAt index group) leaves discards
    ⟨.refl _, rfl⟩ ?_ ?_).2
  · rintro move mem climbs store ⟨stays, kept⟩
    have reversible := Attempt.reversible_of_mem_moves mem
    obtain ⟨later, readLater, _⟩ := stays index mark read noChoice
    refine ⟨stays.onStore reversible.regular climbs, ?_⟩
    rw [← kept]
    exact Store.boundsAt_onStore reverts reversible climbs (Stack.lt_depth_of_get? readLater)
  · rintro store point ⟨stays, kept⟩
    obtain ⟨later, readLater, _⟩ := stays.lower index mark read noChoice
    refine ⟨stays.lower, ?_⟩
    rw [← kept]
    exact (Store.boundsAt_push _ (Stack.lt_depth_of_get? readLater) rfl).symm

variable {iteration : Search} {since before : List Search} {store : Store} {dispatches : Nat}

/-- A group that going back brings back refers to its own frames at each dispatch on a route. -/
theorem tracks_of_mem_route
    (discards : ∀ visit ∈ trail setting dispatches (start setting store), visit.DiscardsChoice)
    (mem : search ∈ route setting dispatches [] (start setting store))
    (reverts : setting.program.Reverts group) : search.store.Tracks group := by
  obtain ⟨passed, reaches, visited⟩ := trail_of_mem_route mem
  refine @route_invariant setting search store passed (fun _ state => state.store.Tracks group)
    reaches (fun visit mem => discards visit (visited (List.mem_append_left _ mem)))
    (.reset store group) ?_
  intro next latest earlier _ discards follows tracks
  obtain ⟨left, leaves, stack, bounds⟩ := follows.exists_left
  have leftTracks := leaves.tracks discards reverts tracks
  rw [Store.Tracks, stack, bounds group reverts]
  exact leftTracks

/-- The bounds that a group had when a bracket was opened are still known, and still stand for what
they stood for then. -/
theorem resolveBounds_boundsAt
    (reaches : (start setting store).advance setting dispatches = .ok search)
    (discards : ∀ visit ∈ trail setting dispatches (start setting store), visit.DiscardsChoice)
    (split : route setting dispatches [] (start setting store) = since ++ iteration :: before)
    {mark : Frame} (opens : iteration.opening? setting.program = some mark)
    (reverts : setting.program.Reverts group) :
    search.store.resolveBounds (search.store.boundsAt iteration.store.depth group) =
      iteration.store.captures group := by
  have onRoute : iteration ∈ route setting dispatches [] (start setting store) := by
    rw [split]
    exact List.mem_append_right _ List.mem_cons_self
  have tracks := tracks_of_mem_route discards onRoute reverts
  have noChoice : mark.isChoice = false := by
    have isOpening := isOpening_of_opening? opens
    cases mark <;> first | rfl | cases isOpening
  obtain ⟨stays, kept⟩ : (iteration.store.push mark).StaysIn search.store ∧
      search.store.boundsAt iteration.store.depth group =
        iteration.store.registers.boundsOf group := by
    refine stretch_invariant (fun state => (iteration.store.push mark).StaysIn state.store ∧
      state.store.boundsAt iteration.store.depth group =
        iteration.store.registers.boundsOf group) reaches discards split ?begins ?keeps
    case begins =>
      intro next follows
      obtain ⟨left, leaves, stack, bounds⟩ := follows.exists_left
      rw [leaves.store_of_opening opens] at stack bounds
      refine ⟨(Store.StaysIn.refl _).of_stack_eq stack, ?_⟩
      rw [Store.boundsAt_congr stack (bounds group reverts), Store.boundsAt_depth_push]
    case keeps =>
      rintro next latest discards follows ⟨stays, kept⟩
      obtain ⟨left, leaves, stack, bounds⟩ := follows.exists_left
      obtain ⟨later, read, becomes⟩ :=
        stays _ mark (iteration.store.stack.get?_depth_push mark) noChoice
      refine ⟨(stays.trans (leaves.staysIn discards)).of_stack_eq stack, ?_⟩
      rw [Store.boundsAt_congr stack (bounds group reverts), ← kept]
      exact leaves.boundsAt_eq discards reverts read (becomes.isChoice_eq_false noChoice)
  rw [kept]
  exact tracks.resolveBounds_eq ((Store.StaysIn.push _ mark).trans stays)

/-- So are those of a group that is never written for good, in a program that was built. -/
theorem resolveBounds_boundsAt_of_unwritten (knows : setting.program.KnowsLogged)
    (reaches : (start setting store).advance setting dispatches = .ok search)
    (discards : ∀ visit ∈ trail setting dispatches (start setting store), visit.DiscardsChoice)
    (split : route setting dispatches [] (start setting store) = since ++ iteration :: before)
    {mark : Frame} (opens : iteration.opening? setting.program = some mark)
    (known : setting.program.hasGroup group = true)
    (unwritten : ∀ instruction ∈ setting.program.code, instruction.written? ≠ some group) :
    search.store.resolveBounds (search.store.boundsAt iteration.store.depth group) =
      iteration.store.captures group := by
  cases logged : setting.program.logs group with
  | true => exact resolveBounds_boundsAt reaches discards split opens ⟨logged, unwritten⟩
  | false =>
      -- The group is never set, neither at the start of the iteration nor at its end.
      have positive : group ≠ 0 := bne_iff_ne.1 (Bool.and_eq_true_iff.1 known).1
      have onRoute : iteration ∈ route setting dispatches [] (start setting store) := by
        rw [split]
        exact List.mem_append_right _ List.mem_cons_self
      obtain ⟨passed, passes, _⟩ := trail_of_mem_route onRoute
      have idle := idle_of_advance knows positive logged unwritten reaches
      have wasIdle := idle_of_advance knows positive logged unwritten passes
      rw [idle.boundsAt_eq, Store.captures, wasIdle.unset]
      rfl

/-- The end of an iteration that watches groups steps over the loop's way back exactly if it stands
where the iteration has started and each of the groups is set to what it was set to then, or unset
as it was.  This holds for groups of a built program that are only opened, closed and cleared by
logged instructions, in runs that throw away nothing but choices, if no other iteration of the same
check has started since, and each bracket that has ended since has opened since. -/
theorem iterations_end_empty_with_captures {encoding : Encoding} {calls : List Builder.Call}
    (built : ((Builder.new encoding).afterCalls calls).build.1 = .ok setting.program)
    (reaches : (start setting store).advance setting dispatches = .ok search)
    (discards : ∀ visit ∈ trail setting dispatches (start setting store), visit.DiscardsChoice)
    (split : route setting dispatches [] (start setting store) = since ++ iteration :: before)
    {id : Nat} {groups : List Nat}
    (starts : setting.program.code[iteration.point.address]? = some (.emptyCheckStart id))
    (latest : ∀ dispatch ∈ since,
      setting.program.code[dispatch.point.address]? ≠ some (.emptyCheckStart id))
    (balanced : Balanced setting.program since)
    (ends : setting.program.code[search.point.address]? = some (.emptyCheckEnd id (some groups)))
    (known : ∀ group ∈ groups, setting.program.hasGroup group = true)
    (unwritten : ∀ group ∈ groups, ∀ instruction ∈ setting.program.code,
      instruction.written? ≠ some group) :
    search.CarriesOut setting (.iterationEnd setting.toAttempt search.point id
      (decide (search.point.cursor.position = iteration.point.cursor.position ∧
        ∀ group ∈ groups, search.store.captures group = iteration.store.captures group))) := by
  have opens : iteration.opening? setting.program =
      some (.emptyCheck id iteration.point.cursor.position) := by
    rw [opening?, starts]
    rfl
  obtain ⟨index, found, read, own⟩ := exists_found_iteration reaches discards split starts balanced
  have noneOpen := openIteration?_eq_none latest
  rw [noneOpen] at read
  rw [own noneOpen] at found read
  have carriesOut := step_of_fetched ends
  rw [Plan.ofInstruction,
    Plan.emptyCheckEnd_of_found (emptyCheck_known reaches discards split starts) found read]
    at carriesOut
  have empty : (iteration.point.cursor.position == search.point.cursor.position &&
        (some groups).all (search.store.groupsUnchanged iteration.store.depth)) =
      decide (search.point.cursor.position = iteration.point.cursor.position ∧
        ∀ group ∈ groups, search.store.captures group = iteration.store.captures group) := by
    rw [Bool.eq_iff_iff, Bool.and_eq_true, beq_iff_eq, decide_eq_true_eq, Option.all_some,
      Store.groupsUnchanged_eq, List.all_eq_true]
    refine and_congr eq_comm (forall₂_congr fun group mem => ?_)
    rw [resolveBounds_boundsAt_of_unwritten (Builder.knowsLogged_of_calls built) reaches discards
      split opens (known group mem) (unwritten group mem), beq_iff_eq]
    exact eq_comm
  rwa [← empty]

/-- A loop clears and sets a group without taking a character.  Its first iteration sets the group
and so is not empty; the second one sets it to what it was.  Another group is watched that is never
set. -/
theorem iterations_end_empty_with_captures_of_cleared_group :
    let calls : List Builder.Call :=
      [.setGroups 2, .addEmptyCheck, .newLabel, .newLabel, .bind ⟨0⟩, .push ⟨1⟩,
        .emit (.emptyCheckStart 0), .emit (.clearGroups 1 2), .emit (.openGroup 1 true),
        .emit .atomicStart, .emit .atomicEnd, .emit (.closeGroup 1 true),
        .emit (.emptyCheckEnd 0 (some [1, 2])), .jump ⟨0⟩, .bind ⟨1⟩, .emit .accept]
    ∃ setting : Setting,
      ((Builder.new .utf8).afterCalls calls).build.1 = .ok setting.program ∧
        (after setting 1).store.captures 1 = (none, none) ∧
        (after setting 7).store.captures 1 = (some 0, some 0) ∧
        (after setting 7).CarriesOut setting (.goto 8 ⟨0, 0⟩) ∧
        (after setting 10).store.captures 1 = (some 0, some 0) ∧
        (after setting 11).store.captures 1 = (some 0, some 0) ∧
        (after setting 12).store.captures 1 = (none, none) ∧
        (after setting 16).CarriesOut setting (.goto 9 ⟨0, 0⟩ [.note (.emptyIteration 7 0 0)]) := by
  intro calls
  let program : Program :=
    { code := #[.push 9, .emptyCheckStart 0, .clearGroups 1 2, .openGroup 1 true, .atomicStart,
        .atomicEnd, .closeGroup 1 true, .emptyCheckEnd 0 (some [1, 2]), .jump (-8), .accept]
      templates := #[], classes := #[], repeatRanges := #[], groupCount := 2, emptyCheckCount := 1
      loggedStarts := GroupMask.empty.insert 1, loggedEnds := GroupMask.empty.insert 1
      options := .none, encoding := .utf8 }
  let setting : Setting :=
    ⟨⟨program, .none, .whole ⟨#[]⟩⟩, .unlimited, .patient⟩
  have built : ((Builder.new .utf8).afterCalls calls).build.1 = .ok setting.program := by
    rfl
  have first : (after setting 7).CarriesOut setting (.goto 8 ⟨0, 0⟩) := by
    have split : route setting 7 [] (outset setting) =
        (route setting 7 [] (outset setting)).take 5 ++ after setting 1 ::
          (route setting 7 [] (outset setting)).drop 6 := by decide +kernel
    have reaches : (outset setting).advance setting 7 = .ok (after setting 7) :=
      @advance_after setting 0 7 (by decide +kernel)
    have starts : setting.program.code[(after setting 1).point.address]? =
        some (.emptyCheckStart 0) := by decide +kernel
    have ends : setting.program.code[(after setting 7).point.address]? =
        some (.emptyCheckEnd 0 (some [1, 2])) := by decide +kernel
    have carriesOut := iterations_end_empty_with_captures built reaches (by decide +kernel) split
      starts (by decide +kernel) (by decide +kernel) ends (by decide +kernel) (by decide +kernel)
    have goesOn : Plan.iterationEnd setting.toAttempt (after setting 7).point 0
        (decide ((after setting 7).point.cursor.position = (after setting 1).point.cursor.position ∧
          ∀ group ∈ ([1, 2] : List Nat), (after setting 7).store.captures group =
            (after setting 1).store.captures group)) = .goto 8 ⟨0, 0⟩ := by decide +kernel
    rwa [goesOn] at carriesOut
  have second : (after setting 16).CarriesOut setting
      (.goto 9 ⟨0, 0⟩ [.note (.emptyIteration 7 0 0)]) := by
    have split : route setting 16 [] (outset setting) =
        (route setting 16 [] (outset setting)).take 5 ++ after setting 10 ::
          (route setting 16 [] (outset setting)).drop 6 := by decide +kernel
    have reaches : (outset setting).advance setting 16 = .ok (after setting 16) :=
      @advance_after setting 0 16 (by decide +kernel)
    have starts : setting.program.code[(after setting 10).point.address]? =
        some (.emptyCheckStart 0) := by decide +kernel
    have ends : setting.program.code[(after setting 16).point.address]? =
        some (.emptyCheckEnd 0 (some [1, 2])) := by decide +kernel
    have carriesOut := iterations_end_empty_with_captures built reaches (by decide +kernel) split
      starts (by decide +kernel) (by decide +kernel) ends (by decide +kernel) (by decide +kernel)
    have stepsOver : Plan.iterationEnd setting.toAttempt (after setting 16).point 0
        (decide ((after setting 16).point.cursor.position =
            (after setting 10).point.cursor.position ∧
          ∀ group ∈ ([1, 2] : List Nat), (after setting 16).store.captures group =
            (after setting 10).store.captures group)) =
          .goto 9 ⟨0, 0⟩ [.note (.emptyIteration 7 0 0)] := by decide +kernel
    rwa [stepsOver] at carriesOut
  exact ⟨setting, built, by decide +kernel, by decide +kernel, first, by decide +kernel,
    by decide +kernel, by decide +kernel, second⟩

end Search

end PatternMachine
