import PatternMachine.Proofs.Bounds.Store
import PatternMachine.Proofs.Guarded.Text
import PatternMachine.Search.BackReference
import PatternMachine.Search.Plan.Loop

/-!
# Reading and writing stores under guard

The registers are read and written here by functions that have no result where a program's group or
repeat has no register.  On stores that fit, each has the result of the function that runs: frames
name only groups and repeats that the program has, so even what they write back finds its register.
-/

namespace PatternMachine

theorem Program.lt_regionSize_of_hasGroup {program : Program} {group : Nat}
    (known : program.hasGroup group = true) : group < program.regionSize :=
  Nat.lt_succ_of_le (of_decide_eq_true (Bool.and_eq_true_iff.1 known).2)

namespace Guarded

/-! ### Registers -/

/-- The bounds of a group, if it has a register. -/
def boundsOf (store : Store) (group : Nat) : Option Bounds :=
  store.registers.groups[group]?

/-- Writes the bounds of a group, if it has a register. -/
def setGroup (store : Store) (group : Nat) (bounds : Bounds) : Option Store :=
  if group < store.registers.groups.size then some (store.setGroup group bounds) else none

/-- The register of a repeat, if it has one. -/
def repeatOf (store : Store) (id : Nat) : Option RepeatRegister :=
  store.registers.repeats[id]?

/-- Writes the register of a repeat, if it has one. -/
def setRepeat (store : Store) (id : Nat) (register : RepeatRegister) : Option Store :=
  if id < store.registers.repeats.size then some (store.setRepeat id register) else none

variable {attempt : Attempt} {store : Store}

theorem boundsOf_eq (fits : store.Fits attempt) {group : Nat}
    (inside : group < attempt.program.regionSize) :
    boundsOf store group = some (store.registers.boundsOf group) := by
  rw [← fits.groupSlots] at inside
  rw [boundsOf, Registers.boundsOf, Array.getD_eq_getD_getElem?, Array.getElem?_eq_getElem inside]
  rfl

theorem setGroup_eq (fits : store.Fits attempt) {group : Nat}
    (inside : group < attempt.program.regionSize) (bounds : Bounds) :
    setGroup store group bounds = some (store.setGroup group bounds) := by
  rw [← fits.groupSlots] at inside
  exact if_pos inside

theorem repeatOf_eq (fits : store.Fits attempt) {id : Nat}
    (inside : id < attempt.program.repeatRanges.size) :
    repeatOf store id = some (store.registers.repeatOf id) := by
  rw [← fits.repeatSlots] at inside
  rw [repeatOf, Registers.repeatOf, Array.getD_eq_getD_getElem?, Array.getElem?_eq_getElem inside]
  rfl

theorem setRepeat_eq (fits : store.Fits attempt) {id : Nat}
    (inside : id < attempt.program.repeatRanges.size) (register : RepeatRegister) :
    setRepeat store id register = some (store.setRepeat id register) := by
  rw [← fits.repeatSlots] at inside
  exact if_pos inside

/-! ### Going back -/

/-- Writes back what a frame saved. -/
def restore (store : Store) : Frame → Option Store
  | .groupStart group _ saved | .groupEnd group _ saved => setGroup store group saved
  | .repeatEntry id _ _ outer savedCount => do
      let register ← repeatOf store id
      setRepeat store id { register with entry := outer, count := savedCount }
  | .registerCount id savedCount => do
      let register ← repeatOf store id
      setRepeat store id { register with count := savedCount }
  | .entryCount index savedCount =>
      some { store with stack := store.stack.setEntryCount index savedCount }
  | _ => some store

theorem depth_of_restore {frame : Frame} {rest : Store}
    (restored : restore store frame = some rest) : rest.depth = store.depth := by
  have written : ∀ {group bounds}, setGroup store group bounds = some rest →
      rest.depth = store.depth := by
    intro group bounds found
    unfold setGroup at found
    split at found
    · cases found
      rfl
    · cases found
  have counted : ∀ {id register}, setRepeat store id register = some rest →
      rest.depth = store.depth := by
    intro id register found
    unfold setRepeat at found
    split at found
    · cases found
      rfl
    · cases found
  cases frame with
  | groupStart group position saved | groupEnd group position saved => exact written restored
  | repeatEntry id count body outer savedCount | registerCount id savedCount =>
      obtain ⟨register, _, restored⟩ := Option.bind_eq_some_iff.1 restored
      exact counted restored
  | entryCount index savedCount =>
      cases restored
      exact Stack.depth_setEntryCount _ _ _
  | _ =>
      cases restored
      rfl

/-- Takes frames off the stack down to the first that passes a test, and writes back what the others
saved. -/
def unwind (test : Frame → Bool) (store : Store) : Option (Option Frame × Store) :=
  match _popped : store.stack.pop? with
  | none => some (none, { store with stack := .empty })
  | some (frame, below) =>
      if test frame then
        some (some frame, { store with stack := below })
      else
        match _restored : restore { store with stack := below } frame with
        | some rest => unwind test rest
        | none => none
termination_by store.depth
decreasing_by
  rw [depth_of_restore _restored]
  exact Nat.lt_of_lt_of_eq (Nat.lt_succ_self _) (Stack.depth_of_pop? _popped).symm

theorem restore_eq {frame : Frame} (fits : (store.push frame).Fits attempt) :
    restore store frame = some (store.restore frame) := by
  have own : frame.Fits attempt := fits.frames.top
  have below := fits.lower
  cases frame with
  | groupStart group position saved | groupEnd group position saved =>
      exact setGroup_eq below (Program.lt_regionSize_of_hasGroup own.1) saved
  | repeatEntry id count body outer savedCount | registerCount id savedCount =>
      rw [restore, repeatOf_eq below own, Option.bind_eq_bind, Option.bind_some,
        setRepeat_eq below own]
      rfl
  | _ => rfl

theorem unwind_push (test : Frame → Bool) (frame : Frame) :
    unwind test (store.push frame) =
      if test frame then some (some frame, store)
      else (restore store frame).bind (unwind test) := by
  rw [unwind]
  split
  · next none_left =>
      rw [Store.push, Stack.pop?_push] at none_left
      cases none_left
  · next top below popped =>
      rw [Store.push, Stack.pop?_push] at popped
      cases popped
      split
      · rfl
      · split
        · next rest restored => exact (congrArg (Option.bind · (unwind test)) restored).symm
        · next restored => exact (congrArg (Option.bind · (unwind test)) restored).symm

theorem unwind_eq (fits : store.Fits attempt) (test : Frame → Bool) :
    unwind test store = some (store.unwind test) := by
  induction store using Store.push_induction with
  | empty registers =>
      rw [unwind, Store.unwind_blank]
      rfl
  | push store frame ih =>
      rw [unwind_push, Store.unwind_push]
      split
      · rfl
      · rw [restore_eq fits]
        exact ih _ (store.depth_restore frame) fits.restore

/-! ### Effects -/

/-- What an effect makes of a store with room for one more frame. -/
def onStore (store : Store) : Effect → Option Store
  | .openGroup group position => do
      let saved ← boundsOf store group
      setGroup (store.push (.groupStart group position saved)) group ⟨.inFrame store.depth, .unset⟩
  | .closeGroup group position => do
      let saved ← boundsOf store group
      setGroup (store.push (.groupEnd group position saved)) group
        ⟨saved.start, .inFrame store.depth⟩
  | .clearGroup group => do
      let saved ← boundsOf store group
      setGroup (store.push (.groupStart group none saved)) group .unset
  | .setGroup group bounds => setGroup store group bounds
  | .enterRepeat id body => do
      let outer ← repeatOf store id
      setRepeat (store.push (.repeatEntry id 0 body outer.entry outer.count)) id
        ⟨some store.depth, 0, body⟩
  | .countInRegister id => do
      let register ← repeatOf store id
      setRepeat (store.push (.registerCount id register.count)) id
        { register with count := nextIteration register.count }
  | .unwindTo mark => (unwind (Frame.isMark mark) store).map Prod.snd
  | other => some (other.onStore store)

/-- Only the size of the registers decides whether a group may be written. -/
theorem setGroup_push (fits : store.Fits attempt) {group : Nat}
    (inside : group < attempt.program.regionSize) (frame : Frame) (bounds : Bounds) :
    setGroup (store.push frame) group bounds = some ((store.push frame).setGroup group bounds) := by
  rw [← fits.groupSlots] at inside
  exact if_pos inside

theorem setRepeat_push (fits : store.Fits attempt) {id : Nat}
    (inside : id < attempt.program.repeatRanges.size) (frame : Frame) (register : RepeatRegister) :
    setRepeat (store.push frame) id register = some ((store.push frame).setRepeat id register) := by
  rw [← fits.repeatSlots] at inside
  exact if_pos inside

theorem onStore_eq (fits : store.Fits attempt) {effect : Effect} (own : effect.Fits attempt) :
    onStore store effect = some (effect.onStore store) := by
  cases effect with
  | openGroup group position | closeGroup group position =>
      have inside := Program.lt_regionSize_of_hasGroup own.1
      rw [onStore, boundsOf_eq fits inside, Option.bind_eq_bind, Option.bind_some,
        setGroup_push fits inside]
      rfl
  | clearGroup group =>
      have inside := Program.lt_regionSize_of_hasGroup own
      rw [onStore, boundsOf_eq fits inside, Option.bind_eq_bind, Option.bind_some,
        setGroup_push fits inside]
      rfl
  | setGroup group bounds => exact setGroup_eq fits (Program.lt_regionSize_of_hasGroup own.1) bounds
  | enterRepeat id body | countInRegister id =>
      rw [onStore, repeatOf_eq fits own, Option.bind_eq_bind, Option.bind_some,
        setRepeat_push fits own]
      rfl
  | unwindTo mark =>
      rw [onStore, unwind_eq fits]
      rfl
  | _ => rfl

/-! ### Regions -/

/-- The start and the end of a group, if both are set. -/
def span (store : Store) (group : Nat) : Option (Option (Nat × Nat)) := do
  let bounds ← boundsOf store group
  match store.resolveBounds bounds with
  | (some start, some stop) => some (some (start, stop))
  | _ => some none

/-- Writes both bounds of a slot, if the region has it. -/
def setSpan (region : Region) (group start stop : Nat) : Option Region :=
  if group < region.starts.size ∧ group < region.stops.size then
    some (region.set group (some start) (some stop))
  else
    none

/-- Reports a group in a region. -/
def report (store : Store) (region : Region) (group : Nat) : Option Region := do
  match ← span store group with
  | some (start, stop) => setSpan region group start stop
  | none => some region

/-- The region of a match from `start` to `stop`: one slot after the other is filled. -/
def region (store : Store) (slots start stop : Nat) : Option Region := do
  let whole ← setSpan (.withSlots slots) 0 start stop
  (List.range' 1 (slots - 1)).foldlM (report store) whole

theorem span_eq (fits : store.Fits attempt) {group : Nat}
    (inside : group < attempt.program.regionSize) :
    span store group = some (store.span? group) := by
  rw [span, boundsOf_eq fits inside, Option.bind_eq_bind, Option.bind_some, Store.span?]
  rcases store.resolveBounds (store.registers.boundsOf group) with ⟨_ | start, _ | stop⟩ <;> rfl

/-- What is known of a group when those up to a number have been reported. -/
def spanUpTo (store : Store) (start stop filled group : Nat) : Option (Nat × Nat) :=
  if group = 0 then some (start, stop) else if group ≤ filled then store.span? group else none

/-- One list of a region when the groups up to a number have been reported. -/
def sideUpTo (store : Store) (slots start stop filled : Nat) (side : Nat × Nat → Nat) :
    Array (Option Nat) :=
  (Array.range slots).map fun group => (spanUpTo store start stop filled group).map side

/-- A region when the groups up to a number have been reported. -/
def regionUpTo (store : Store) (slots start stop filled : Nat) : Region :=
  ⟨sideUpTo store slots start stop filled Prod.fst, sideUpTo store slots start stop filled Prod.snd⟩

section

variable (store : Store) (slots start stop filled : Nat) (side : Nat × Nat → Nat)

theorem getElem?_sideUpTo (group : Nat) :
    (sideUpTo store slots start stop filled side)[group]? =
      if group < slots then some ((spanUpTo store start stop filled group).map side) else none := by
  rw [sideUpTo, Array.getElem?_map]
  by_cases inside : group < slots
  · rw [Array.getElem?_eq_getElem (by rwa [Array.size_range]), Array.getElem_range, if_pos inside]
    rfl
  · rw [Array.getElem?_eq_none (by rw [Array.size_range]; omega), if_neg inside]
    rfl

@[simp] theorem size_sideUpTo : (sideUpTo store slots start stop filled side).size = slots := by
  rw [sideUpTo, Array.size_map, Array.size_range]

theorem sideUpTo_zero :
    (Region.resizeBounds #[] slots).setIfInBounds 0 (some (side (start, stop))) =
      sideUpTo store slots start stop 0 side := by
  apply Array.ext_getElem?
  intro group
  have blank : (Region.resizeBounds #[] slots)[group]? =
      if group < slots then some none else none := by
    simp [Region.resizeBounds, Array.getElem?_replicate]
  rw [Array.getElem?_setIfInBounds, getElem?_sideUpTo, Region.size_resizeBounds, blank, spanUpTo]
  by_cases whole : group = 0
  · simp [whole]
  · simp [whole, Ne.symm whole]

theorem sideUpTo_succ {span : Nat × Nat} (found : store.span? (filled + 1) = some span) :
    (sideUpTo store slots start stop filled side).setIfInBounds (filled + 1) (some (side span)) =
      sideUpTo store slots start stop (filled + 1) side := by
  apply Array.ext_getElem?
  intro group
  rw [Array.getElem?_setIfInBounds, getElem?_sideUpTo, getElem?_sideUpTo, size_sideUpTo, spanUpTo,
    spanUpTo]
  by_cases own : filled + 1 = group
  · subst own
    simp [found]
  · rw [if_neg own]
    have further : group ≤ filled + 1 ↔ group ≤ filled := by omega
    simp only [further]

theorem regionUpTo_succ (unset : store.span? (filled + 1) = none) :
    regionUpTo store slots start stop filled = regionUpTo store slots start stop (filled + 1) := by
  have same : spanUpTo store start stop filled = spanUpTo store start stop (filled + 1) := by
    funext group
    rw [spanUpTo, spanUpTo]
    by_cases own : filled + 1 = group
    · subst own
      simp [unset]
    · have further : group ≤ filled + 1 ↔ group ≤ filled := by omega
      simp only [further]
  simp only [regionUpTo, sideUpTo, same]

theorem regionUpTo_all : regionUpTo store slots start stop (slots - 1) =
    store.region slots start stop := by
  have side : ∀ side : Nat × Nat → Nat, sideUpTo store slots start stop (slots - 1) side =
      ((Array.range slots).map fun group =>
        if group = 0 then some (start, stop) else store.span? group).map fun span =>
          span.map side := by
    intro side
    apply Array.ext_getElem?
    intro group
    rw [getElem?_sideUpTo, Array.getElem?_map, Array.getElem?_map, spanUpTo]
    by_cases inside : group < slots
    · have last : group ≤ slots - 1 := by omega
      rw [Array.getElem?_eq_getElem (by rwa [Array.size_range]), Array.getElem_range,
        if_pos inside, if_pos last]
      rfl
    · rw [Array.getElem?_eq_none (by rw [Array.size_range]; omega), if_neg inside]
      rfl
  rw [regionUpTo, side, side]
  rfl

end

theorem setSpan_whole (store : Store) {slots : Nat} (positive : 0 < slots) (start stop : Nat) :
    setSpan (.withSlots slots) 0 start stop = some (regionUpTo store slots start stop 0) := by
  have size : (Region.resizeBounds #[] slots).size = slots := Region.size_resizeBounds _ _
  have room : 0 < (Region.withSlots slots).starts.size ∧ 0 < (Region.withSlots slots).stops.size :=
    ⟨by rwa [← size] at positive, by rwa [← size] at positive⟩
  rw [setSpan, if_pos room, regionUpTo, ← sideUpTo_zero, ← sideUpTo_zero]
  rfl

theorem report_eq (fits : store.Fits attempt) {filled : Nat}
    (inside : filled + 1 < attempt.program.regionSize) (start stop : Nat) :
    report store (regionUpTo store attempt.program.regionSize start stop filled) (filled + 1) =
      some (regionUpTo store attempt.program.regionSize start stop (filled + 1)) := by
  rw [report, span_eq fits inside, Option.bind_eq_bind, Option.bind_some]
  cases found : store.span? (filled + 1) with
  | none => rw [regionUpTo_succ _ _ _ _ _ found]
  | some span =>
      dsimp only
      rw [setSpan, if_pos]
      · rw [Region.set, regionUpTo, sideUpTo_succ _ _ _ _ _ Prod.fst found,
          sideUpTo_succ _ _ _ _ _ Prod.snd found]
        rfl
      · rw [regionUpTo, size_sideUpTo, size_sideUpTo]
        exact ⟨inside, inside⟩

theorem region_eq (fits : store.Fits attempt) (start stop : Nat) :
    region store attempt.program.regionSize start stop =
      some (store.region attempt.program.regionSize start stop) := by
  have positive : 0 < attempt.program.regionSize := Nat.succ_pos _
  have filled : ∀ count, count < attempt.program.regionSize →
      (List.range' 1 count).foldlM (report store)
          (regionUpTo store attempt.program.regionSize start stop 0) =
        some (regionUpTo store attempt.program.regionSize start stop count) := by
    intro count inside
    induction count with
    | zero => rfl
    | succ count ih =>
        rw [List.range'_concat, List.foldlM_append, ih (by omega), Nat.one_mul,
          Nat.add_comm 1 count]
        simp only [Option.bind_eq_bind, Option.bind_some, List.foldlM_cons, List.foldlM_nil,
          report_eq fits inside]
        rfl
  rw [region, setSpan_whole store positive, Option.bind_eq_bind, Option.bind_some,
    filled _ (by omega), regionUpTo_all]

/-! ### What the stack says of groups -/

/-- Whether the given groups lie where they lay when the frame at an index was pushed. -/
def groupsUnchanged (store : Store) (index : Nat) : List Nat → Option Bool
  | [] => some true
  | group :: groups =>
      match store.boundsBefore? index group with
      | some before => do
          let now ← boundsOf store group
          if store.resolveBounds before == store.resolveBounds now then
            groupsUnchanged store index groups
          else
            some false
      | none => groupsUnchanged store index groups

/-- Whether the iteration that the frame at an index started has consumed nothing and changed none
of the watched groups. -/
def iterationEmpty (point : Point) (store : Store) (index : Nat) (watched : Option (List Nat)) :
    Option Bool :=
  match store.stack.get? index with
  | some (.emptyCheck _ start) =>
      if start == point.cursor.position then
        match watched with
        | some groups => do
            let _above ← sub store.depth (index + 1)
            groupsUnchanged store index groups
        | none => some true
      else
        some false
  | _ => some false

/-- A call level, if it fits into a signed word of 32 bits. -/
def level (number : Int) : Option Int :=
  if -2 ^ 31 ≤ number ∧ number < 2 ^ 31 then some number else none

/-- The span of the most recently closed instance of one of several groups at a call level, among
the frames below a height. -/
def spanFrom (stack : Stack) (groups : List Nat) (wanted : Int) :
    (height : Nat) → Int × Option Nat → Option (Option (Nat × Nat))
  | 0, _ => some none
  | height + 1, state => do
      let frame ← stack.get? height
      match visitInstance groups wanted frame state with
      | .error span => some (some span)
      | .ok (next, stop) => do
          let next ← level next
          spanFrom stack groups wanted height (next, stop)

/-- A group whose old bounds are found in a frame is one of the program's. -/
theorem lt_of_boundsBefore? (fits : store.Fits attempt) {index group : Nat} {bounds : Bounds}
    (found : store.boundsBefore? index group = some bounds) :
    group < attempt.program.regionSize := by
  obtain ⟨other, frame, read, saved⟩ := Stack.exists_of_firstFrom? found
  have good := fits.frames other frame read
  cases frame with
  | groupStart number position saved' | groupEnd number position saved' =>
      simp only [Frame.savedBounds?] at saved
      split at saved
      · next same =>
          subst same
          exact Program.lt_regionSize_of_hasGroup good.1
      · cases saved
  | _ => cases saved

theorem groupsUnchanged_eq (fits : store.Fits attempt) (index : Nat) (groups : List Nat) :
    groupsUnchanged store index groups = some (store.groupsUnchanged index groups) := by
  induction groups with
  | nil => rfl
  | cons group groups ih =>
      rw [groupsUnchanged, Store.groupsUnchanged, List.all_cons]
      cases found : store.boundsBefore? index group with
      | none => exact ih
      | some before =>
          dsimp only
          rw [boundsOf_eq fits (lt_of_boundsBefore? fits found), Option.bind_eq_bind,
            Option.bind_some]
          split
          · next same =>
              rw [same, Bool.true_and]
              exact ih
          · next other =>
              rw [Bool.eq_false_iff.2 other]
              rfl

theorem iterationEmpty_eq (fits : store.Fits attempt) (point : Point) (index : Nat)
    (watched : Option (List Nat)) :
    iterationEmpty point store index watched =
      some (Plan.iterationEmpty point store index watched) := by
  unfold iterationEmpty Plan.iterationEmpty
  cases read : store.stack.get? index with
  | none => rfl
  | some frame =>
      have inside : index < store.depth := Stack.lt_depth_of_get? read
      cases frame with
      | emptyCheck id start =>
          dsimp only
          cases start == point.cursor.position with
          | false => rfl
          | true =>
              cases watched with
              | none => rfl
              | some groups =>
                  dsimp only
                  rw [if_pos rfl, sub_eq inside, Option.bind_eq_bind, Option.bind_some,
                    groupsUnchanged_eq fits]
                  rfl
      | _ => rfl

/-- A frame changes the call level by one at most. -/
theorem level_of_visitInstance {groups : List Nat} {wanted : Int} {frame : Frame}
    {level next : Int} {stop stop' : Option Nat}
    (visited : visitInstance groups wanted frame (level, stop) = .ok (next, stop')) :
    level - 1 ≤ next ∧ next ≤ level + 1 := by
  have near : next = level - 1 ∨ next = level + 1 ∨ next = level := by
    unfold visitInstance at visited
    dsimp only at visited
    split at visited
    · cases visited
      exact .inl rfl
    · cases visited
      exact .inr (.inl rfl)
    · cases visited
      exact .inr (.inr rfl)
    · split at visited
      · split at visited
        · cases visited
        · cases visited
          exact .inr (.inr rfl)
      · cases visited
        exact .inr (.inr rfl)
    · cases visited
      exact .inr (.inr rfl)
  omega

theorem spanFrom_push (stack : Stack) (frame : Frame) (groups : List Nat) (wanted : Int)
    {height : Nat} (below : height ≤ stack.depth) (state : Int × Option Nat) :
    spanFrom (stack.push frame) groups wanted height state =
      spanFrom stack groups wanted height state := by
  induction height generalizing state with
  | zero => rfl
  | succ height ih =>
      have same : ∀ state, spanFrom (stack.push frame) groups wanted height state =
          spanFrom stack groups wanted height state := ih (Nat.le_of_succ_le below)
      simp only [spanFrom, stack.get?_push_of_lt frame below, same]

/-- The call level stays in its word as long as there are few enough frames. -/
theorem spanFrom_eq (stack : Stack) (groups : List Nat) (wanted : Int) {start : Int}
    (low : -2 ^ 31 ≤ start - stack.depth) (high : start + stack.depth < 2 ^ 31)
    (stop : Option Nat) :
    spanFrom stack groups wanted stack.depth (start, stop) =
      some (stack.seek (visitInstance groups wanted) (start, stop)) := by
  induction stack using Stack.push_induction generalizing start stop with
  | empty => rfl
  | push stack frame ih =>
      rw [Stack.depth_push] at low high ⊢
      rw [spanFrom, stack.get?_depth_push, Option.bind_eq_bind, Option.bind_some, Stack.seek_push]
      cases visited : visitInstance groups wanted frame (start, stop) with
      | error span => rfl
      | ok state =>
          obtain ⟨next, stop'⟩ := state
          have near := level_of_visitInstance visited
          have inWord : level next = some next := if_pos (by omega)
          dsimp only
          rw [inWord, Option.bind_eq_bind, Option.bind_some,
            spanFrom_push stack frame groups wanted (Nat.le_refl _)]
          exact ih (by omega) (by omega) stop'

/-- The span of the most recently closed instance of one of several groups at a call level. -/
def spanAtLevel (stack : Stack) (groups : List Nat) (wanted : Int) : Option (Option (Nat × Nat)) :=
  spanFrom stack groups wanted stack.depth (0, none)

theorem spanAtLevel_eq {stack : Stack} (shallow : stack.depth < 2 ^ 31) (groups : List Nat)
    (wanted : Int) : spanAtLevel stack groups wanted = some (stack.spanAtLevel? groups wanted) :=
  spanFrom_eq stack groups wanted (by omega) (by omega) none

end Guarded

end PatternMachine
