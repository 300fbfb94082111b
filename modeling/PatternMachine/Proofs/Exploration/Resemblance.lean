import PatternMachine.Proofs.Exploration.Orderly

/-!
# Stores that resemble each other

A repeat leaves frames of its own between those of its body, and nothing but the instructions of the
repeat looks at them.  Two stores resemble each other if all other instructions find the same in
them (`Store.Resembles`), brackets aside.  They still do so behind effects that do the same in both
(`Effect.Matches`), and the effects of the repeat itself make no difference.
-/

namespace PatternMachine

/-! ### What frames show -/

/-- What is seen of a frame by those who do not undo it. -/
def Frame.shape : Frame → Frame
  | .groupStart group position _ => .groupStart group position .unset
  | .groupEnd group position _ => .groupEnd group position .unset
  | .repeatEntry .. | .entryCount .. | .registerCount .. => .void
  | other => other

namespace Frame

@[simp] theorem isMark_shape (frame : Frame) (mark : Mark) :
    frame.shape.isMark mark = frame.isMark mark := by
  cases frame <;> rfl

@[simp] theorem resume?_shape (frame : Frame) : frame.shape.resume? = frame.resume? := by
  cases frame <;> rfl

@[simp] theorem isResumable_shape (frame : Frame) :
    frame.shape.isResumable = frame.isResumable := by
  cases frame <;> rfl

theorem shape_settle (frame : Frame) : (Stack.settle frame).shape = Stack.settle frame.shape := by
  cases frame <;> rfl

theorem visitInstance_shape (frame : Frame) (groups : List Nat) (wanted : Int)
    (state : Int × Option Nat) :
    visitInstance groups wanted frame.shape state = visitInstance groups wanted frame state := by
  cases frame with
  | groupStart group position saved | groupEnd group position saved => cases position <;> rfl
  | _ => rfl

variable {frame other : Frame}

theorem isMark_of_shape (same : frame.shape = other.shape) (mark : Mark) :
    frame.isMark mark = other.isMark mark := by
  rw [← frame.isMark_shape, same, isMark_shape]

theorem resume?_of_shape (same : frame.shape = other.shape) : frame.resume? = other.resume? := by
  rw [← frame.resume?_shape, same, resume?_shape]

theorem isResumable_of_shape (same : frame.shape = other.shape) :
    frame.isResumable = other.isResumable := by
  rw [← frame.isResumable_shape, same, isResumable_shape]

theorem settle_of_shape (same : frame.shape = other.shape) :
    (Stack.settle frame).shape = (Stack.settle other).shape := by
  rw [shape_settle, same, shape_settle]

end Frame

namespace Stack

variable (stack : Stack) (groups : List Nat) (wanted : Int) (start : Int × Option Nat)

/-- Who looks for groups finds the same under frames that show the same. -/
theorem seekInstance_push {other : Stack} {frame frame' : Frame}
    (shape : frame.shape = frame'.shape)
    (below : ∀ start, stack.seek (visitInstance groups wanted) start =
      other.seek (visitInstance groups wanted) start) :
    (stack.push frame).seek (visitInstance groups wanted) start =
      (other.push frame').seek (visitInstance groups wanted) start := by
  have same : visitInstance groups wanted frame start =
      visitInstance groups wanted frame' start := by
    rw [← frame.visitInstance_shape, shape, frame'.visitInstance_shape]
  rw [seek_push, seek_push, same]
  cases visitInstance groups wanted frame' start with
  | error answer => rfl
  | ok next => exact below next

theorem seekInstance_setEntryCount (index count : Nat) :
    (stack.setEntryCount index count).seek (visitInstance groups wanted) start =
      stack.seek (visitInstance groups wanted) start := by
  have blind : ∀ frame state, visitInstance groups wanted (Frame.outline frame) state =
      visitInstance groups wanted frame state := by
    intro frame state
    cases frame <;> rfl
  rw [← seek_outline _ _ blind, outline_setEntryCount, seek_outline _ _ blind]

/-- Whether choices are given up matters to no one who looks for groups. -/
theorem seekInstance_commit {mark : Mark} (noCall : mark ≠ .call) :
    (stack.commit mark).2.seek (visitInstance groups wanted) start =
      stack.seek (visitInstance groups wanted) start := by
  induction stack using push_induction generalizing start with
  | empty => rw [commit_empty]
  | push stack frame ih =>
      rw [commit_push]
      split
      · next isMark =>
          have unseen : visitInstance groups wanted frame start = .ok start := by
            cases frame with
            | call address =>
                cases mark with
                | call => exact absurd rfl noCall
                | _ => cases isMark
            | _ => first | rfl | (cases mark <;> cases isMark)
          rw [seek_push, seek_push, unseen]
          rfl
      · have settled : visitInstance groups wanted (settle frame) start =
            visitInstance groups wanted frame start := by
          cases frame <;> rfl
        rw [seek_push, seek_push, settled]
        cases visitInstance groups wanted frame start with
        | error answer => rfl
        | ok next => exact ih next

end Stack

/-! ### What instructions see of repeats -/

namespace Store

variable {program : Program} {store other : Store} {id : Nat} {direct : Bool}

/-- How far an active repeat has come: its iterations and its body as its entry tells them, and its
iterations as its register tells them. -/
def standing? (store : Store) (id : Nat) : Option ((Nat × Nat) × Nat) :=
  (store.progress? id false).map fun progress => (progress, (store.registers.repeatOf id).count)

theorem standing?_congr
    (register : (other.registers.repeatOf id).record = (store.registers.repeatOf id).record)
    (entry : ∀ index, store.active id = some index →
      other.stack.entry? index = store.stack.entry? index) :
    other.standing? id = store.standing? id := by
  have sameActive : other.active id = store.active id := by
    have same := congrArg RepeatRegister.entry register
    exact same
  have sameCount : (other.registers.repeatOf id).count = (store.registers.repeatOf id).count := by
    have same := congrArg RepeatRegister.count register
    exact same
  rw [standing?, standing?, progress?, progress?, sameActive, sameCount]
  cases isActive : store.active id with
  | none => rfl
  | some index => simp only [Option.bind_some, Bool.false_eq_true, if_false, entry index isActive]

theorem standing?_of_record (same : other.record = store.record) :
    other.standing? id = store.standing? id := by
  have register : (other.registers.repeatOf id).record = (store.registers.repeatOf id).record := by
    rw [← repeatOf_record, same, repeatOf_record]
  have recorded : ∀ (stack : Stack) (index : Nat),
      stack.record.entry? index = stack.entry? index := by
    intro stack index
    simp only [Stack.entry?, Stack.get?_record]
    cases stack.get? index with
    | none => rfl
    | some frame => cases frame <;> rfl
  refine standing?_congr register fun index _ => ?_
  rw [← recorded, ← recorded store.stack]
  exact congrArg (fun store => store.stack.entry? index) same

theorem count?_of_record (same : other.record = store.record) :
    other.count? id direct = store.count? id direct := by
  rw [← count?_record, same, count?_record]

/-- A frame on top changes nothing about repeats that are not entered with it. -/
theorem standing?_of_push (anchored : store.Anchored program) {frame : Frame}
    (stack : other.stack = store.stack.push frame)
    (register : other.registers.repeatOf id = store.registers.repeatOf id) :
    other.standing? id = store.standing? id := by
  refine standing?_congr (congrArg _ register) fun index isActive => ?_
  have below := (anchored.active id index isActive).lt_depth
  rw [Stack.entry?, Stack.entry?, stack, Stack.get?_push_of_lt _ _ below]

theorem standing?_enterRepeat (known : id < store.registers.repeats.size) (body : Nat) :
    (store.enterRepeat id body).standing? id = some ((0, body), 0) := by
  rw [standing?, progress?_enterRepeat known, repeatOf_enterRepeat known]
  rfl

theorem standing?_of_inactive (inactive : store.active id = none) : store.standing? id = none := by
  rw [standing?, progress?, inactive]
  rfl

/-- An iteration that is counted raises the count of its repeat. -/
theorem standing?_counting {count body register : Nat}
    (stands : store.standing? id = some ((count, body), register)) {record : Effect}
    (counts : store.counting? id direct = some record) :
    (record.onStore store).standing? id =
      some (if direct then ((count, body), nextIteration register)
        else ((nextIteration count, body), register)) := by
  obtain ⟨progress, continues, same⟩ := Option.map_eq_some_iff.1 stands
  cases same
  obtain ⟨entry, isActive, _⟩ := Option.bind_eq_some_iff.1 continues
  cases direct with
  | false =>
      have counted := progress?_counting continues counts
      obtain ⟨index, _, rfl⟩ := Option.map_eq_some_iff.1 counts
      rw [standing?, counted]
      rfl
  | true =>
      cases counts
      let saved : Frame := .registerCount id (store.registers.repeatOf id).count
      have written : (store.countInRegister id).registers.repeatOf id =
          { store.registers.repeatOf id with
            count := nextIteration (store.registers.repeatOf id).count } :=
        @repeatOf_setRepeat_self (store.push saved) _ _ (lt_size_of_active isActive)
      have kept : (store.countInRegister id).progress? id false =
          (store.push saved).progress? id false := by
        rw [progress?, progress?, active, written]
        rfl
      rw [Effect.onStore, standing?, kept, progress?_push continues, written]
      rfl

/-- An iteration that is counted changes nothing about other repeats. -/
theorem standing?_counting_of_ne (anchored : store.Anchored program) {counted : Nat}
    (apart : counted ≠ id) {record : Effect}
    (counts : store.counting? counted direct = some record) :
    (record.onStore store).standing? id = store.standing? id := by
  cases direct with
  | true =>
      cases counts
      exact standing?_of_push anchored rfl (repeatOf_setRepeat_of_ne _ apart)
  | false =>
      obtain ⟨index, isIndex, rfl⟩ := Option.map_eq_some_iff.1 counts
      exact standing?_congr rfl fun entry isActive =>
        entry?_countInEntry_of_ne anchored apart isIndex isActive

/-! ### What pushed frames change -/

theorem captures_of_record (same : other.record = store.record) :
    other.captures = store.captures := by
  rw [← other.captures_record, same, captures_record]

@[simp] theorem captures_outline (store : Store) : store.outline.captures = store.captures := by
  funext group
  rw [captures, resolveBounds_outline, boundsOf_outline, captures]

/-- A group without a register is never written. -/
theorem setGroup_of_outside {group : Nat} (outside : ¬ group < store.registers.groups.size)
    (bounds : Bounds) : store.setGroup group bounds = store := by
  simp only [setGroup, Registers.setGroup,
    Array.setIfInBounds_eq_of_size_le (Nat.not_lt.1 outside)]

theorem size_groups_onStore (store : Store) (effect : Effect) :
    (effect.onStore store).registers.groups.size = store.registers.groups.size := by
  have sizes := congrArg (fun registers => registers.groups.size)
    (Move.reset_onStore store (.perform effect))
  simpa [Move.onStore, Registers.reset, Registers.blank] using sizes

end Store

namespace Effect

variable {store : Store} {effect : Effect}

/-- Frames that are pushed for choices, brackets and repeats change no captures. -/
theorem captures_onStore (grounded : store.Grounded) {frame : Frame}
    (pushes : effect.outline = .push frame) : (effect.onStore store).captures = store.captures := by
  have grounded' : store.outline.Grounded := by
    intro group index refers
    rw [Store.depth_outline]
    exact grounded group index refers
  rw [← Store.captures_outline, outline_onStore, pushes, onStore, Store.captures_push grounded',
    Store.captures_outline]

/-- Who looks for groups finds what an effect pushes on top of what was there. -/
theorem seekInstance_onStore (room : effect.needsRoom = true) :
    ∃ frame, effect.frame? store = some frame ∧ ∀ groups wanted start,
      (effect.onStore store).stack.seek (visitInstance groups wanted) start =
        (store.stack.push frame).seek (visitInstance groups wanted) start := by
  cases effect with
  | countInEntry index =>
      refine ⟨_, rfl, fun groups wanted start => ?_⟩
      have pushed : (store.countInEntry index).stack =
          (store.stack.setEntryCount index
            (nextIteration ((store.stack.entry? index).elim 0 Prod.fst))).push
              (.entryCount index ((store.stack.entry? index).elim 0 Prod.fst)) := by
        unfold Store.countInEntry
        cases store.stack.entry? index <;> rfl
      rw [onStore, pushed]
      refine Stack.seekInstance_push _ _ _ _ rfl fun start => ?_
      exact Stack.seekInstance_setEntryCount _ _ _ _ _ _
  | push frame | openGroup group position | closeGroup group position | clearGroup group
  | enterRepeat id body | countInRegister id => exact ⟨_, rfl, fun _ _ _ => rfl⟩
  | note event | setGroup group bounds | discard | commit mark | unwindTo mark => cases room

/-- What an effect pushes is on top of what was there, but for where bodies start. -/
theorem exists_push {program : Program} (regular : effect.Regular program)
    (undone : effect.IsUndone) (room : effect.needsRoom = true) :
    ∃ (below : Store) (top : Frame), effect.onStore store = below.push top ∧
      effect.frame? store = some top ∧
      (below.restore top).forgetBodies = store.forgetBodies := by
  have depth := effect.depth_onStore store
  rw [if_pos room] at depth
  have rewound := forgetBodies_rewind_onStore undone (Nat.le_refl store.depth)
    (depth ▸ Nat.le_succ _)
  have top_read := fun found => @Store.get?_onStore store store.depth found program effect regular
  generalize effect.onStore store = pushed at depth rewound top_read
  induction pushed using Store.push_induction with
  | empty registers => cases depth
  | push below top _ =>
      have deep : below.depth = store.depth := by
        rw [Store.depth_push] at depth
        exact Nat.succ.inj depth
      refine ⟨below, top, rfl, ?_, ?_⟩
      · rcases top_read top (deep ▸ below.stack.get?_depth_push top) with ⟨_, read, _⟩ | ⟨_, same⟩
        · exact absurd (Stack.lt_depth_of_get? read) (Nat.lt_irrefl _)
        · exact same
      · have restored : (below.push top).rewind store.depth = below.restore top := by
          rw [← deep, below.rewind_push top (Nat.le_refl _)]
          have whole := (below.restore top).rewind_depth
          rwa [Store.depth_restore] at whole
        rw [restored, Store.rewind_depth] at rewound
        exact rewound

end Effect

/-! ### Stores that resemble each other -/

/-- Whether two stores look the same to all instructions but those of one repeat, and those that
close brackets. -/
structure Store.Resembles (id : Nat) (left right : Store) : Prop where
  groupSlots : left.registers.groups.size = right.registers.groups.size
  repeatSlots : left.registers.repeats.size = right.registers.repeats.size
  captures : left.captures = right.captures
  repeats : ∀ other, other ≠ id → left.standing? other = right.standing? other
  spans : ∀ groups wanted start, left.stack.seek (visitInstance groups wanted) start =
    right.stack.seek (visitInstance groups wanted) start

/-- Effects that do the same in two stores, and have nothing to do with one repeat. -/
inductive Effect.Matches (id : Nat) (left right : Store) : Effect → Effect → Prop
  | push {frame : Frame} (nothing : frame.savesNothing = true) :
      Matches id left right (.push frame) (.push frame)
  | openGroup {group position : Nat} :
      Matches id left right (.openGroup group position) (.openGroup group position)
  | closeGroup {group position : Nat} :
      Matches id left right (.closeGroup group position) (.closeGroup group position)
  | clearGroup {group : Nat} : Matches id left right (.clearGroup group) (.clearGroup group)
  | enterRepeat {other body : Nat} (apart : other ≠ id) :
      Matches id left right (.enterRepeat other body) (.enterRepeat other body)
  | count {other : Nat} {direct : Bool} {record record' : Effect} {standing : (Nat × Nat) × Nat}
      (apart : other ≠ id) (stands : left.standing? other = some standing)
      (counts : left.counting? other direct = some record)
      (counts' : right.counting? other direct = some record') :
      Matches id left right record record'

namespace Effect.Matches

variable {id : Nat} {left right : Store} {effect effect' : Effect}

theorem symm (resembles : left.Resembles id right)
    (isMatch : effect.Matches id left right effect') :
    effect'.Matches id right left effect := by
  cases isMatch with
  | push nothing => exact .push nothing
  | openGroup => exact .openGroup
  | closeGroup => exact .closeGroup
  | clearGroup => exact .clearGroup
  | enterRepeat apart => exact .enterRepeat apart
  | count apart stands counts counts' =>
      exact .count apart ((resembles.repeats _ apart).symm.trans stands) counts' counts

theorem undone (isMatch : effect.Matches id left right effect') :
    effect.IsUndone ∧ effect.needsRoom = true := by
  cases isMatch with
  | push nothing => exact ⟨nothing, rfl⟩
  | @count other direct _ _ _ _ _ counts counts' =>
      cases direct with
      | true =>
          cases counts
          exact ⟨trivial, rfl⟩
      | false =>
          obtain ⟨index, _, rfl⟩ := Option.map_eq_some_iff.1 counts
          exact ⟨trivial, rfl⟩
  | _ => exact ⟨trivial, rfl⟩

/-- Matching effects push frames that show the same. -/
theorem shape (isMatch : effect.Matches id left right effect') :
    (effect.frame? left).map Frame.shape = (effect'.frame? right).map Frame.shape := by
  cases isMatch with
  | @count other direct _ _ _ _ _ counts counts' =>
      cases direct with
      | true =>
          cases counts
          cases counts'
          rfl
      | false =>
          obtain ⟨index, _, rfl⟩ := Option.map_eq_some_iff.1 counts
          obtain ⟨index', _, rfl⟩ := Option.map_eq_some_iff.1 counts'
          rfl
  | _ => rfl

end Effect.Matches

namespace Store.Resembles

variable {program : Program} {id : Nat} {direct : Bool} {left right third : Store}

theorem refl (store : Store) : store.Resembles id store :=
  ⟨rfl, rfl, rfl, fun _ _ => rfl, fun _ _ _ => rfl⟩

theorem symm (resembles : left.Resembles id right) : right.Resembles id left where
  groupSlots := resembles.groupSlots.symm
  repeatSlots := resembles.repeatSlots.symm
  captures := resembles.captures.symm
  repeats := fun other apart => (resembles.repeats other apart).symm
  spans := fun groups wanted start => (resembles.spans groups wanted start).symm

theorem trans (resembles : left.Resembles id right) (resembles' : right.Resembles id third) :
    left.Resembles id third where
  groupSlots := resembles.groupSlots.trans resembles'.groupSlots
  repeatSlots := resembles.repeatSlots.trans resembles'.repeatSlots
  captures := resembles.captures.trans resembles'.captures
  repeats := fun other apart =>
    (resembles.repeats other apart).trans (resembles'.repeats other apart)
  spans := fun groups wanted start =>
    (resembles.spans groups wanted start).trans (resembles'.spans groups wanted start)

/-- Where bodies start is not seen. -/
theorem of_forgetBodies (same : left.forgetBodies = right.forgetBodies) :
    left.Resembles id right where
  groupSlots := congrArg (fun store => store.registers.groups.size) same
  repeatSlots := by
    have sizes := congrArg (fun store => store.registers.repeats.size) same
    simpa [forgetBodies] using sizes
  captures := captures_of_record (record_congr same)
  repeats := fun _ _ => standing?_of_record (record_congr same)
  spans := by
    have stack : left.stack = right.stack := congrArg (fun store => store.stack) same
    intro groups wanted start
    rw [stack]

/-- Whether choices are given up is not seen. -/
theorem commit (store : Store) {mark : Mark} (noCall : mark ≠ .call) :
    (store.commit mark).2.Resembles id store := by
  have same : (store.commit mark).2.record = store.record := by
    simp only [record, Store.commit, Stack.record_commit]
  exact ⟨rfl, rfl, captures_of_record same, fun _ _ => standing?_of_record same,
    fun groups wanted start => store.stack.seekInstance_commit groups wanted start noCall⟩

/-- What the instructions of a repeat and its choices push is not seen by others. -/
theorem onStore_own {store : Store} (orderly : store.Orderly program) {effect : Effect}
    {frame : Frame} (pushes : effect.outline = .push frame) (room : effect.needsRoom = true)
    (unseen : ∀ groups wanted state pushed, effect.frame? store = some pushed →
      visitInstance groups wanted pushed state = .ok state)
    (repeats : ∀ other, other ≠ id →
      (effect.onStore store).standing? other = store.standing? other) :
    (effect.onStore store).Resembles id store where
  groupSlots := store.size_groups_onStore effect
  repeatSlots := store.size_repeats_onStore (.perform effect)
  captures := Effect.captures_onStore orderly.grounded pushes
  repeats := repeats
  spans := by
    obtain ⟨pushed, isPushed, seeks⟩ := @Effect.seekInstance_onStore store effect room
    intro groups wanted start
    rw [seeks, Stack.seek_push, unseen groups wanted start pushed isPushed]

section

variable (resembles : left.Resembles id right) (orderly : left.Orderly program)
  (orderly' : right.Orderly program)

include resembles orderly orderly'

/-- Groups that are written in the same way lie in the same places. -/
theorem captures_onStore {effect effect' : Effect}
    (isMatch : effect.Matches id left right effect') :
    (effect.onStore left).captures = (effect'.onStore right).captures := by
  have sameSize := resembles.groupSlots
  have captures := resembles.captures
  have pushed : ∀ {frame frame'}, effect.outline = .push frame → effect'.outline = .push frame' →
      (effect.onStore left).captures = (effect'.onStore right).captures := by
    intro frame frame' outline outline'
    rw [Effect.captures_onStore orderly.grounded outline,
      Effect.captures_onStore orderly'.grounded outline', captures]
  -- A group is written in both stores or in none.
  have written : ∀ (group : Nat) (top top' : Frame) (bounds bounds' : Bounds),
      (¬ group < left.registers.groups.size →
        ((left.push top).setGroup group bounds).captures =
          ((right.push top').setGroup group bounds').captures) := by
    intro group top top' bounds bounds' outside
    have outside' : ¬ group < right.registers.groups.size := by rwa [← sameSize]
    rw [@setGroup_of_outside (left.push top) _ outside,
      @setGroup_of_outside (right.push top') _ outside', captures_push orderly.grounded,
      captures_push orderly'.grounded, captures]
  cases isMatch with
  | push nothing | enterRepeat apart => exact pushed rfl rfl
  | openGroup =>
      next group position =>
        by_cases inside : group < left.registers.groups.size
        · rw [Effect.onStore, captures_openGroup orderly.grounded position inside, Effect.onStore,
            captures_openGroup orderly'.grounded position (sameSize ▸ inside), captures]
        · exact written group _ _ _ _ inside
  | closeGroup =>
      next group position =>
        by_cases inside : group < left.registers.groups.size
        · rw [Effect.onStore, captures_closeGroup orderly.grounded position inside, Effect.onStore,
            captures_closeGroup orderly'.grounded position (sameSize ▸ inside), captures]
        · exact written group _ _ _ _ inside
  | clearGroup =>
      next group =>
        by_cases inside : group < left.registers.groups.size
        · have cleared : ∀ {store : Store}, store.Orderly program →
              group < store.registers.groups.size → (store.clearGroup group).captures =
                Function.update store.captures group (none, none) := by
            intro store orderly inside
            unfold clearGroup
            dsimp only
            rw [captures_setGroup (store.push _) _ inside, captures_push orderly.grounded]
            rfl
          rw [Effect.onStore, cleared orderly inside, Effect.onStore,
            cleared orderly' (sameSize ▸ inside), captures]
        · exact written group _ _ _ _ inside
  | @count other direct record record' standing apart stands counts counts' =>
      cases direct with
      | true =>
          cases counts
          cases counts'
          exact pushed rfl rfl
      | false =>
          obtain ⟨index, _, rfl⟩ := Option.map_eq_some_iff.1 counts
          obtain ⟨index', _, rfl⟩ := Option.map_eq_some_iff.1 counts'
          exact pushed rfl rfl

/-- Repeats that come on in the same way have come as far. -/
theorem standing_onStore {effect effect' : Effect} (isMatch : effect.Matches id left right effect')
    {other : Nat} (apart : other ≠ id) :
    (effect.onStore left).standing? other = (effect'.onStore right).standing? other := by
  have same := resembles.repeats other apart
  have pushed : ∀ {left' right' : Store} {top top' : Frame}, left'.stack = left.stack.push top →
      right'.stack = right.stack.push top' →
        left'.registers.repeatOf other = left.registers.repeatOf other →
          right'.registers.repeatOf other = right.registers.repeatOf other →
            left'.standing? other = right'.standing? other := by
    intro left' right' top top' stack stack' register register'
    rw [standing?_of_push orderly.anchored stack register,
      standing?_of_push orderly'.anchored stack' register', same]
  cases isMatch with
  | push nothing | openGroup | closeGroup | clearGroup => exact pushed rfl rfl rfl rfl
  | @enterRepeat entered body _ =>
      by_cases own : entered = other
      · subst own
        by_cases known : entered < left.registers.repeats.size
        · rw [Effect.onStore, standing?_enterRepeat known, Effect.onStore,
            standing?_enterRepeat (resembles.repeatSlots ▸ known)]
        · have unknown := Nat.not_lt.1 known
          have inactive := active_enterRepeat_of_unknown unknown body
          have inactive' := active_enterRepeat_of_unknown (resembles.repeatSlots ▸ unknown) body
          rw [Effect.onStore, standing?_of_inactive inactive, Effect.onStore,
            standing?_of_inactive inactive']
      · exact pushed rfl rfl (repeatOf_setRepeat_of_ne _ own) (repeatOf_setRepeat_of_ne _ own)
  | @count counted direct record record' standing apart' stands counts counts' =>
      by_cases own : counted = other
      · subst own
        rw [standing?_counting stands counts, standing?_counting (same ▸ stands) counts']
      · rw [standing?_counting_of_ne orderly.anchored own counts,
          standing?_counting_of_ne orderly'.anchored own counts', same]

/-- Stores still resemble each other behind effects that do the same. -/
theorem onStore {effect effect' : Effect} (isMatch : effect.Matches id left right effect') :
    (effect.onStore left).Resembles id (effect'.onStore right) where
  groupSlots := by
    rw [size_groups_onStore, size_groups_onStore]
    exact resembles.groupSlots
  repeatSlots := by
    have slots := left.size_repeats_onStore (.perform effect)
    have slots' := right.size_repeats_onStore (.perform effect')
    exact slots.trans (resembles.repeatSlots.trans slots'.symm)
  captures := resembles.captures_onStore orderly orderly' isMatch
  repeats := fun other apart => resembles.standing_onStore orderly orderly' isMatch apart
  spans := by
    obtain ⟨top, isTop, seeks⟩ := @Effect.seekInstance_onStore left effect isMatch.undone.2
    obtain ⟨top', isTop', seeks'⟩ :=
      @Effect.seekInstance_onStore right effect' (isMatch.symm resembles).undone.2
    have shape := isMatch.shape
    rw [isTop, isTop'] at shape
    intro groups wanted start
    rw [seeks, seeks']
    exact Stack.seekInstance_push _ _ _ _ (Option.some.inj shape) fun start =>
      resembles.spans groups wanted start

end

end Store.Resembles

end PatternMachine
