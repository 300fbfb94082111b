import PatternMachine.Search.BackReference

/-!
# Instances of groups

Every instance of a group that is still on the current path has left its opening and its closing on
the stack, those of calls among those of their callers.  At one call level they are like
parentheses, with a kind for each group: a closing belongs to the last opening of its group that is
open.  A reference to a level looks down the stack and remembers one end only.  What it finds is the
instance that was closed last, as long as no other instance of its groups lies inside of that
(`BackReference.level_reference_repeats_latest_instance`).
-/

namespace PatternMachine

/-- A group was opened or closed at a position. -/
inductive GroupEvent where
  | opening (group position : Nat)
  | closing (group position : Nat)
  deriving DecidableEq, Repr

/-- The group that was opened or closed. -/
def GroupEvent.group : GroupEvent → Nat
  | .opening group _ | .closing group _ => group

/-- The opening or closing that a frame stands for.  A group that was cleared was neither. -/
def Frame.groupEvent? : Frame → Option GroupEvent
  | .groupStart group (some position) _ => some (.opening group position)
  | .groupEnd group (some position) _ => some (.closing group position)
  | _ => none

/-- The call level below a frame, if it is `level` above. -/
def Frame.levelBelow (level : Int) : Frame → Int
  | .call _ => level - 1
  | .returned => level + 1
  | _ => level

namespace Stack

/-- The openings and closings at a call level among frames, the latest first.  The level of the
first frame is `level`. -/
def eventsFrom (wanted : Int) : (level : Int) → List Frame → List GroupEvent
  | _, [] => []
  | level, frame :: earlier =>
      (if level = wanted then frame.groupEvent?.toList else []) ++
        eventsFrom wanted (frame.levelBelow level) earlier

/-- The openings and closings at a call level, relative to that of the top, the latest first. -/
def eventsAt (stack : Stack) (wanted : Int) : List GroupEvent :=
  eventsFrom wanted 0 stack.frames.toList.reverse

end Stack

/-! ### Closed instances -/

/-- A group from its opening to its closing. -/
structure Instance where
  group : Nat
  first : Nat
  last : Nat
  /-- What was opened and closed inside, the latest first. -/
  inside : List GroupEvent
  deriving DecidableEq, Repr

namespace Instance

/-- The last opening of a group that is open, where a number of openings belong to later closings:
its position, and what came behind it.  Events are given with the latest first. -/
def opening? (group : Nat) : (closed : Nat) → List GroupEvent → Option (Nat × List GroupEvent)
  | _, [] => none
  | closed, event :: earlier =>
      let passing (closed : Nat) : Option (Nat × List GroupEvent) :=
        (opening? group closed earlier).map fun (first, inside) => (first, event :: inside)
      if event.group = group then
        match event, closed with
        | .opening _ position, 0 => some (position, [])
        | .opening .., closed + 1 => passing closed
        | .closing .., closed => passing (closed + 1)
      else
        passing closed

/-- The instances that events have closed, the one that was closed last first. -/
def ofEvents : List GroupEvent → List Instance
  | [] => []
  | .opening .. :: earlier => ofEvents earlier
  | .closing group position :: earlier =>
      ((opening? group 0 earlier).map fun (first, inside) =>
        (⟨group, first, position, inside⟩ : Instance)).toList ++ ofEvents earlier

/-- Whether every closing closes an opening of its group. -/
def Nested : List GroupEvent → Prop
  | [] => True
  | .opening .. :: earlier => Nested earlier
  | .closing group _ :: earlier => (opening? group 0 earlier).isSome ∧ Nested earlier

instance decidableNested : (events : List GroupEvent) → Decidable (Nested events)
  | [] => isTrue trivial
  | .opening .. :: earlier => decidableNested earlier
  | .closing .. :: earlier => @instDecidableAnd _ _ _ (decidableNested earlier)

/-- The instance of one of several groups that was closed last. -/
def latest? (groups : List Nat) (events : List GroupEvent) : Option Instance :=
  (ofEvents events).find? fun closed => groups.contains closed.group

/-- Whether none of several groups was opened or closed inside of an instance. -/
def Alone (groups : List Nat) (closed : Instance) : Prop :=
  ∀ event ∈ closed.inside, event.group ∉ groups

instance (groups : List Nat) (closed : Instance) : Decidable (closed.Alone groups) :=
  inferInstanceAs (Decidable (∀ event ∈ closed.inside, event.group ∉ groups))

end Instance

/-! ### Looking down -/

namespace Stack

/-- The search for an instance, among the openings and closings of a level: the end that was passed
last is taken with the first start behind it. -/
def innermost? (groups : List Nat) : (stop : Option Nat) → List GroupEvent → Option (Nat × Nat)
  | _, [] => none
  | stop, event :: earlier =>
      if event.group ∈ groups then
        match event, stop with
        | .opening _ position, some last => some (position, last)
        | .opening .., none => innermost? groups none earlier
        | .closing _ position, _ => innermost? groups (some position) earlier
      else
        innermost? groups stop earlier

section

variable {groups : List Nat} {event : GroupEvent} {earlier : List GroupEvent} {stop : Option Nat}
  {group position : Nat}

/-- What is not searched for is passed. -/
theorem innermost?_of_not_mem (unlisted : event.group ∉ groups) :
    innermost? groups stop (event :: earlier) = innermost? groups stop earlier := by
  simp only [innermost?, unlisted, if_false]

theorem innermost?_opening (listed : group ∈ groups) {last : Nat} :
    innermost? groups (some last) (.opening group position :: earlier) =
      some (position, last) := by
  simp only [innermost?, GroupEvent.group, listed, if_true]

/-- A start is passed if no end was. -/
theorem innermost?_opening_none :
    innermost? groups none (.opening group position :: earlier) =
      innermost? groups none earlier := by
  simp only [innermost?, ite_self]

theorem innermost?_closing (listed : group ∈ groups) :
    innermost? groups stop (.closing group position :: earlier) =
      innermost? groups (some position) earlier := by
  simp only [innermost?, GroupEvent.group, listed, if_true]

/-- The search finds something behind an end if there is a start. -/
theorem isSome_innermost? {events : List GroupEvent} (opened : .opening group position ∈ events)
    (listed : group ∈ groups) (last : Nat) :
    (innermost? groups (some last) events).isSome = true := by
  induction events generalizing last with
  | nil => cases opened
  | cons event earlier ih =>
      by_cases eventListed : event.group ∈ groups
      · cases event with
        | opening other position =>
            rw [innermost?_opening (show other ∈ groups from eventListed)]
            rfl
        | closing other position =>
            rw [innermost?_closing (show other ∈ groups from eventListed)]
            refine ih ((List.mem_cons.1 opened).resolve_left ?_) position
            exact GroupEvent.noConfusion
      · rw [innermost?_of_not_mem eventListed]
        refine ih ((List.mem_cons.1 opened).resolve_left ?_) last
        rintro rfl
        exact eventListed listed

end

variable (groups : List Nat)

theorem eventsFrom_push (stack : Stack) (frame : Frame) (wanted level : Int) :
    eventsFrom wanted level (stack.push frame).frames.toList.reverse =
      (if level = wanted then frame.groupEvent?.toList else []) ++
        eventsFrom wanted (frame.levelBelow level) stack.frames.toList.reverse := by
  rw [push, Array.toList_push, List.reverse_append]
  rfl

/-- To visit a frame is to pass its event, if it has one at the level. -/
theorem visitInstance_eq (wanted level : Int) (stop : Option Nat) (frame : Frame)
    (earlier : List GroupEvent) :
    innermost? groups stop
        ((if level = wanted then frame.groupEvent?.toList else []) ++ earlier) =
      match visitInstance groups wanted frame (level, stop) with
      | .error found => some found
      | .ok (_, stop) => innermost? groups stop earlier := by
  by_cases atLevel : level = wanted
  · cases frame with
    | groupStart group position saved =>
        by_cases listed : group ∈ groups <;> cases position <;> cases stop <;>
          simp [innermost?, visitInstance, Frame.groupEvent?, GroupEvent.group, atLevel, listed]
    | groupEnd group position saved =>
        by_cases listed : group ∈ groups <;> cases position <;>
          simp [innermost?, visitInstance, Frame.groupEvent?, GroupEvent.group, atLevel, listed]
    | _ => simp [visitInstance, Frame.groupEvent?]
  · have elsewhere : (level == wanted) = false := beq_eq_false_iff_ne.2 atLevel
    rw [if_neg atLevel, List.nil_append]
    cases frame with
    | groupStart group position saved =>
        cases position <;> cases stop <;> simp [visitInstance, elsewhere]
    | groupEnd group position saved => cases position <;> simp [visitInstance, elsewhere]
    | _ => rfl

theorem level_of_visitInstance {wanted level : Int} {stop : Option Nat} {frame : Frame}
    {next : Int × Option Nat}
    (visited : visitInstance groups wanted frame (level, stop) = .ok next) :
    next.1 = frame.levelBelow level := by
  cases frame with
  | groupStart group position saved =>
      cases position <;> cases stop <;> simp only [visitInstance] at visited
      case some.some =>
        split at visited
        · cases visited
        · cases visited
          rfl
      all_goals
        cases visited
        rfl
  | groupEnd group position saved =>
      cases position <;>
      · cases visited
        rfl
  | _ =>
      cases visited
      rfl

/-- To look down the stack for an instance is to look through the openings and closings of a
level. -/
theorem seek_visitInstance (stack : Stack) (wanted level : Int) (stop : Option Nat) :
    stack.seek (visitInstance groups wanted) (level, stop) =
      innermost? groups stop (eventsFrom wanted level stack.frames.toList.reverse) := by
  induction stack using push_induction generalizing level stop with
  | empty => rfl
  | push stack frame ih =>
      rw [seek_push, eventsFrom_push, visitInstance_eq]
      cases visited : visitInstance groups wanted frame (level, stop) with
      | error found => rfl
      | ok next =>
          rw [← level_of_visitInstance groups visited]
          exact ih next.1 next.2

theorem spanAtLevel?_eq (stack : Stack) (wanted : Int) :
    stack.spanAtLevel? groups wanted = innermost? groups none (stack.eventsAt wanted) :=
  stack.seek_visitInstance groups wanted 0 none

end Stack

namespace Instance

open Stack

variable {groups : List Nat} {events earlier inside : List GroupEvent} {event : GroupEvent}
  {group first last closed : Nat}

/-! ### The opening of a closing -/

/-- An event of another group is passed. -/
theorem opening?_of_ne (apart : event.group ≠ group) :
    opening? group closed (event :: earlier) =
      (opening? group closed earlier).map fun (first, inside) => (first, event :: inside) := by
  simp only [opening?, apart, if_false]

theorem opening?_opening (position : Nat) :
    opening? group 0 (.opening group position :: earlier) = some (position, []) := by
  simp only [opening?, GroupEvent.group, if_true]

/-- An opening of the group belongs to the first closing that was passed, if there was one. -/
theorem opening?_opening_succ (position : Nat) :
    opening? group (closed + 1) (.opening group position :: earlier) =
      (opening? group closed earlier).map
        fun (first, inside) => (first, .opening group position :: inside) := by
  simp only [opening?, GroupEvent.group, if_true]

theorem opening?_closing (position : Nat) :
    opening? group closed (.closing group position :: earlier) =
      (opening? group (closed + 1) earlier).map
        fun (first, inside) => (first, .closing group position :: inside) := by
  simp only [opening?, GroupEvent.group, if_true]

theorem mem_of_opening? (found : opening? group closed events = some (first, inside)) :
    .opening group first ∈ events := by
  induction events generalizing closed inside with
  | nil => cases found
  | cons event earlier ih =>
      have passed : ∀ closed, (opening? group closed earlier).map
          (fun (first, inside) => (first, event :: inside)) = some (first, inside) →
          .opening group first ∈ event :: earlier := by
        intro closed found
        obtain ⟨⟨_, _⟩, opened, same⟩ := Option.map_eq_some_iff.1 found
        cases same
        exact List.mem_cons_of_mem _ (ih opened)
      by_cases own : event.group = group
      · cases event with
        | opening other position =>
            obtain rfl : other = group := own
            cases closed with
            | zero =>
                rw [opening?_opening] at found
                cases found
                exact List.mem_cons_self
            | succ closed =>
                rw [opening?_opening_succ] at found
                exact passed _ found
        | closing other position =>
            obtain rfl : other = group := own
            rw [opening?_closing] at found
            exact passed _ found
      · rw [opening?_of_ne own] at found
        exact passed _ found

/-- Behind the end of an instance without others inside the search finds its start. -/
theorem innermost?_of_alone (opened : opening? group 0 events = some (first, inside))
    (listed : group ∈ groups) (alone : ∀ event ∈ inside, event.group ∉ groups) (last : Nat) :
    innermost? groups (some last) events = some (first, last) := by
  induction events generalizing inside with
  | nil => cases opened
  | cons event earlier ih =>
      by_cases own : event.group = group
      · cases event with
        | opening other position =>
            obtain rfl : other = group := own
            rw [opening?_opening] at opened
            cases opened
            exact innermost?_opening listed
        | closing other position =>
            obtain rfl : other = group := own
            rw [opening?_closing] at opened
            obtain ⟨⟨_, _⟩, _, same⟩ := Option.map_eq_some_iff.1 opened
            cases same
            exact absurd listed (alone _ List.mem_cons_self)
      · rw [opening?_of_ne own] at opened
        obtain ⟨⟨_, _⟩, found, same⟩ := Option.map_eq_some_iff.1 opened
        cases same
        rw [innermost?_of_not_mem (alone event List.mem_cons_self)]
        exact ih found fun other mem => alone other (List.mem_cons_of_mem event mem)

/-! ### The instance that was closed last -/

theorem latest?_opening (group position : Nat) (earlier : List GroupEvent) :
    latest? groups (.opening group position :: earlier) = latest? groups earlier := rfl

theorem latest?_closing_of_mem (opened : opening? group 0 earlier = some (first, inside))
    (listed : group ∈ groups) (last : Nat) :
    latest? groups (.closing group last :: earlier) = some ⟨group, first, last, inside⟩ := by
  rw [latest?, ofEvents, opened]
  exact List.find?_cons_of_pos (List.contains_iff_mem.2 listed)

theorem latest?_closing_of_not_mem (unlisted : group ∉ groups) (last : Nat) :
    latest? groups (.closing group last :: earlier) = latest? groups earlier := by
  rw [latest?, ofEvents]
  cases opening? group 0 earlier with
  | none => rfl
  | some opened =>
      exact List.find?_cons_of_neg (fun contained => unlisted (List.contains_iff_mem.1 contained))

/-- The search finds an instance if one was closed, and the one that was closed last if no other is
inside. -/
theorem innermost?_of_nested (nested : Nested events) :
    (innermost? groups none events = none ↔ latest? groups events = none) ∧
      ∀ closed, latest? groups events = some closed → closed.Alone groups →
        innermost? groups none events = some (closed.first, closed.last) := by
  induction events with
  | nil => exact ⟨iff_of_true rfl rfl, nofun⟩
  | cons event earlier ih =>
      cases event with
      | opening group position =>
          rw [innermost?_opening_none, latest?_opening]
          exact ih nested
      | closing group position =>
          obtain ⟨opens, nested⟩ := nested
          obtain ⟨⟨first, inside⟩, opened⟩ := Option.isSome_iff_exists.1 opens
          by_cases listed : group ∈ groups
          · rw [innermost?_closing listed, latest?_closing_of_mem opened listed]
            refine ⟨iff_of_false ?_ (Option.some_ne_none _), ?_⟩
            · exact Option.isSome_iff_ne_none.1
                (isSome_innermost? (mem_of_opening? opened) listed position)
            · rintro _ ⟨⟩ alone
              exact innermost?_of_alone opened listed alone position
          · rw [innermost?_of_not_mem listed, latest?_closing_of_not_mem listed]
            exact ih nested

end Instance

/-- On every stack on which, at a call level, each closing of a group belongs to an opening of the
group, and for all groups: a reference to that level finds an instance if one of the groups was
closed there.  If none of the groups was opened or closed inside of the instance that was closed
last, the reference finds this one, and consumes a repetition of what lies from its start to its
end, or fails for want of one. -/
theorem BackReference.level_reference_repeats_latest_instance (store : Store) (groups : List Nat)
    (level : Int) (nested : Instance.Nested (store.stack.eventsAt level)) :
    let latest := Instance.latest? groups (store.stack.eventsAt level)
    (store.stack.spanAtLevel? groups level = none ↔ latest = none) ∧
      ((∀ closed ∈ latest, closed.Alone groups) →
        store.stack.spanAtLevel? groups level =
            latest.map (fun closed => (closed.first, closed.last)) ∧
          ∀ (attempt : Attempt) (position : Nat) (folded : Bool),
            (∀ group ∈ groups, attempt.program.hasGroup group = true) →
            (BackReference.atLevel folded level groups).repeat? attempt store position =
              .ok (latest.bind fun closed =>
                attempt.matchCaptured? closed.first closed.last position folded)) := by
  intro latest
  obtain ⟨none_iff, found⟩ := @Instance.innermost?_of_nested groups _ nested
  rw [← Stack.spanAtLevel?_eq] at none_iff found
  refine ⟨none_iff, fun alone => ?_⟩
  have span : store.stack.spanAtLevel? groups level =
      latest.map (fun closed => (closed.first, closed.last)) := by
    cases isLatest : latest with
    | none => exact none_iff.2 isLatest
    | some closed => exact found closed isLatest (alone closed isLatest)
  refine ⟨span, fun attempt position folded known => ?_⟩
  have noUnknown : groups.find? (fun group => !attempt.program.hasGroup group) = none :=
    List.find?_eq_none.2 fun group mem => by rw [known group mem]; exact Bool.noConfusion
  rw [repeat?, Attempt.repeatAtLevel?, noUnknown, span]
  cases latest <;> rfl

/-- Group 2 was closed twice in a call that is answered, with group 1 inside, and then cleared. -/
theorem BackReference.level_reference_repeats_latest_instance_of_answered_call :
    let attempt : Attempt :=
      { program :=
          { code := #[], templates := #[], classes := #[], repeatRanges := #[], groupCount := 2
            emptyCheckCount := 0, loggedStarts := .empty, loggedEnds := .empty, options := .none
            encoding := .utf8 }
        options := .none, input := .whole "abcbc".toUTF8 }
    let store : Store :=
      { stack := ⟨#[.call 7, .groupStart 2 (some 0) .unset, .groupEnd 2 (some 1) .unset,
          .groupStart 2 (some 1) .unset, .groupStart 1 (some 1) .unset, .groupEnd 1 (some 2) .unset,
          .groupEnd 2 (some 3) .unset, .returned, .groupStart 2 none .unset]⟩
        registers := .blank 3 0 }
    Instance.Nested (store.stack.eventsAt 1) ∧
      Instance.latest? [2] (store.stack.eventsAt 1) =
        some ⟨2, 1, 3, [.closing 1 2, .opening 1 1]⟩ ∧
      store.stack.spanAtLevel? [2] 1 = some (1, 3) ∧
      (BackReference.atLevel false 1 [2]).repeat? attempt store 3 = .ok (some 5) := by
  intro attempt store
  have nested : Instance.Nested (store.stack.eventsAt 1) := by decide
  have isLatest : Instance.latest? [2] (store.stack.eventsAt 1) =
      some ⟨2, 1, 3, [.closing 1 2, .opening 1 1]⟩ := by decide
  obtain ⟨-, found⟩ := level_reference_repeats_latest_instance store [2] 1 nested
  obtain ⟨span, repeats⟩ := found (by decide)
  refine ⟨nested, isLatest, span.trans (by rw [isLatest]; rfl), ?_⟩
  have stop : attempt.matchCaptured? 1 3 3 false = some 5 := by decide +kernel
  rw [repeats attempt 3 false (by decide), isLatest]
  exact congrArg Except.ok stop

/-- Group 2 was closed inside of group 1, which was closed last.  A reference that names both
repeats group 2. -/
theorem BackReference.level_reference_prefers_inner_instances :
    let attempt : Attempt :=
      { program :=
          { code := #[], templates := #[], classes := #[], repeatRanges := #[], groupCount := 2
            emptyCheckCount := 0, loggedStarts := .empty, loggedEnds := .empty, options := .none
            encoding := .utf8 }
        options := .none, input := .whole "abab".toUTF8 }
    let store : Store :=
      { stack := ⟨#[.groupStart 1 (some 0) .unset, .groupStart 2 (some 0) .unset,
          .groupEnd 2 (some 1) .unset, .groupEnd 1 (some 2) .unset]⟩
        registers := .blank 3 0 }
    Instance.Nested (store.stack.eventsAt 0) ∧
      Instance.latest? [1, 2] (store.stack.eventsAt 0) =
        some ⟨1, 0, 2, [.closing 2 1, .opening 2 0]⟩ ∧
      attempt.matchCaptured? 0 2 2 false = some 4 ∧
      store.stack.spanAtLevel? [1, 2] 0 = some (0, 1) ∧
      (BackReference.atLevel false 0 [1, 2]).repeat? attempt store 2 = .ok (some 3) := by
  intro attempt store
  have span : store.stack.spanAtLevel? [1, 2] 0 = some (0, 1) := by decide +kernel
  have stop : attempt.matchCaptured? 0 1 2 false = some 3 := by decide +kernel
  refine ⟨by decide, by decide, by decide +kernel, span, ?_⟩
  have known : [1, 2].find? (fun group => !attempt.program.hasGroup group) = none := by decide
  rw [repeat?, Attempt.repeatAtLevel?, known, span]
  exact congrArg Except.ok stop

end PatternMachine
