import PatternMachine.Proofs.Leaving

/-!
# Brackets on a route

A lookahead, an atomic group and an iteration open with a mark on the stack.  The end of a lookahead
or of an atomic group takes its own mark away and those of the iterations inside; the mark of an
iteration outlives the end of the iteration.  So which marks lie on the stack can be read off the
route to where a run has come (`Search.openings_eq`), whatever was tried besides.
-/

namespace PatternMachine

/-! ### Marks on a stack -/

namespace Frame

/-- Whether a frame is the mark of a lookahead, of an atomic group or of an iteration. -/
def isOpening : Frame → Bool
  | .look _ | .atomic | .emptyCheck .. => true
  | _ => false

/-- Where an iteration has started, if a frame is its mark and a given check has started it. -/
def iteration? (id : Nat) : Frame → Option Nat
  | .emptyCheck started position => if started == id then some position else none
  | _ => none

theorem iteration?_eq_some_iff {frame : Frame} {id start : Nat} :
    frame.iteration? id = some start ↔ frame = .emptyCheck id start := by
  cases frame with
  | emptyCheck started position => simp [iteration?]
  | _ => simp [iteration?]

end Frame

/-- What is left of some marks, the latest one first, when the latest bracket of a kind ends: its own
mark is taken away, and so are the iterations that have started inside. -/
def closeLatest (mark : Mark) : List (Frame × Nat) → List (Frame × Nat)
  | [] => []
  | opening :: below =>
      if opening.1.isMark mark then below
      else if opening.1.isMark .emptyCheck then closeLatest mark below
      else opening :: closeLatest mark below

/-- A bracket that has opened inside ends inside. -/
theorem closeLatest_append {mark : Mark} {inside : List (Frame × Nat)}
    (opened : ∃ opening ∈ inside, opening.1.isMark mark = true) (outside : List (Frame × Nat)) :
    closeLatest mark (inside ++ outside) = closeLatest mark inside ++ outside := by
  induction inside with
  | nil => simp at opened
  | cons latest inside ih =>
      rw [List.cons_append, closeLatest, closeLatest]
      by_cases isMark : latest.1.isMark mark = true
      · rw [if_pos isMark, if_pos isMark]
      · obtain ⟨opening, mem, isMark'⟩ := opened
        rcases List.mem_cons.1 mem with rfl | earlier
        · exact absurd isMark' isMark
        · rw [if_neg isMark, if_neg isMark, ih ⟨opening, earlier, isMark'⟩]
          split <;> rfl

theorem closeLatest_subset (mark : Mark) (openings : List (Frame × Nat)) :
    closeLatest mark openings ⊆ openings := by
  induction openings with
  | nil => exact List.Subset.refl _
  | cons latest below ih =>
      rw [closeLatest]
      split
      · exact List.subset_cons_self _ _
      split
      · exact List.subset_cons_of_subset _ ih
      · exact List.cons_subset_cons _ ih

namespace Stack

variable (stack : Stack)

/-- The marks of brackets on a stack with their indices, the latest one first. -/
def openings : List (Frame × Nat) :=
  (stack.frames.toList.zipIdx.filter fun opening => opening.1.isOpening).reverse

theorem openings_push (frame : Frame) :
    (stack.push frame).openings =
      if frame.isOpening then (frame, stack.depth) :: stack.openings else stack.openings := by
  have pushed : (stack.push frame).frames.toList.zipIdx =
      stack.frames.toList.zipIdx ++ [(frame, stack.depth)] := by
    simp [push, depth, List.zipIdx_append]
  simp only [openings, pushed, List.filter_append, List.reverse_append]
  cases opens : frame.isOpening <;> simp [opens]

theorem openings_setEntryCount (index count : Nat) :
    (stack.setEntryCount index count).openings = stack.openings := by
  induction stack using push_induction with
  | empty => rfl
  | push stack frame ih =>
      rw [setEntryCount_push]
      split
      · rw [openings_push, openings_push]
        cases frame <;> rfl
      · rw [openings_push, openings_push, ih, depth_setEntryCount]

/-- Where the latest iteration of a check has started, of those whose marks are on a stack. -/
def latestStart? (id : Nat) : Option Nat :=
  stack.openings.findSome? fun opening => opening.1.iteration? id

theorem latestStart?_push (frame : Frame) (id : Nat) :
    (stack.push frame).latestStart? id = (frame.iteration? id).or (stack.latestStart? id) := by
  rw [latestStart?, openings_push]
  by_cases opens : frame.isOpening = true
  · rw [if_pos opens, List.findSome?_cons]
    cases frame.iteration? id <;> rfl
  · have starts_none : frame.iteration? id = none := by
      cases frame <;> first | rfl | exact absurd rfl opens
    rw [if_neg opens, starts_none]
    rfl

/-- The end of a bracket is the end of the latest one of its kind. -/
theorem openings_commit {mark : Mark} (bracket : mark = .look ∨ mark = .atomic) :
    (stack.commit mark).2.openings = closeLatest mark stack.openings := by
  have other : ∀ frame : Frame, frame.isMark mark = true → frame.isOpening = true := by
    intro frame isMark
    rcases bracket with rfl | rfl <;> cases frame <;> first | rfl | cases isMark
  induction stack using push_induction with
  | empty => rfl
  | push stack frame ih =>
      rw [commit_push, openings_push]
      by_cases isMark : frame.isMark mark = true
      · rw [if_pos isMark, if_pos (other frame isMark), closeLatest, if_pos isMark]
        exact stack.openings_push .void
      · rw [if_neg isMark]
        dsimp only
        rw [openings_push, ih, depth_commit]
        cases frame with
        | look cursor | atomic | emptyCheck id position => exact (if_neg isMark).symm
        | _ => rfl

/-- A mark stands at its index. -/
theorem get?_of_mem_openings {opening : Frame × Nat} (mem : opening ∈ stack.openings) :
    stack.get? opening.2 = some opening.1 := by
  rw [openings, List.mem_reverse, List.mem_filter, List.mem_zipIdx_iff_getElem?] at mem
  rw [get?, ← Array.getElem?_toList]
  exact mem.1

theorem lt_depth_of_mem_openings {opening : Frame × Nat} (mem : opening ∈ stack.openings) :
    opening.2 < stack.depth :=
  lt_depth_of_get? (stack.get?_of_mem_openings mem)

/-- Later marks lie higher. -/
theorem pairwise_openings :
    stack.openings.Pairwise fun later earlier => earlier.2 < later.2 := by
  induction stack using push_induction with
  | empty => exact .nil
  | push stack frame ih =>
      rw [openings_push]
      split
      · exact .cons (fun opening => stack.lt_depth_of_mem_openings) ih
      · exact ih

/-- The last frame that passes a test for marks of brackets is the latest mark that passes it. -/
theorem lastIndex?_eq {test : Frame → Bool}
    (opens : ∀ frame, test frame = true → frame.isOpening = true) :
    stack.lastIndex? test =
      (stack.openings.find? fun opening => test opening.1).map Prod.snd := by
  induction stack using push_induction with
  | empty => rfl
  | push stack frame ih =>
      rw [lastIndex?_push, openings_push, ih]
      by_cases passes : test frame = true
      · simp [passes, opens frame passes]
      · cases isOpening : frame.isOpening <;> simp [passes]

/-- The innermost iteration of a check is the latest of its marks. -/
theorem emptyCheck?_eq (id : Nat) :
    stack.emptyCheck? id =
      (stack.openings.find? fun opening => (opening.1.iteration? id).isSome).map Prod.snd := by
  have same : stack.emptyCheck? id =
      stack.lastIndex? fun frame => (frame.iteration? id).isSome := by
    unfold emptyCheck?
    congr 1
    funext frame
    cases frame with
    | emptyCheck started position =>
        by_cases same : started = id <;> simp [Frame.iteration?, same]
    | _ => rfl
  rw [same, lastIndex?_eq]
  intro frame starts
  cases frame <;> first | rfl | cases starts

variable {stack} in
theorem emptyCheck?_of_openings {inside outside : List (Frame × Nat)} {id start index : Nat}
    (split : stack.openings = inside ++ (.emptyCheck id start, index) :: outside)
    (others : ∀ opening ∈ inside, opening.1.iteration? id = none) :
    stack.emptyCheck? id = some index ∧ stack.get? index = some (.emptyCheck id start) := by
  have own : (Frame.emptyCheck id start).iteration? id = some start :=
    Frame.iteration?_eq_some_iff.2 rfl
  constructor
  · have later : inside.find? (fun opening => (opening.1.iteration? id).isSome) = none := by
      rw [List.find?_eq_none]
      intro opening mem
      rw [others opening mem]
      exact Bool.noConfusion
    rw [emptyCheck?_eq, split, List.find?_append, later, Option.none_or, List.find?_cons_of_pos]
    · rfl
    · dsimp only
      rw [own]
      rfl
  · have mem : (Frame.emptyCheck id start, index) ∈ stack.openings := by
      rw [split]
      exact List.mem_append_right _ List.mem_cons_self
    exact stack.get?_of_mem_openings mem

variable {stack} in
/-- The mark of the latest iteration of a check is the one that its end finds. -/
theorem exists_of_latestStart? {id start : Nat} (latest : stack.latestStart? id = some start) :
    ∃ index, stack.emptyCheck? id = some index ∧
      stack.get? index = some (.emptyCheck id start) := by
  obtain ⟨inside, ⟨frame, index⟩, outside, parts, starts, others⟩ :=
    List.findSome?_eq_some_iff.1 latest
  obtain rfl : frame = .emptyCheck id start := Frame.iteration?_eq_some_iff.1 starts
  exact ⟨index, emptyCheck?_of_openings parts others⟩

variable {stack} in
theorem emptyCheck?_eq_none {id : Nat} (never : stack.latestStart? id = none) :
    stack.emptyCheck? id = none := by
  rw [emptyCheck?_eq, Option.map_eq_none_iff, List.find?_eq_none]
  intro opening mem
  rw [List.findSome?_eq_none_iff.1 never opening mem]
  exact Bool.noConfusion

end Stack

/-! ### Marks on a route -/

namespace Instruction

/-- The mark that an instruction leaves to open a bracket. -/
def opening? (cursor : Cursor) : Instruction → Option Frame
  | .lookStart => some (.look cursor)
  | .atomicStart => some .atomic
  | .emptyCheckStart id => some (.emptyCheck id cursor.position)
  | _ => none

/-- The mark that an instruction looks for to end its bracket and all that has opened inside. -/
def closing? : Instruction → Option Mark
  | .lookEnd => some .look
  | .atomicEnd => some .atomic
  | _ => none

end Instruction

namespace Search

section

variable (program : Program)

/-- The mark that a dispatch leaves to open a bracket. -/
def opening? (search : Search) : Option Frame :=
  program.code[search.point.address]?.bind (Instruction.opening? search.point.cursor)

/-- The mark that a dispatch looks for to end its bracket and all that has opened inside. -/
def closing? (search : Search) : Option Mark :=
  program.code[search.point.address]?.bind Instruction.closing?

/-- The marks of the brackets on a route that have not ended, the latest one first, with the depths
at which they were left. -/
def openings : List Search → List (Frame × Nat)
  | [] => []
  | latest :: earlier =>
      match latest.opening? program, latest.closing? program with
      | some frame, _ => (frame, latest.store.depth) :: openings earlier
      | none, some mark => closeLatest mark (openings earlier)
      | none, none => openings earlier

/-- Whether every bracket that ends on a stretch of a route has opened on that stretch. -/
def Balanced : List Search → Prop
  | [] => True
  | latest :: earlier =>
      Balanced earlier ∧ ∀ mark ∈ latest.closing? program,
        ∃ opening ∈ openings program earlier, opening.1.isMark mark = true

instance decidableBalanced : (stretch : List Search) → Decidable (Balanced program stretch)
  | [] => .isTrue trivial
  | latest :: earlier =>
      have := decidableBalanced earlier
      inferInstanceAs (Decidable (_ ∧ ∀ mark ∈ latest.closing? program,
        ∃ opening ∈ openings program earlier, opening.1.isMark mark = true))

variable {program}

/-- What ends on a stretch leaves alone the brackets that have opened before. -/
theorem Balanced.openings_append {stretch : List Search} (balanced : Balanced program stretch)
    (before : List Search) :
    openings program (stretch ++ before) = openings program stretch ++ openings program before := by
  induction stretch with
  | nil => rfl
  | cons latest earlier ih =>
      rw [List.cons_append, openings, openings, ih balanced.1]
      split
      · rfl
      · next mark _ closes => exact closeLatest_append (balanced.2 mark closes) _
      · rfl

/-- A mark that has not been taken away was left on the route. -/
theorem exists_opening?_of_mem_openings {path : List Search} {opening : Frame × Nat}
    (mem : opening ∈ openings program path) :
    ∃ dispatch ∈ path, dispatch.opening? program = some opening.1 := by
  induction path with
  | nil => cases mem
  | cons latest earlier ih =>
      have of_earlier : opening ∈ openings program earlier →
          ∃ dispatch ∈ latest :: earlier, dispatch.opening? program = some opening.1 := by
        intro inEarlier
        obtain ⟨dispatch, onPath, opens⟩ := ih inEarlier
        exact ⟨dispatch, List.mem_cons_of_mem _ onPath, opens⟩
      rw [openings] at mem
      split at mem
      · next frame opens =>
          rcases List.mem_cons.1 mem with rfl | inEarlier
          · exact ⟨latest, List.mem_cons_self, opens⟩
          · exact of_earlier inEarlier
      · exact of_earlier (closeLatest_subset _ _ mem)
      · exact of_earlier mem

end

variable {setting : Setting} {search : Search} {point : Point} {left : Store}

/-- What opens a bracket pushes its mark and changes nothing else. -/
theorem Leaves.store_of_opening (leaves : search.Leaves setting point left) {frame : Frame}
    (opens : search.opening? setting.program = some frame) : left = search.store.push frame := by
  obtain ⟨instruction, fetched, opens⟩ := Option.bind_eq_some_iff.1 opens
  cases instruction with
  | lookStart | atomicStart =>
      cases opens
      refine leaves.store_eq fetched _ (.inr ⟨_, _, rfl⟩) ?_
      rintro other ⟨⟩
      rfl
  | emptyCheckStart id =>
      cases opens
      refine leaves.store_eq fetched (.push _) ?_ ?_
      · simp only [Plan.ofInstruction, Plan.emptyCheckStart]
        split
        · exact .inr ⟨_, _, rfl⟩
        · exact .inl ⟨_, rfl⟩
      · rintro other ⟨⟩
        rfl
  | _ => cases opens

/-- The mark of a bracket is one of the marks. -/
theorem isOpening_of_opening? {frame : Frame} (opens : search.opening? setting.program = some frame) :
    frame.isOpening = true := by
  obtain ⟨instruction, _, opens⟩ := Option.bind_eq_some_iff.1 opens
  cases instruction <;> cases opens <;> rfl

theorem Leaves.openings_of_opening (leaves : search.Leaves setting point left) {frame : Frame}
    (opens : search.opening? setting.program = some frame) :
    left.stack.openings = (frame, search.store.depth) :: search.store.stack.openings := by
  rw [leaves.store_of_opening opens]
  exact (search.store.stack.openings_push frame).trans (if_pos (isOpening_of_opening? opens))

/-- What ends a bracket gives up what is inside and changes nothing else. -/
theorem Leaves.store_of_closing (leaves : search.Leaves setting point left) {mark : Mark}
    (closes : search.closing? setting.program = some mark) :
    left = (search.store.commit mark).2 ∧ (mark = .look ∨ mark = .atomic) := by
  obtain ⟨instruction, fetched, closes⟩ := Option.bind_eq_some_iff.1 closes
  cases instruction with
  | lookEnd =>
      cases closes
      refine ⟨leaves.store_eq fetched (.commit .look) ?_ ?_, .inl rfl⟩
      · simp only [Plan.ofInstruction, Plan.lookEnd]
        split
        · exact .inr ⟨_, _, rfl⟩
        · exact .inl ⟨_, rfl⟩
      · rintro frame ⟨⟩
  | atomicEnd =>
      cases closes
      refine ⟨leaves.store_eq fetched (.commit .atomic) ?_ ?_, .inr rfl⟩
      · simp only [Plan.ofInstruction, Plan.atomicEnd]
        split
        · exact .inr ⟨_, _, rfl⟩
        · exact .inl ⟨_, rfl⟩
      · rintro frame ⟨⟩
  | _ => cases closes

theorem Leaves.openings_of_closing (leaves : search.Leaves setting point left) {mark : Mark}
    (closes : search.closing? setting.program = some mark) :
    left.stack.openings = closeLatest mark search.store.stack.openings := by
  obtain ⟨rfl, bracket⟩ := leaves.store_of_closing closes
  exact search.store.stack.openings_commit bracket

/-- Only what opens or ends a bracket changes which marks there are. -/
theorem Leaves.openings_of_other (leaves : search.Leaves setting point left)
    (discards : ∀ visit ∈ Move.trail setting search (setting.moves search.point search.store),
      visit.DiscardsChoice)
    (noOpening : search.opening? setting.program = none)
    (noClosing : search.closing? setting.program = none) :
    left.stack.openings = search.store.stack.openings := by
  rw [opening?, Option.bind_eq_none_iff] at noOpening
  rw [closing?, Option.bind_eq_none_iff] at noClosing
  refine @Leaves.stack_invariant setting search point left
    (fun stack => stack.openings = search.store.stack.openings) leaves discards rfl ?counted ?push
    ?commit fun stack point kept => ?lower
  case counted =>
    intro stack index count kept
    rw [stack.openings_setEntryCount, kept]
  case push =>
    intro effect mem store frame pushes stack kept
    have plain : frame.isOpening = false := by
      obtain ⟨instruction, fetched, causes | ⟨point', rfl⟩⟩ :=
        Attempt.exists_causes_of_mem_moves mem
      · have opensNothing := noOpening instruction fetched
        cases causes with
        | look | atomic | emptyCheck => cases opensNothing
        | _ => cases pushes <;> rfl
      · cases pushes
        rfl
    rw [stack.openings_push, plain, kept]
    rfl
  case commit =>
    intro mark mem stack kept
    obtain ⟨instruction, fetched, causes | ⟨point', isChoice⟩⟩ :=
      Attempt.exists_causes_of_mem_moves mem
    · have endsNothing := noClosing instruction fetched
      cases causes <;> cases endsNothing
    · cases isChoice
  case lower =>
    rw [stack.openings_push] at kept
    exact kept

/-- The marks on the stack stay those on the route. -/
theorem Follows.openings_eq {next : Search} {earlier : List Search}
    (follows : Follows setting next search)
    (discards : ∀ visit ∈ Move.trail setting search (setting.moves search.point search.store),
      visit.DiscardsChoice)
    (kept : search.store.stack.openings = openings setting.program earlier) :
    next.store.stack.openings = openings setting.program (search :: earlier) := by
  obtain ⟨left, leaves, stack, _⟩ := follows.exists_left
  rw [stack, openings]
  split
  · next frame opens => rw [leaves.openings_of_opening opens, kept]
  · next mark _ closes => rw [leaves.openings_of_closing closes, kept]
  · next noOpening noClosing => rw [leaves.openings_of_other discards noOpening noClosing, kept]

/-- In a run that throws away nothing but choices, the marks on the stack are those on the route. -/
theorem openings_eq {store : Store} {dispatches : Nat}
    (reaches : (start setting store).advance setting dispatches = .ok search)
    (discards : ∀ visit ∈ trail setting dispatches (start setting store), visit.DiscardsChoice) :
    search.store.stack.openings =
      openings setting.program (route setting dispatches [] (start setting store)) :=
  @route_invariant setting search store dispatches
    (fun path state => state.store.stack.openings = openings setting.program path) reaches discards
    rfl fun _ _ _ _ discards follows kept => follows.openings_eq discards kept

end Search

end PatternMachine
