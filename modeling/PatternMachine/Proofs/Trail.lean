import PatternMachine.Proofs.Move

/-!
# The trail of a run

The trail lists the moves that a run has made, with the states before and after each.  "Whenever",
"in between" and "the largest ever" are said of trails; the states in it include those that lie
inside a dispatch.  An invariant is proved of all of them by `Search.trail_invariant`, from what
one move keeps and from what moves a dispatch is made of.
-/

namespace PatternMachine

/-- A move that a run has made. -/
structure Visit where
  before : Search
  move : Move
  after : Search
  deriving DecidableEq

namespace Visit

/-- A list of visits leads from one state to another. -/
def Leads (first last : Search) : List Visit → Prop
  | [] => first = last
  | visit :: visits => first = visit.before ∧ Leads visit.after last visits

theorem Leads.append {first middle last : Search} {left right : List Visit}
    (leads : Leads first middle left) (leads' : Leads middle last right) :
    Leads first last (left ++ right) := by
  induction left generalizing first with
  | nil =>
      cases leads
      exact leads'
  | cons visit left ih => exact ⟨leads.1, ih leads.2⟩

/-- Where a list of visits is cut, the first part has led to where the second one starts. -/
theorem Leads.split {first last : Search} {left right : List Visit}
    (leads : Leads first last (left ++ right)) :
    ∃ middle, Leads first middle left ∧ Leads middle last right := by
  induction left generalizing first with
  | nil => exact ⟨first, rfl, leads⟩
  | cons visit left ih =>
      obtain ⟨middle, leads', rest⟩ := ih leads.2
      exact ⟨middle, ⟨leads.1, leads'⟩, rest⟩

/-- A list of visits leads to where its last one does. -/
theorem Leads.eq_or_exists_after {first last : Search} {visits : List Visit}
    (leads : Leads first last visits) : last = first ∨ ∃ visit ∈ visits, visit.after = last := by
  induction visits generalizing first with
  | nil => exact .inl leads.symm
  | cons visit visits ih =>
      right
      rcases ih leads.2 with rfl | ⟨other, mem, atEnd⟩
      · exact ⟨visit, List.mem_cons_self, rfl⟩
      · exact ⟨other, List.mem_cons_of_mem visit mem, atEnd⟩

/-- What every visit keeps holds all along and at the end. -/
theorem Leads.invariant {Inv : Search → Prop} {first last : Search} {visits : List Visit}
    (leads : Leads first last visits) (start : Inv first)
    (keeps : ∀ visit ∈ visits, Inv visit.before → Inv visit.after) :
    (∀ visit ∈ visits, Inv visit.before ∧ Inv visit.after) ∧ Inv last := by
  induction visits generalizing first with
  | nil =>
      cases leads
      exact ⟨by simp, start⟩
  | cons visit visits ih =>
      obtain ⟨rfl, leads⟩ := leads
      have after := keeps visit List.mem_cons_self start
      obtain ⟨along, atEnd⟩ :=
        ih leads after fun other mem => keeps other (List.mem_cons_of_mem visit mem)
      refine ⟨?_, atEnd⟩
      intro other mem
      rcases List.mem_cons.1 mem with rfl | mem
      · exact ⟨start, after⟩
      · exact along other mem

/-- The greatest number of frames that the stack ever held. -/
def peak (visits : List Visit) : Nat :=
  (visits.map fun visit => visit.after.store.depth).foldr max 0

theorem peak_cons (visit : Visit) (visits : List Visit) :
    peak (visit :: visits) = max visit.after.store.depth (peak visits) := rfl

theorem depth_le_peak {visit : Visit} {visits : List Visit} (mem : visit ∈ visits) :
    visit.after.store.depth ≤ peak visits := by
  induction visits with
  | nil => cases mem
  | cons other visits ih =>
      rw [peak_cons]
      rcases List.mem_cons.1 mem with rfl | mem
      · exact Nat.le_max_left _ _
      · exact Nat.le_trans (ih mem) (Nat.le_max_right _ _)

end Visit

namespace Move

/-- The visits of a run that makes moves one after the other. -/
def trail (setting : Setting) (search : Search) : List Move → List Visit
  | [] => []
  | move :: moves =>
      match move.attempt setting search with
      | .ok next => ⟨search, move, next⟩ :: trail setting next moves
      | .error _ => []

variable {setting : Setting} {search : Search} {moves : List Move}

/-- Every visit is a move that the run could make, among those it was to make. -/
theorem of_mem_trail {visit : Visit} (mem : visit ∈ trail setting search moves) :
    visit.move ∈ moves ∧ visit.move.attempt setting visit.before = .ok visit.after := by
  induction moves generalizing search with
  | nil => cases mem
  | cons move moves ih =>
      rw [trail] at mem
      split at mem
      · next next attempted =>
          rcases List.mem_cons.1 mem with rfl | mem
          · exact ⟨List.mem_cons_self, attempted⟩
          · exact (ih mem).imp_left (List.mem_cons_of_mem move)
      · cases mem

/-- A trail is connected, and if the run goes on it does so where the trail has led. -/
theorem leads_trail (setting : Setting) (search : Search) (moves : List Move) :
    ∃ last, Visit.Leads search last (trail setting search moves) ∧
      ∀ next, play setting search moves = .ok next → next = last := by
  induction moves generalizing search with
  | nil =>
      refine ⟨search, rfl, ?_⟩
      intro next played
      cases played
      rfl
  | cons move moves ih =>
      simp only [trail, play_cons]
      cases attempted : move.attempt setting search with
      | ok next =>
          obtain ⟨last, leads, ends⟩ := ih next
          exact ⟨last, ⟨rfl, leads⟩, ends⟩
      | error ending =>
          refine ⟨search, rfl, ?_⟩
          intro next played
          cases played

end Move

namespace Search

/-- The visits of a run that dispatches at most a number of instructions. -/
def trail (setting : Setting) : (dispatches : Nat) → Search → List Visit
  | 0, _ => []
  | dispatches + 1, search =>
      Move.trail setting search (setting.moves search.point search.store) ++
        match search.step setting with
        | .ok next => trail setting dispatches next
        | .error _ => []

variable {setting : Setting} {dispatches : Nat} {search : Search}

theorem attempt_of_mem_trail {visit : Visit} (mem : visit ∈ trail setting dispatches search) :
    visit.move.attempt setting visit.before = .ok visit.after := by
  induction dispatches generalizing search with
  | zero => cases mem
  | succ dispatches ih =>
      rw [trail, List.mem_append] at mem
      rcases mem with mem | mem
      · exact (Move.of_mem_trail mem).2
      · split at mem
        · exact ih mem
        · cases mem

/-- The trail of a run is connected. -/
theorem leads_trail (setting : Setting) (dispatches : Nat) (search : Search) :
    ∃ last, Visit.Leads search last (trail setting dispatches search) := by
  induction dispatches generalizing search with
  | zero => exact ⟨search, rfl⟩
  | succ dispatches ih =>
      rw [trail]
      obtain ⟨middle, leads, ends⟩ :=
        Move.leads_trail setting search (setting.moves search.point search.store)
      rw [← step_eq_play] at ends
      cases stepped : search.step setting with
      | ok next =>
          obtain ⟨last, leads'⟩ := ih next
          obtain rfl := ends next stepped
          exact ⟨last, leads.append leads'⟩
      | error ending =>
          refine ⟨middle, ?_⟩
          dsimp only
          rw [List.append_nil]
          exact leads

/-- Where a search has come to after at most a number of dispatches. -/
def advance (setting : Setting) : (dispatches : Nat) → Search → Except Ending Search
  | 0, search => .ok search
  | dispatches + 1, search => (search.step setting).bind (advance setting dispatches)

theorem advance_one (setting : Setting) (search : Search) :
    search.advance setting 1 = search.step setting := by
  rw [advance]
  cases search.step setting <;> rfl

/-- A run ends only once. -/
theorem run?_unique {setting : Setting} {few many : Nat} {search : Search} {ending ending' : Ending}
    (ended : run? setting few search = some ending)
    (ended' : run? setting many search = some ending') : ending' = ending := by
  have late := run?_mono (Nat.le_max_left few many) ended
  rw [run?_mono (Nat.le_max_right few many) ended'] at late
  exact Option.some.inj late

theorem run?_eq_some_iff {setting : Setting} {dispatches : Nat} {search : Search}
    {ending : Ending} :
    run? setting dispatches search = some ending ↔
      search.advance setting dispatches = .error ending := by
  induction dispatches generalizing search with
  | zero => simp [run?, advance]
  | succ dispatches ih =>
      rw [run?, advance]
      cases search.step setting with
      | ok next => exact ih
      | error ending' => simp [Except.bind]

/-- The trail of a run leads to where the run has come to. -/
theorem leads_trail_of_advance {last : Search}
    (reaches : search.advance setting dispatches = .ok last) :
    Visit.Leads search last (trail setting dispatches search) := by
  induction dispatches generalizing search with
  | zero => exact Except.ok.inj reaches
  | succ dispatches ih =>
      obtain ⟨middle, leads, ends⟩ :=
        Move.leads_trail setting search (setting.moves search.point search.store)
      rw [← step_eq_play] at ends
      rw [advance] at reaches
      rw [trail]
      cases stepped : search.step setting with
      | ok next =>
          rw [stepped] at reaches
          obtain rfl := ends next stepped
          exact leads.append (ih reaches)
      | error ending =>
          rw [stepped] at reaches
          cases reaches

theorem store_of_mem_trail {visit : Visit} (mem : visit ∈ trail setting dispatches search) :
    visit.after.store = visit.move.onStore visit.before.store :=
  Move.store_of_attempt (attempt_of_mem_trail mem)

/-- What every move on the way keeps of the store holds where a run has come to. -/
theorem store_invariant {Inv : Store → Prop} {last : Search}
    (reaches : search.advance setting dispatches = .ok last) (start : Inv search.store)
    (keeps : ∀ visit ∈ trail setting dispatches search,
      Inv visit.before.store → Inv (visit.move.onStore visit.before.store)) : Inv last.store := by
  refine (@Visit.Leads.invariant (fun state => Inv state.store) search last _
    (leads_trail_of_advance reaches) start ?_).2
  intro visit mem before
  rw [store_of_mem_trail mem]
  exact keeps visit mem before

/-- A run that goes on adds to its trail. -/
theorem trail_add {middle : Search} (reaches : search.advance setting dispatches = .ok middle)
    (more : Nat) :
    trail setting (dispatches + more) search =
      trail setting dispatches search ++ trail setting more middle := by
  induction dispatches generalizing search with
  | zero =>
      cases reaches
      rw [Nat.zero_add]
      rfl
  | succ dispatches ih =>
      rw [advance] at reaches
      rw [Nat.succ_add, trail, trail]
      cases stepped : search.step setting with
      | ok next =>
          rw [stepped] at reaches
          dsimp only
          rw [ih reaches, List.append_assoc]
      | error ending =>
          rw [stepped] at reaches
          cases reaches

theorem advance_add (few more : Nat) (search : Search) :
    search.advance setting (few + more) =
      (search.advance setting few).bind (advance setting more) := by
  induction few generalizing search with
  | zero =>
      rw [Nat.zero_add]
      rfl
  | succ few ih =>
      rw [Nat.succ_add, advance, advance]
      cases search.step setting with
      | ok next => exact ih next
      | error ending => rfl

/-- Every state of a run satisfies what holds at its start and is kept by each move that a dispatch
of such a state may consist of. -/
theorem trail_invariant {Inv : Search → Prop} {Legal : Move → Prop} (start : Inv search)
    (legal : ∀ search, Inv search → ∀ move ∈ setting.moves search.point search.store, Legal move)
    (keeps : ∀ visit ∈ trail setting dispatches search,
      Inv visit.before → Legal visit.move → Inv visit.after) :
    ∀ visit ∈ trail setting dispatches search,
      Inv visit.before ∧ Legal visit.move ∧ Inv visit.after := by
  induction dispatches generalizing search with
  | zero =>
      intro visit mem
      cases mem
  | succ dispatches ih =>
      intro visit mem
      obtain ⟨middle, leads, ends⟩ :=
        Move.leads_trail setting search (setting.moves search.point search.store)
      rw [← step_eq_play] at ends
      have within : ∀ visit ∈ Move.trail setting search (setting.moves search.point search.store),
          visit ∈ trail setting (dispatches + 1) search ∧ Legal visit.move := by
        intro visit mem
        exact ⟨List.mem_append_left _ mem, legal search start _ (Move.of_mem_trail mem).1⟩
      obtain ⟨along, atEnd⟩ := leads.invariant start fun visit mem before =>
        keeps visit (within visit mem).1 before (within visit mem).2
      rw [trail, List.mem_append] at mem
      rcases mem with mem | mem
      · exact ⟨(along visit mem).1, (within visit mem).2, (along visit mem).2⟩
      · cases stepped : search.step setting with
        | error ending =>
            rw [stepped] at mem
            cases mem
        | ok next =>
            rw [stepped] at mem
            obtain rfl := ends next stepped
            refine ih atEnd (fun visit mem' => keeps visit ?_) visit mem
            rw [trail, stepped]
            exact List.mem_append_right _ mem'

/-- The states in which a run dispatches an instruction, for at most a number of dispatches. -/
def dispatched (setting : Setting) : (dispatches : Nat) → Search → List Search
  | 0, _ => []
  | dispatches + 1, search =>
      search :: match search.step setting with
        | .ok next => dispatched setting dispatches next
        | .error _ => []

theorem dispatched_mono {few many : Nat} (more : few ≤ many) :
    dispatched setting few search ⊆ dispatched setting many search := by
  induction few generalizing many search with
  | zero => exact List.nil_subset _
  | succ few ih =>
      cases many with
      | zero => exact absurd more (Nat.not_succ_le_zero few)
      | succ many =>
          simp only [dispatched]
          apply List.cons_subset_cons
          cases search.step setting with
          | ok next => exact ih (Nat.le_of_succ_le_succ more)
          | error ending => exact List.nil_subset _

/-- Every visit of a run is one of a dispatch. -/
theorem exists_dispatched_visit {visit : Visit} (mem : visit ∈ trail setting dispatches search) :
    ∃ state ∈ dispatched setting dispatches search,
      visit ∈ Move.trail setting state (setting.moves state.point state.store) := by
  induction dispatches generalizing search with
  | zero => cases mem
  | succ dispatches ih =>
      rw [trail, List.mem_append] at mem
      rcases mem with mem | mem
      · exact ⟨search, List.mem_cons_self, mem⟩
      · cases stepped : search.step setting with
        | ok next =>
            rw [stepped] at mem
            obtain ⟨state, stateMem, made⟩ := ih mem
            refine ⟨state, ?_, made⟩
            rw [dispatched, stepped]
            exact List.mem_cons_of_mem _ stateMem
        | error ending =>
            rw [stepped] at mem
            cases mem

/-- Every move of a run is one of a dispatch. -/
theorem exists_mem_dispatched {visit : Visit} (mem : visit ∈ trail setting dispatches search) :
    ∃ state ∈ dispatched setting dispatches search,
      visit.move ∈ setting.moves state.point state.store := by
  obtain ⟨state, stateMem, made⟩ := exists_dispatched_visit mem
  exact ⟨state, stateMem, (Move.of_mem_trail made).1⟩

/-- A run has come to each of its dispatches, and makes the moves of that. -/
theorem exists_advance_of_mem_dispatched {state : Search}
    (mem : state ∈ dispatched setting dispatches search) :
    ∃ passed, search.advance setting passed = .ok state ∧
      trail setting passed search ++ Move.trail setting state (setting.moves state.point state.store)
        ⊆ trail setting dispatches search := by
  induction dispatches generalizing search with
  | zero => cases mem
  | succ dispatches ih =>
      rw [dispatched] at mem
      rcases List.mem_cons.1 mem with rfl | mem
      · exact ⟨0, rfl, List.subset_append_left _ _⟩
      · cases stepped : search.step setting with
        | ok next =>
            rw [stepped] at mem
            obtain ⟨passed, reached, visited⟩ := ih mem
            refine ⟨passed + 1, ?_, ?_⟩
            · rw [advance, stepped]
              exact reached
            · rw [trail, trail, stepped, List.append_assoc]
              exact List.append_subset.2 ⟨List.subset_append_left _ _,
                List.Subset.trans visited (List.subset_append_right _ _)⟩
        | error ending =>
            rw [stepped] at mem
            cases mem

/-- A run dispatches where it has come to. -/
theorem mem_dispatched_of_advance {passed : Nat} {state : Search}
    (reaches : search.advance setting passed = .ok state) :
    state ∈ dispatched setting (passed + 1) search := by
  induction passed generalizing search with
  | zero =>
      cases reaches
      exact List.mem_cons_self
  | succ passed ih =>
      rw [advance] at reaches
      rw [dispatched]
      cases stepped : search.step setting with
      | ok next =>
          rw [stepped] at reaches
          exact List.mem_cons_of_mem _ (ih reaches)
      | error ending =>
          rw [stepped] at reaches
          cases reaches

/-- What holds at the start of a run and is kept by the dispatches that it makes holds whenever it
dispatches. -/
theorem dispatched_invariant_of_mem {Inv : Search → Prop} (start : Inv search)
    (keeps : ∀ state ∈ dispatched setting dispatches search, ∀ next, Inv state →
      state.step setting = .ok next → Inv next) :
    ∀ state ∈ dispatched setting dispatches search, Inv state := by
  induction dispatches generalizing search with
  | zero =>
      intro state mem
      cases mem
  | succ dispatches ih =>
      intro state mem
      rw [dispatched] at mem keeps
      rcases List.mem_cons.1 mem with rfl | mem
      · exact start
      · cases stepped : search.step setting with
        | ok next =>
            rw [stepped] at mem keeps
            have after := keeps search List.mem_cons_self next start stepped
            exact ih after (fun other later => keeps other (List.mem_cons_of_mem search later))
              state mem
        | error ending =>
            rw [stepped] at mem
            cases mem

/-- What holds at the start of a run and is kept by dispatches holds whenever it dispatches. -/
theorem dispatched_invariant {Inv : Search → Prop} (start : Inv search)
    (keeps : ∀ search next, Inv search → search.step setting = .ok next → Inv next) :
    ∀ state ∈ dispatched setting dispatches search, Inv state :=
  dispatched_invariant_of_mem start fun state _ => keeps state

end Search

/-! ### What a search comes to -/

/-- One thing holds of a search that goes on, and another of one that has ended. -/
def Search.Results (Inv : Search → Prop) (Post : Ending → Prop) : Except Ending Search → Prop
  | .ok search => Inv search
  | .error ending => Post ending

theorem Search.Results.bind {Inv Next : Search → Prop} {Post : Ending → Prop}
    {result : Except Ending Search} {go : Search → Except Ending Search}
    (so_far : Results Inv Post result)
    (rest : ∀ {search}, Inv search → Results Next Post (go search)) :
    Results Next Post (result.bind go) := by
  cases result with
  | ok search => exact rest so_far
  | error ending => exact so_far

section Steps

variable {setting : Setting} {search : Search} {Inv : Search → Prop} {Post : Ending → Prop}
  {dispatches : Nat} {ending : Ending}

/-- What holds at the start of a run and is kept by the dispatches that it makes holds until it
ends, and its ending is as they make it. -/
theorem Search.run?_of_dispatched (start : Inv search)
    (steps : ∀ state ∈ dispatched setting dispatches search, Inv state →
      Results Inv Post (state.step setting))
    (ended : run? setting dispatches search = some ending) : Post ending := by
  induction dispatches generalizing search with
  | zero => cases ended
  | succ dispatches ih =>
      rw [dispatched] at steps
      have stepped := steps search List.mem_cons_self start
      rw [run?] at ended
      cases result : search.step setting with
      | ok next =>
          rw [result] at ended stepped steps
          exact ih stepped (fun other later => steps other (List.mem_cons_of_mem search later)) ended
      | error ending' =>
          rw [result] at ended stepped
          cases ended
          exact stepped

/-- What holds at the start of a run and is kept by dispatches holds until it ends, and its ending
is as they make it. -/
theorem Search.run?_of_steps
    (steps : ∀ {search}, Inv search → Results Inv Post (search.step setting))
    (start : Inv search) (ended : run? setting dispatches search = some ending) : Post ending :=
  run?_of_dispatched start (fun _ _ => steps) ended

end Steps

section Visits

variable {setting : Setting} {search : Search} {Inv : Search → Prop} {Post : Ending → Prop}
  (start : Inv search)
  (ends : ∀ {state move ending}, Inv state → Move.Stops setting state move ending → Post ending)

include start ends

/-- What holds before moves and is kept by those that are made holds after them, or where the run
has ended. -/
theorem Move.play_of_trail {moves : List Move}
    (keeps : ∀ visit ∈ trail setting search moves, Inv visit.before → Inv visit.after) :
    Search.Results Inv Post (play setting search moves) := by
  induction moves generalizing search with
  | nil => exact start
  | cons move moves ih =>
      rw [play_cons]
      rw [trail] at keeps
      cases attempted : move.attempt setting search with
      | error ending => exact ends start (stops_of_attempt attempted)
      | ok next =>
          rw [attempted] at keeps
          have after := keeps _ List.mem_cons_self start
          exact ih after fun visit mem => keeps visit (List.mem_cons_of_mem _ mem)

/-- What holds at the start of a run and is kept by the moves that it makes holds where it has
ended. -/
theorem Search.run?_of_trail {dispatches : Nat} {ending : Ending}
    (keeps : ∀ visit ∈ trail setting dispatches search, Inv visit.before → Inv visit.after)
    (ended : run? setting dispatches search = some ending) : Post ending := by
  refine run?_of_dispatched start (fun state mem holds => ?_) ended
  obtain ⟨_, _, visited⟩ := exists_advance_of_mem_dispatched mem
  rw [step_eq_play]
  exact Move.play_of_trail holds ends fun visit made =>
    keeps visit (visited (List.mem_append_right _ made))

end Visits

section Results

variable {setting : Setting} {search : Search} {Inv : Search → Prop} {Legal : Move → Prop}
  {Post : Ending → Prop}
  (attempts : ∀ {search move}, Inv search → Legal move →
    Search.Results Inv Post (move.attempt setting search))

include attempts

/-- What holds after every single move holds after all of them. -/
theorem Move.play_results {moves : List Move} (start : Inv search)
    (legal : ∀ move ∈ moves, Legal move) : Search.Results Inv Post (play setting search moves) := by
  induction moves generalizing search with
  | nil => exact start
  | cons move moves ih =>
      rw [play_cons]
      refine (attempts start (legal move List.mem_cons_self)).bind ?_
      intro next inv
      exact ih inv fun other mem => legal other (List.mem_cons_of_mem move mem)

/-- What holds at the start of a run and is kept by its moves holds until it ends, and its ending is
as moves make it. -/
theorem Search.run?_results
    (legal : ∀ search, Inv search → ∀ move ∈ setting.moves search.point search.store, Legal move)
    {dispatches : Nat} {ending : Ending} (start : Inv search)
    (ended : run? setting dispatches search = some ending) : Post ending := by
  refine run?_of_steps (fun {search} inv => ?_) start ended
  rw [step_eq_play]
  exact Move.play_results attempts inv (legal search inv)

end Results

end PatternMachine
