import PatternMachine.Proofs.Trail

/-!
# What the world outside can change

A run asks the world outside two kinds of questions.  What the clock answers does not matter to a
run whose time is not limited.  What the caller's hook answers only matters once it refuses: up to
its first refusal a run under the hook is the run without one, and there it ends.
-/

namespace PatternMachine

/-! ### The clock -/

/-- The same setting beside another clock. -/
def Setting.withClock (setting : Setting) (elapsed : Nat → Nat) : Setting :=
  { setting with monitor := { setting.monitor with elapsed } }

section Clock

variable {setting : Setting} (timeless : setting.timeLimit = none) (elapsed : Nat → Nat)

include timeless

theorem Move.attempt_withClock (search : Search) (move : Move) :
    move.attempt (setting.withClock elapsed) search = move.attempt setting search := by
  cases move with
  | fail =>
      have early : ∀ failures, Search.outOfTime (setting.withClock elapsed) failures =
          Search.outOfTime setting failures := by
        intro failures
        rw [Search.outOfTime, Search.outOfTime,
          show (setting.withClock elapsed).timeLimit = none from timeless, timeless]
      simp only [attempt, early]
      rfl
  | _ => rfl

theorem Move.trail_withClock (search : Search) (moves : List Move) :
    trail (setting.withClock elapsed) search moves = trail setting search moves := by
  induction moves generalizing search with
  | nil => rfl
  | cons move moves ih => simp only [trail, attempt_withClock timeless, ih]

theorem Search.step_withClock (search : Search) :
    search.step (setting.withClock elapsed) = search.step setting := by
  have attempts : Move.attempt (setting.withClock elapsed) = Move.attempt setting := by
    funext search move
    exact Move.attempt_withClock timeless elapsed search move
  rw [step_eq_play, step_eq_play, Move.play, Move.play, attempts]
  rfl

theorem Search.run?_withClock (dispatches : Nat) (search : Search) :
    run? (setting.withClock elapsed) dispatches search = run? setting dispatches search := by
  induction dispatches generalizing search with
  | zero => rfl
  | succ dispatches ih => simp only [run?, step_withClock timeless, ih]

/-- A run whose time is not limited goes through the same states whatever the clock says. -/
theorem Search.trail_withClock (dispatches : Nat) (search : Search) :
    trail (setting.withClock elapsed) dispatches search = trail setting dispatches search := by
  induction dispatches generalizing search with
  | zero => rfl
  | succ dispatches ih =>
      simp only [trail, step_withClock timeless, ih, Move.trail_withClock timeless]
      rfl

end Clock

/-! ### The hook -/

/-- The same clock beside a hook that never refuses. -/
def Monitor.unhooked (monitor : Monitor) : Monitor :=
  { monitor with permits := fun _ => true }

/-- The same setting under a hook that never refuses. -/
def Setting.unhooked (setting : Setting) : Setting :=
  { setting with monitor := setting.monitor.unhooked }

/-- Whether a hook lets a search come this far. -/
def Search.PermittedBy (permits : Nat → Bool) (search : Search) : Prop :=
  ∀ call, 0 < call → call ≤ search.hookCalls → permits call = true

/-- Whether a run has ended where the hook has refused for the first time. -/
structure Ending.RefusedBy (permits : Nat → Bool) (ending : Ending) : Prop where
  aborted : ending.outcome = .stopped .aborted
  refused : permits ending.last.hookCalls = false
  earlier : ∀ call, 0 < call → call < ending.last.hookCalls → permits call = true

/-- Where a search has come to, whether it has ended there or goes on. -/
def Search.reached : Except Ending Search → Search
  | .ok search => search
  | .error ending => ending.last

/-- What comes of a search under a hook in comparison with the same search without one: the same, if
the hook lets it come that far. -/
inductive Hooked (permits : Nat → Bool) : Except Ending Search → Except Ending Search → Prop
  | same {result : Except Ending Search} (permitted : (Search.reached result).PermittedBy permits) :
      Hooked permits result result
  | refused {result : Except Ending Search} {ending : Ending}
      (beyond : ¬ (Search.reached result).PermittedBy permits)
      (stopped : ending.RefusedBy permits) :
      Hooked permits result (.error ending)

namespace Search

variable {permits : Nat → Bool} {search next : Search}

/-- A hook that lets a search come to a point lets it come to all points before. -/
theorem PermittedBy.of_le (permitted : next.PermittedBy permits)
    (earlier : search.steps ≤ next.steps) : search.PermittedBy permits := by
  intro call positive within
  exact permitted call positive (Nat.le_trans within (Nat.div_le_div_right earlier))

theorem steps_le_bind {go : Search → Except Ending Search}
    (more : ∀ search, search.steps ≤ (reached (go search)).steps)
    (result : Except Ending Search) :
    (reached result).steps ≤ (reached (result.bind go)).steps := by
  cases result with
  | error ending => exact Nat.le_refl _
  | ok search => exact more search

/-- Before its first call a hook has refused nothing. -/
theorem permittedBy_of_not_called (none : search.hookCalls = 0) : search.PermittedBy permits := by
  intro call positive within
  rw [none] at within
  exact absurd positive (Nat.not_lt.2 within)

end Search

theorem Hooked.bind {permits : Nat → Bool} {left right : Except Ending Search}
    {free hooked : Search → Except Ending Search} (so_far : Hooked permits left right)
    (more : ∀ search, search.steps ≤ (Search.reached (free search)).steps)
    (rest : ∀ {search}, search.PermittedBy permits →
      Hooked permits (free search) (hooked search)) :
    Hooked permits (left.bind free) (right.bind hooked) := by
  cases so_far with
  | same permitted =>
      cases left with
      | error ending => exact .same permitted
      | ok search => exact rest permitted
  | refused beyond stopped =>
      refine .refused ?_ stopped
      intro permitted
      exact beyond (permitted.of_le (Search.steps_le_bind more left))

namespace Search

variable {permits : Nat → Bool} {search : Search}

/-- A search with one more unit of work. -/
def worked (search : Search) : Search :=
  { search with steps := search.steps + 1 }

/-- The hook is called after every `checkInterval` units of work. -/
theorem hookCalls_worked (search : Search) :
    search.worked.hookCalls =
      if (search.steps + 1) % checkInterval = 0 then search.hookCalls + 1
      else search.hookCalls := by
  have interval : checkInterval = 512 := rfl
  simp only [hookCalls, worked]
  by_cases due : (search.steps + 1) % checkInterval = 0
  · rw [if_pos due]
    rw [interval] at due ⊢
    omega
  · rw [if_neg due]
    rw [interval] at due ⊢
    omega

/-- A hook lets a search do one more unit of work if it is not called then, or permits it. -/
theorem permittedBy_worked_iff (permitted : search.PermittedBy permits) :
    search.worked.PermittedBy permits ↔
      ((search.steps + 1) % checkInterval = 0 → permits search.worked.hookCalls = true) := by
  have calls := search.hookCalls_worked
  by_cases due : (search.steps + 1) % checkInterval = 0
  · rw [if_pos due] at calls
    simp only [due, forall_const]
    constructor
    · intro allowed
      exact allowed _ (calls ▸ Nat.succ_pos _) (Nat.le_refl _)
    · intro allows call positive within
      rcases Nat.eq_or_lt_of_le within with rfl | earlier
      · exact allows
      · rw [calls] at earlier
        exact permitted call positive (Nat.le_of_lt_succ earlier)
  · rw [if_neg due] at calls
    simp only [due, false_implies, iff_true]
    intro call positive within
    rw [calls] at within
    exact permitted call positive within

theorem work_hooked (setting : Setting) (permitted : search.PermittedBy setting.monitor.permits) :
    Hooked setting.monitor.permits (search.work setting.unhooked) (search.work setting) := by
  have free : search.work setting.unhooked = .ok search.worked := by
    simp [work, worked, Setting.unhooked, Monitor.unhooked]
  have allowed := permittedBy_worked_iff permitted
  have calls := search.hookCalls_worked
  rw [free, work]
  by_cases due : (search.steps + 1) % checkInterval = 0
  · cases allows : setting.monitor.permits search.worked.hookCalls with
    | true =>
        rw [if_neg]
        · exact .same (allowed.2 fun _ => allows)
        · rw [← worked, allows, Bool.not_true, Bool.and_false]
          exact Bool.noConfusion
    | false =>
        rw [if_pos]
        · apply Hooked.refused
          · intro beyond
            rw [allowed.1 beyond due] at allows
            cases allows
          · refine ⟨rfl, allows, ?_⟩
            intro call positive earlier
            have before : call < search.worked.hookCalls := earlier
            rw [calls, if_pos due] at before
            exact permitted call positive (Nat.le_of_lt_succ before)
        · rw [← worked, allows, Bool.not_false, Bool.and_true]
          exact decide_eq_true due
  · rw [if_neg]
    · exact .same (allowed.2 fun due' => absurd due' due)
    · simp [due]

end Search

namespace Move

variable {setting : Setting}

/-- Nothing but work counts as work. -/
theorem steps_reached (setting : Setting) (search : Search) {move : Move} (other : move ≠ .work) :
    (Search.reached (move.attempt setting search)).steps = search.steps := by
  cases move with
  | work => exact absurd rfl other
  | perform effect =>
      cases effect with
      | note event =>
          simp only [attempt, Search.perform]
          rw [Search.note_eq]
          rfl
      | _ =>
          simp only [attempt, Search.perform]
          split <;> rfl
  | fail =>
      simp only [attempt]
      split
      · rfl
      split <;> rfl
  | backtrack =>
      simp only [attempt]
      split <;> rfl
  | consider =>
      simp only [attempt]
      rw [Search.consider_eq]
      rfl
  | goto point | matched | conclude | reject reason => rfl

theorem steps_le_reached (setting : Setting) (search : Search) (move : Move) :
    search.steps ≤ (Search.reached (move.attempt setting search)).steps := by
  by_cases isWork : move = .work
  · subst isWork
    simp only [attempt, Search.work]
    split <;> exact Nat.le_succ _
  · exact Nat.le_of_eq (steps_reached setting search isWork).symm

theorem attempt_hooked {search : Search} (permitted : search.PermittedBy setting.monitor.permits)
    (move : Move) :
    Hooked setting.monitor.permits (move.attempt setting.unhooked search)
      (move.attempt setting search) := by
  by_cases isWork : move = .work
  · subst isWork
    exact Search.work_hooked setting permitted
  · have same : move.attempt setting.unhooked search = move.attempt setting search := by
      cases move with
      | work => exact absurd rfl isWork
      | _ => rfl
    rw [same]
    exact .same (permitted.of_le (Nat.le_of_eq (steps_reached setting search isWork)))

theorem steps_le_play (setting : Setting) (search : Search) (moves : List Move) :
    search.steps ≤ (Search.reached (play setting search moves)).steps := by
  induction moves generalizing search with
  | nil => exact Nat.le_refl _
  | cons move moves ih =>
      rw [play_cons]
      exact Nat.le_trans (steps_le_reached setting search move) (Search.steps_le_bind ih _)

theorem play_hooked {search : Search} (permitted : search.PermittedBy setting.monitor.permits)
    (moves : List Move) :
    Hooked setting.monitor.permits (play setting.unhooked search moves)
      (play setting search moves) := by
  induction moves generalizing search with
  | nil => exact .same permitted
  | cons move moves ih =>
      rw [play_cons, play_cons]
      exact (attempt_hooked permitted move).bind (fun next => steps_le_play _ next moves) @ih

end Move

namespace Search

variable {setting : Setting} {search : Search} {dispatches : Nat} {ending : Ending}

theorem steps_le_advance (setting : Setting) (dispatches : Nat) (search : Search) :
    search.steps ≤ (reached (search.advance setting dispatches)).steps := by
  induction dispatches generalizing search with
  | zero => exact Nat.le_refl _
  | succ dispatches ih =>
      have one := Move.steps_le_play setting search (setting.moves search.point search.store)
      rw [← step_eq_play] at one
      exact Nat.le_trans one (steps_le_bind ih _)

theorem advance_hooked (permitted : search.PermittedBy setting.monitor.permits)
    (dispatches : Nat) :
    Hooked setting.monitor.permits (search.advance setting.unhooked dispatches)
      (search.advance setting dispatches) := by
  induction dispatches generalizing search with
  | zero => exact .same permitted
  | succ dispatches ih =>
      have one : Hooked setting.monitor.permits (search.step setting.unhooked)
          (search.step setting) := by
        rw [step_eq_play, step_eq_play]
        exact Move.play_hooked permitted _
      exact one.bind (steps_le_advance _ dispatches) @ih

/-- A run under a hook ends as the run without one, or where the hook first refuses. -/
theorem run?_of_hooked (permitted : search.PermittedBy setting.monitor.permits)
    (ended : run? setting dispatches search = some ending) :
    ending.RefusedBy setting.monitor.permits ∨
      run? setting.unhooked dispatches search = some ending := by
  rw [run?_eq_some_iff] at ended ⊢
  have hooked := advance_hooked permitted dispatches
  rw [ended] at hooked
  generalize search.advance setting.unhooked dispatches = result at hooked
  cases hooked with
  | same => exact .inr rfl
  | refused _ stopped => exact .inl stopped

/-- A run that has ended without a hook ends in the same way under a hook that permits it, and under
any other where that hook first refuses. -/
theorem run?_hooked (permitted : search.PermittedBy setting.monitor.permits)
    (ended : run? setting.unhooked dispatches search = some ending) :
    (ending.last.PermittedBy setting.monitor.permits →
      run? setting dispatches search = some ending) ∧
    (¬ ending.last.PermittedBy setting.monitor.permits →
      ∃ refused, run? setting dispatches search = some refused ∧
        refused.RefusedBy setting.monitor.permits) := by
  simp only [run?_eq_some_iff] at ended ⊢
  have hooked := advance_hooked permitted dispatches
  rw [ended] at hooked
  generalize search.advance setting dispatches = result at hooked
  cases hooked with
  | same permitted => exact ⟨fun _ => rfl, absurd permitted⟩
  | refused beyond stopped =>
      exact ⟨fun permitted => absurd permitted beyond, fun _ => ⟨_, rfl, stopped⟩⟩

end Search

end PatternMachine
