import Mathlib.Data.List.Forall2
import PatternMachine.Proofs.Trail

/-!
# Runs in pairs

Two runs are followed side by side while they are in related states.  If they make their moves
together, each pair of moves has to keep the relation (`Move.play_paired`).  If the second run takes
several dispatches for one of the first, the runs still end alike (`Search.exists_run?_of_paired`).
If either run may have to go on alone until they are in related states again, one of them ends if and
only if the other one does (`Search.run?_iff_of_rejoins`), and for that it may be taken for granted
that neither ends in a way that is known not to come about.
-/

namespace PatternMachine

/-- What two runs come to that are in related states as long as they go on. -/
inductive Paired (Rel : Search → Search → Prop) : Except Ending Search → Except Ending Search → Prop
  | goesOn {left right : Search} (related : Rel left right) : Paired Rel (.ok left) (.ok right)
  | ends {left right : Ending} (same : left.outcome = right.outcome) :
      Paired Rel (.error left) (.error right)

namespace Paired

variable {Rel Rel' : Search → Search → Prop} {result result' other other' : Except Ending Search}

theorem ite {condition : Prop} [Decidable condition] (yes : Paired Rel result result')
    (no : Paired Rel other other') :
    Paired Rel (if condition then result else other) (if condition then result' else other') := by
  split
  · exact yes
  · exact no

/-- What the first of two runs comes to may be told from the move that it has made. -/
theorem imp (paired : Paired Rel result result')
    (more : ∀ {left right}, result = .ok left → Rel left right → Rel' left right) :
    Paired Rel' result result' := by
  cases paired with
  | goesOn related => exact .goesOn (more rfl related)
  | ends same => exact .ends same

end Paired

theorem Paired.symm {Rel : Search → Search → Prop} {result result' : Except Ending Search}
    (paired : Paired Rel result result') : Paired (fun left right => Rel right left) result' result := by
  cases paired with
  | goesOn related => exact .goesOn related
  | ends same => exact .ends same.symm

/-- Moves that keep two runs in related states do so one after the other. -/
theorem Move.play_paired {setting setting' : Setting} {Rel : Search → Search → Prop}
    {Pair : Move → Move → Prop}
    (attempts : ∀ {left right move move'}, Rel left right → Pair move move' →
      Paired Rel (move.attempt setting left) (move'.attempt setting' right))
    {moves moves' : List Move} (pairs : List.Forall₂ Pair moves moves') {left right : Search}
    (start : Rel left right) :
    Paired Rel (play setting left moves) (play setting' right moves') := by
  induction pairs generalizing left right with
  | nil => exact .goesOn start
  | cons pair pairs ih =>
      rw [play_cons, play_cons]
      have one := attempts start pair
      revert one
      generalize Move.attempt setting left _ = result, Move.attempt setting' right _ = result'
      intro one
      cases one with
      | goesOn related => exact ih related
      | ends same => exact .ends same

namespace Search

variable {setting setting' : Setting} {Rel : Search → Search → Prop} {left right : Search}

/-- If every dispatch of one run, as long as that comes to an outcome that counts, is followed by
some dispatches of another run, both have the same outcome. -/
theorem exists_run?_of_paired {Counts : Outcome → Prop}
    (steps : ∀ {left right dispatches ending}, Rel left right →
      run? setting (dispatches + 1) left = some ending → Counts ending.outcome →
      ∃ more, Paired Rel (left.step setting) (right.advance setting' (more + 1)))
    (related : Rel left right) {dispatches : Nat} {ending : Ending}
    (ran : run? setting dispatches left = some ending) (counts : Counts ending.outcome) :
    ∃ dispatches' ending', run? setting' dispatches' right = some ending' ∧
      ending'.outcome = ending.outcome := by
  induction dispatches generalizing left right with
  | zero => cases ran
  | succ dispatches ih =>
      obtain ⟨more, paired⟩ := steps related ran counts
      rw [run?] at ran
      revert paired ran
      generalize left.step setting = result
      generalize followed : right.advance setting' (more + 1) = result'
      intro ran paired
      cases paired with
      | goesOn related =>
          obtain ⟨dispatches', ending', ran', same⟩ := ih related ran
          refine ⟨more + 1 + dispatches', ending', ?_, same⟩
          rw [run?_eq_some_iff, advance_add, followed]
          exact run?_eq_some_iff.1 ran'
      | ends same =>
          cases ran
          exact ⟨more + 1, _, run?_eq_some_iff.2 followed, same.symm⟩

/-- Whether two runs come to related states, or to the same outcome, after some more dispatches of
each. -/
def Rejoins (setting setting' : Setting) (Rel : Search → Search → Prop)
    (result result' : Except Ending Search) : Prop :=
  ∃ few more, Paired Rel (result.bind (advance setting few)) (result'.bind (advance setting' more))

namespace Rejoins

variable {result result' : Except Ending Search}

theorem of_paired (paired : Paired Rel result result') : Rejoins setting setting' Rel result result' := by
  refine ⟨0, 0, ?_⟩
  cases paired with
  | goesOn related => exact .goesOn related
  | ends same => exact .ends same

theorem symm (rejoins : Rejoins setting setting' Rel result result') :
    Rejoins setting' setting (fun left right => Rel right left) result' result := by
  obtain ⟨few, more, paired⟩ := rejoins
  exact ⟨more, few, paired.symm⟩

/-- The second of two runs may go on alone. -/
theorem of_step (rejoins : Rejoins setting setting' Rel result (right.step setting')) :
    Rejoins setting setting' Rel result (.ok right) := by
  obtain ⟨few, more, paired⟩ := rejoins
  exact ⟨few, more + 1, paired⟩

end Rejoins

/-- If two runs come to related states again after every dispatch, the second one ends as the first
one does. -/
theorem exists_run?_of_rejoins
    (steps : ∀ {left right}, Rel left right →
      Rejoins setting setting' Rel (left.step setting) (right.step setting'))
    (related : Rel left right) {dispatches : Nat} {ending : Ending}
    (ran : run? setting dispatches left = some ending) :
    ∃ dispatches' ending', run? setting' dispatches' right = some ending' ∧
      ending'.outcome = ending.outcome := by
  induction dispatches using Nat.strongRecOn generalizing left right with
  | ind dispatches ih =>
      obtain ⟨few, more, paired⟩ := steps related
      change Paired Rel (left.advance setting (few + 1)) (right.advance setting' (more + 1)) at paired
      revert paired
      generalize advanced : left.advance setting (few + 1) = result
      generalize advanced' : right.advance setting' (more + 1) = result'
      intro paired
      cases paired with
      | @goesOn left' right' related =>
          have enough : few + 1 < dispatches := by
            refine Nat.lt_of_not_le fun early => ?_
            have ended := run?_eq_some_iff.1 (run?_mono early ran)
            rw [advanced] at ended
            cases ended
          obtain ⟨rest, rfl⟩ := Nat.exists_eq_add_of_le (Nat.le_of_lt enough)
          rw [run?_eq_some_iff, advance_add, advanced] at ran
          obtain ⟨dispatches', ending', ran', same⟩ :=
            ih rest (by omega) related (run?_eq_some_iff.2 ran)
          refine ⟨more + 1 + dispatches', ending', ?_, same⟩
          rw [run?_eq_some_iff, advance_add, advanced']
          exact run?_eq_some_iff.1 ran'
      | @ends ended ended' same =>
          obtain rfl := run?_unique ran (run?_eq_some_iff.2 advanced)
          exact ⟨more + 1, ended', run?_eq_some_iff.2 advanced', same.symm⟩

/-- Whether a run does not end with an outcome of a kind. -/
def Avoids (setting : Setting) (Bad : Outcome → Prop) (search : Search) : Prop :=
  ∀ dispatches ending, run? setting dispatches search = some ending → ¬ Bad ending.outcome

theorem Avoids.of_advance {Bad : Outcome → Prop} {search later : Search} {few : Nat}
    (avoids : search.Avoids setting Bad) (advanced : search.advance setting few = .ok later) :
    later.Avoids setting Bad := by
  intro dispatches ending ran
  refine avoids (few + dispatches) ending (run?_eq_some_iff.2 ?_)
  rw [advance_add, advanced]
  exact run?_eq_some_iff.1 ran

/-- If two runs come to related states again after every dispatch of one that does not end with an
outcome of a kind, they have the same outcomes. -/
theorem run?_iff_of_rejoins {Bad : Outcome → Prop}
    (steps : ∀ {left right}, Rel left right → left.Avoids setting Bad →
      Rejoins setting setting' Rel (left.step setting) (right.step setting'))
    (related : Rel left right) (avoids : left.Avoids setting Bad) (outcome : Outcome) :
    (∃ dispatches ending, run? setting dispatches left = some ending ∧ ending.outcome = outcome) ↔
      ∃ dispatches ending, run? setting' dispatches right = some ending ∧
        ending.outcome = outcome := by
  have again : ∀ {left right : Search}, Rel left right ∧ left.Avoids setting Bad →
      Rejoins setting setting' (fun left right => Rel left right ∧ left.Avoids setting Bad)
        (left.step setting) (right.step setting') := by
    rintro left right ⟨related, avoids⟩
    obtain ⟨few, more, paired⟩ := steps related avoids
    refine ⟨few, more, paired.imp fun advanced related => ⟨related, ?_⟩⟩
    exact @Avoids.of_advance _ _ _ _ (few + 1) avoids advanced
  constructor
  · rintro ⟨dispatches, ending, ran, rfl⟩
    exact exists_run?_of_rejoins again ⟨related, avoids⟩ ran
  · rintro ⟨dispatches, ending, ran, rfl⟩
    exact exists_run?_of_rejoins (fun related => (again related).symm) ⟨related, avoids⟩ ran

end Search

end PatternMachine
