import PatternMachine.Proofs.Bracket
import PatternMachine.Proofs.Stage
import PatternMachine.Proofs.Expression.Semantics

/-!
# Coming to an address once for each way to match

A piece of a program stands for a list of ways to match: from where it starts, the search comes to
its exit with the first of them; when it fails from there it comes to the exit with the second one,
and so on, and in the end it fails as it would have failed before.  `Enumerates` says so, and the
rules for putting pieces together are the rules for putting lists together.
-/

namespace PatternMachine

open Relation

namespace Stage

variable {attempt : Attempt} {stage : Stage}

/-- An instruction that goes on leads to where it goes on. -/
theorem Reaches.goto {point next : Point} {store : Store} {instruction : Instruction}
    {effects : List Effect} (fetched : attempt.program.code[point.address]? = some instruction)
    (planned : Plan.ofInstruction attempt point store instruction = ⟨effects, .goto next⟩) :
    Reaches attempt (.dispatching point store)
      (.dispatching next (Effect.onStoreAll store effects)) :=
  ReflTransGen.single (.goto fetched planned)

/-- An instruction that fails leads to a failing search. -/
theorem Reaches.fail {point : Point} {store : Store} {instruction : Instruction}
    {effects : List Effect} (fetched : attempt.program.code[point.address]? = some instruction)
    (planned : Plan.ofInstruction attempt point store instruction = ⟨effects, .fail⟩) :
    Reaches attempt (.dispatching point store) (.failing (Effect.onStoreAll store effects)) :=
  ReflTransGen.single (.fail fetched planned)

/-- A failing search goes back to the choice on top. -/
theorem Reaches.resume {frame : Frame} {point : Point} (resumed : frame.resume? = some point)
    (store : Store) :
    Reaches attempt (.failing (store.push frame)) (.dispatching point store) :=
  ReflTransGen.single (.resume (store.backtrack_choice resumed))

/-- What a failing search does depends on what it goes back to and on nothing else. -/
theorem Reaches.of_backtrack {store store' : Store} (same : store'.backtrack = store.backtrack)
    (reaches : Reaches attempt (.failing store) stage) :
    stage = .failing store ∨ Reaches attempt (.failing store') stage := by
  rcases ReflTransGen.cases_head reaches with rfl | ⟨middle, next, further⟩
  · exact .inl rfl
  · right
    cases next with
    | resume found => exact ReflTransGen.head (.resume (same.trans found)) further

end Stage

open Stage

/-- From a stage on, the search comes to an exit once for each standing in a list, and fails in the
end as it would have failed on the store `base`.  Whenever it is at the exit, the store has grown
from `base`; iterations that are not closed belong to the checks from `first` up to `last`. -/
inductive Enumerates (attempt : Attempt) (exit : Nat) (base : Store) (first last : Nat) :
    Stage → List Standing → Prop
  | done {stage : Stage} {store : Store} (reaches : Reaches attempt stage (.failing store))
      (same : store.backtrack = base.backtrack) : Enumerates attempt exit base first last stage []
  | found {stage : Stage} {cursor : Cursor} {store : Store} {standing : Standing}
      {others : List Standing}
      (reaches : Reaches attempt stage (.dispatching ⟨exit, cursor⟩ store))
      (position : cursor.position = standing.position)
      (captures : store.captures = standing.captures)
      (growth : Store.Grown first last base store)
      (further : Enumerates attempt exit base first last (.failing store) others) :
      Enumerates attempt exit base first last stage (standing :: others)

namespace Enumerates

variable {attempt : Attempt} {exit : Nat} {base : Store} {first last : Nat} {stage : Stage}
  {standings : List Standing}

/-- A failing search at the start has nothing to offer. -/
theorem nothing : Enumerates attempt exit base first last (.failing base) [] :=
  done ReflTransGen.refl rfl

/-- A single way, at the exit right away. -/
theorem single {cursor : Cursor} {store : Store} {standing : Standing}
    (position : cursor.position = standing.position) (captures : store.captures = standing.captures)
    (growth : Store.Grown first last base store) (same : store.backtrack = base.backtrack) :
    Enumerates attempt exit base first last (.dispatching ⟨exit, cursor⟩ store) [standing] :=
  found ReflTransGen.refl position captures growth (done ReflTransGen.refl same)

theorem of_reaches {stage' : Stage} (reaches : Reaches attempt stage stage')
    (enumerates : Enumerates attempt exit base first last stage' standings) :
    Enumerates attempt exit base first last stage standings := by
  cases enumerates with
  | done reaches' same => exact done (ReflTransGen.trans reaches reaches') same
  | found reaches' position captures growth further =>
      exact found (ReflTransGen.trans reaches reaches') position captures growth further

theorem mono {first' last' : Nat} (lower : first' ≤ first) (higher : last ≤ last')
    (enumerates : Enumerates attempt exit base first last stage standings) :
    Enumerates attempt exit base first' last' stage standings := by
  induction enumerates with
  | done reaches same => exact done reaches same
  | found reaches position captures growth _ ih =>
      exact found reaches position captures (growth.mono lower higher) ih

/-- A failing search may be replaced by another one that goes back to the same. -/
theorem of_backtrack {store store' : Store} (same : store'.backtrack = store.backtrack)
    (enumerates : Enumerates attempt exit base first last (.failing store) standings) :
    Enumerates attempt exit base first last (.failing store') standings := by
  cases enumerates with
  | done reaches same' =>
      rcases reaches.of_backtrack same with stays | reaches'
      · cases stays
        exact done ReflTransGen.refl (same.trans same')
      · exact done reaches' same'
  | found reaches position captures growth further =>
      rcases reaches.of_backtrack same with stays | reaches'
      · cases stays
      · exact found reaches' position captures growth further

/-- What grows from a store that has grown from `base` without leaving a choice behind has grown
from `base`. -/
theorem rebase {grown : Store} (growth : Store.Grown first last base grown)
    (same : grown.backtrack = base.backtrack)
    (enumerates : Enumerates attempt exit grown first last stage standings) :
    Enumerates attempt exit base first last stage standings := by
  induction enumerates with
  | done reaches same' => exact done reaches (same'.trans same)
  | found reaches position captures growth' _ ih =>
      exact found reaches position captures (growth.trans growth') ih

/-- When one list is at its end, the search fails and goes on with another one. -/
theorem append {grown : Store} {others : List Standing}
    (growth : Store.Grown first last base grown)
    (enumerates : Enumerates attempt exit grown first last stage standings)
    (afterwards : Enumerates attempt exit base first last (.failing grown) others) :
    Enumerates attempt exit base first last stage (standings ++ others) := by
  induction enumerates with
  | done reaches same => exact (afterwards.of_backtrack same).of_reaches reaches
  | found reaches position captures growth' _ ih =>
      exact found reaches position captures (growth.trans growth') ih

/-- Each way to the middle is continued in all ways to the exit. -/
theorem bind {middle : Nat} {first' last' : Nat} {further : Standing → List Standing}
    (lower : first ≤ first') (higher : last' ≤ last)
    (enumerates : Enumerates attempt middle base first' last' stage standings)
    (goesOn : ∀ standing ∈ standings, ∀ cursor store, cursor.position = standing.position →
      store.captures = standing.captures → Store.Grown first' last' base store →
      Enumerates attempt exit store first last (.dispatching ⟨middle, cursor⟩ store)
        (further standing)) :
    Enumerates attempt exit base first last stage (standings.flatMap further) := by
  induction enumerates with
  | done reaches same => exact done reaches same
  | @found stage cursor store standing others reaches position captures growth _ ih =>
      rw [List.flatMap_cons]
      apply of_reaches reaches
      apply append (growth.mono lower higher)
      · exact goesOn standing List.mem_cons_self cursor store position captures growth
      · apply ih
        intro other mem
        exact goesOn other (List.mem_cons_of_mem standing mem)

/-- Each way to the middle is continued in one way, which leaves no choice behind. -/
theorem map {middle : Nat} {next : Standing → Standing}
    (enumerates : Enumerates attempt middle base first last stage standings)
    (goesOn : ∀ standing ∈ standings, ∀ cursor store, cursor.position = standing.position →
      store.captures = standing.captures → Store.Grown first last base store →
      Enumerates attempt exit store first last (.dispatching ⟨middle, cursor⟩ store)
        [next standing]) :
    Enumerates attempt exit base first last stage (standings.map next) := by
  rw [List.map_eq_flatMap]
  exact enumerates.bind (Nat.le_refl _) (Nat.le_refl _) goesOn

end Enumerates

end PatternMachine
