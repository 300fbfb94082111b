import PatternMachine.Proofs.Dispatch
import PatternMachine.Proofs.Paired
import PatternMachine.Proofs.Relocation.Plans
import PatternMachine.Proofs.Stage

/-!
# Runs of relocated code

Without limits, a search in relocated code goes where the search in the original code goes, at the
places of its addresses (`Search.Relocates.step`).  Counters and reports are left out of that, since
they have no influence on the answer.
-/

namespace PatternMachine

variable {place : Nat → Nat} {setting : Setting} {code : Array Instruction}

/-- The relocated effects on a relocated store are the effects on the store. -/
theorem Effect.relocate_onStoreAll (first : place 0 = 0) (store : Store) (effects : List Effect) :
    (onStoreAll store effects).relocate place =
      onStoreAll (store.relocate place) (effects.map (Effect.relocate place)) := by
  induction effects generalizing store with
  | nil => rfl
  | cons effect effects ih =>
      rw [List.map_cons, onStoreAll, onStoreAll, List.foldl_cons, List.foldl_cons,
        ← effect.relocate_onStore first]
      exact ih _

/-- Two searches of which the second one stands at the place of the first one. -/
structure Search.Relocates (place : Nat → Nat) (left right : Search) : Prop where
  point : right.point = left.point.relocate place
  store : right.store = left.store.relocate place
  best : right.best = left.best

/-- Nothing is recorded yet when a run starts at the first instruction. -/
theorem Search.relocates_start (first : place 0 = 0) (store : Store) :
    (start setting store).Relocates place (start (setting.withCode code) store) where
  point := by
    rw [start, start, Point.relocate, first]
    rfl
  store := by
    simp [start, Store.reset, Store.relocate, Registers.reset, Registers.blank,
      RepeatRegister.relocate, RepeatRegister.idle, first]
  best := rfl

namespace Search.Relocates

variable {left right : Search}

theorem cursor (relocates : left.Relocates place right) : right.point.cursor = left.point.cursor := by
  rw [relocates.point]
  rfl

theorem candidateRegion (relocates : left.Relocates place right) :
    right.candidateRegion (setting.withCode code) = left.candidateRegion setting := by
  rw [Search.candidateRegion, Search.candidateRegion, relocates.store, relocates.cursor]
  exact Store.region_congr left.store.span?_relocate ..

/-- Two searches that have nothing to go on with end with the same candidate. -/
theorem conclude (relocates : left.Relocates place right) :
    Paired (Relocates place) left.conclude right.conclude := by
  refine .ends ?_
  rw [relocates.best]

section

variable (free : setting.Free) (first : place 0 = 0) (relocates : left.Relocates place right)

include free first relocates

theorem failing : Paired (Relocates place) (Move.play setting left Move.failing)
    (Move.play (setting.withCode code) right Move.failing) := by
  rw [Move.play_failing_of_free free, Move.play_failing_of_free (free.withCode code),
    relocates.store, left.store.relocate_backtrack first]
  cases left.store.backtrack with
  | mk found store =>
      cases found with
      | some point => exact .goesOn ⟨rfl, rfl, relocates.best⟩
      | none => exact conclude ⟨relocates.point, rfl, relocates.best⟩

omit first in
/-- Two searches that do a unit of work go on as before. -/
theorem work_cons {moves moves' : List Move}
    (rest : ∀ {left right : Search}, left.Relocates place right →
      Paired (Relocates place) (Move.play setting left moves)
        (Move.play (setting.withCode code) right moves')) :
    Paired (Relocates place) (Move.play setting left (.work :: moves))
      (Move.play (setting.withCode code) right (.work :: moves')) := by
  rw [Move.play_cons, Move.play_cons, Move.attempt, Move.attempt, Move.work_of_free free,
    Move.work_of_free (free.withCode code)]
  exact rest ⟨relocates.point, relocates.store, relocates.best⟩

omit first in
theorem push_cons (frame : Frame) {moves moves' : List Move}
    (rest : ∀ {left right : Search}, left.Relocates place right →
      Paired (Relocates place) (Move.play setting left moves)
        (Move.play (setting.withCode code) right moves')) :
    Paired (Relocates place) (Move.play setting left (.perform (.push frame) :: moves))
      (Move.play (setting.withCode code) right
        (.perform (.push (frame.relocate place)) :: moves')) := by
  rw [Move.play_cons, Move.play_cons, Move.attempt_push_of_free free,
    Move.attempt_push_of_free (free.withCode code)]
  refine rest ⟨relocates.point, ?_, relocates.best⟩
  rw [relocates.store]
  exact (left.store.relocate_push frame).symm

omit relocates in
/-- A star goes over the text in the same way and leaves its choices to go on at the place of what is
behind it. -/
theorem sweepMoves (star : Star) (cursor : Cursor) : ∀ {left right : Search},
    left.Relocates place right → Paired (Relocates place)
      (Move.play setting left (star.sweepMoves setting.text setting.range cursor))
      (Move.play (setting.withCode code) right
        ((star.relocate place).sweepMoves setting.text setting.range cursor)) := by
  induction cursor using Star.sweepMoves.induct star setting.text setting.range with
  | case1 cursor whole ih =>
      intro left right relocates
      rw [Star.sweepMoves, Star.sweepMoves.eq_1 (star.relocate place), dif_pos whole, dif_pos whole]
      refine relocates.work_cons free fun relocates => ?_
      have rest : ∀ {left right : Search}, left.Relocates place right →
          Paired (Relocates place)
            (Move.play setting left
              (if star.failsAt setting.text cursor.position then Move.failing
                else star.sweepMoves setting.text setting.range
                  (cursor.step (setting.text.charLength cursor.position))))
            (Move.play (setting.withCode code) right
              (if (star.relocate place).failsAt setting.text cursor.position then Move.failing
                else (star.relocate place).sweepMoves setting.text setting.range
                  (cursor.step (setting.text.charLength cursor.position)))) := by
        intro left right relocates
        rw [show (star.relocate place).failsAt setting.text cursor.position =
          star.failsAt setting.text cursor.position from rfl]
        split
        · exact relocates.failing free first
        · exact ih relocates
      rw [show (star.relocate place).leavesChoice setting.text cursor.position =
        star.leavesChoice setting.text cursor.position from rfl]
      split
      · exact relocates.push_cons free _ rest
      · exact rest relocates
  | case2 cursor done =>
      intro left right relocates
      rw [Star.sweepMoves, Star.sweepMoves.eq_1 (star.relocate place), dif_neg done, dif_neg done]
      exact .goesOn ⟨rfl, relocates.store, relocates.best⟩

omit relocates first in
theorem leapMoves (star : Star) (byte : UInt8) (origin : Cursor) (stop position : Nat) :
    ∀ {left right : Search}, left.Relocates place right → Paired (Relocates place)
      (Move.play setting left (star.leapMoves setting.text byte origin stop position))
      (Move.play (setting.withCode code) right
        ((star.relocate place).leapMoves setting.text byte origin stop position)) := by
  fun_induction Star.leapMoves star setting.text byte origin stop position with
  | case1 position hit found ih =>
      intro left right relocates
      rw [Star.leapMoves.eq_1 (star.relocate place)]
      split
      · next other same =>
          obtain rfl : other = hit := Option.some.inj (same.symm.trans found)
          exact relocates.work_cons free fun relocates => relocates.push_cons free _ ih
      · next none_found => rw [found] at none_found; cases none_found
  | case2 position none_found =>
      intro left right relocates
      rw [Star.leapMoves.eq_1 (star.relocate place)]
      split
      · next other same => rw [none_found] at same; cases same
      · exact .goesOn ⟨rfl, relocates.store, relocates.best⟩

/-- A position ends a candidate of both searches. -/
theorem acceptMoves {position : Nat} :
    Paired (Relocates place) (Move.play setting left (setting.acceptMoves position))
      (Move.play (setting.withCode code) right (setting.acceptMoves position)) := by
  have considered : (left.consider setting).Relocates place
      (right.consider (setting.withCode code)) := by
    rw [consider_eq setting left, consider_eq (setting.withCode code) right]
    exact ⟨relocates.point, relocates.store, best_consider_congr relocates.candidateRegion
      (by rw [relocates.cursor]) rfl relocates.best⟩
  unfold Attempt.acceptMoves
  split
  · exact .ends (congrArg Outcome.matched relocates.candidateRegion.symm)
  split
  · exact relocates.failing free first
  split
  · rw [Move.play_cons, Move.play_cons]
    exact considered.failing free first
  · rw [Move.play_cons, Move.play_cons]
    exact considered.conclude

theorem exitMoves {exit : Exit} {point : Point} (sound : ∀ reason, exit ≠ .corrupt reason) :
    Paired (Relocates place) (Move.play setting left (setting.exitMoves point exit))
      (Move.play (setting.withCode code) right
        ((setting.withCode code).exitMoves (point.relocate place) (exit.relocate place))) := by
  cases exit with
  | goto next => exact .goesOn ⟨rfl, relocates.store, relocates.best⟩
  | fail => exact relocates.failing free first
  | sweep star => exact sweepMoves free first star point.cursor relocates
  | leap star byte => exact leapMoves free star byte point.cursor _ _ relocates
  | accept => exact relocates.acceptMoves free first
  | finish => exact relocates.conclude
  | corrupt reason => exact absurd rfl (sound reason)

end

/-- A dispatch in relocated code goes where the dispatch in the original code goes, unless that
stops the run. -/
theorem step (free : setting.Free) (relocates : left.Relocates place right) {hole : Nat}
    (relocation : Relocation place hole setting.program.code code)
    (apart : left.point.address ≠ hole)
    (sound : ∀ failure last, left.step setting ≠ .error ⟨.stopped failure, last⟩) :
    Paired (Relocates place) (left.step setting) (right.step (setting.withCode code)) := by
  cases fetched : setting.program.code[left.point.address]? with
  | none =>
      refine absurd ?_ (sound (.corrupt left.point.address .addressOutOfRange) left)
      rw [Search.step, fetched]
      rfl
  | some instruction =>
      obtain ⟨instruction', fetched', same⟩ := relocation.instruction apart fetched
      obtain ⟨next, stepped, point, store, best⟩ := Move.step_of_free free left fetched
      have accepted : ∀ reason, (Plan.ofInstruction setting.toAttempt left.point left.store
          instruction).exit ≠ .corrupt reason := by
        intro reason exit
        refine sound (.corrupt next.point.address reason) next ?_
        rw [stepped, exit]
        rfl
      have plan := Plan.ofInstruction_relocate relocation apart same accepted
      rw [relocates.point.symm, relocates.store.symm] at plan
      have stands : right.point.address = place left.point.address := by
        rw [relocates.point]
        rfl
      rw [← stands] at fetched'
      obtain ⟨next', stepped', point', store', best'⟩ :=
        Move.step_of_free (free.withCode code) right fetched'
      have plan' : Plan.ofInstruction (setting.withCode code).toAttempt right.point right.store
          instruction' = _ := plan
      have related : next.Relocates place next' := by
        refine ⟨?_, ?_, ?_⟩
        · rw [point', point, relocates.point]
        · rw [store', store, plan', Plan.relocate, Effect.relocate_onStoreAll relocation.first,
            relocates.store]
        · rw [best', best, relocates.best]
      rw [stepped, stepped', plan', relocates.point]
      exact related.exitMoves free relocation.first accepted

end Search.Relocates

end PatternMachine
