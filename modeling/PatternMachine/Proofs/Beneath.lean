import Mathlib.Data.List.Induction
import PatternMachine.Proofs.Unwritten

/-!
# What lies beneath

As long as nothing below a depth is taken off and no bracket ends that was opened there, going back
to that depth leads to what was there.  So a choice that is resumed finds the store as it was when
the choice was left (`Visit.Leads.exists_push`), whatever has happened above it meanwhile.
-/

namespace PatternMachine

/-! ### How far going back goes -/

namespace Store

variable {store : Store} {index depth : Nat} {frame : Frame}

/-- Unwinding stops at the last frame that passes its test. -/
theorem depth_unwind {test : Frame → Bool}
    (blind : ∀ frame count, test (frame.withCount count) = test frame)
    (found : store.stack.lastIndex? test = some index) : (store.unwind test).2.depth = index := by
  induction store using push_induction with
  | empty registers => cases found
  | push store top ih =>
      replace found : (store.stack.push top).lastIndex? test = some index := found
      rw [Stack.lastIndex?_push] at found
      rw [unwind_push]
      split at found
      · next passes =>
          rw [if_pos passes]
          exact Option.some.inj found
      · next fails =>
          rw [if_neg fails]
          refine ih _ (store.depth_restore top) ?_
          cases top with
          | entryCount entry count =>
              exact (Stack.lastIndex?_setEntryCount_of_blind blind _ _ _).trans found
          | _ => exact found

instance (store : Store) (index : Nat) (frame : Frame) : Decidable (store.Offers index frame) :=
  inferInstanceAs (Decidable (_ ∧ _))

namespace Offers

theorem lt_depth (offers : store.Offers index frame) : index < store.depth :=
  Stack.lt_depth_of_get? offers.1

/-- Going back leaves the choices below as they are. -/
theorem of_rewind (offers : (store.rewind depth).Offers index frame) :
    store.Offers index frame := by
  obtain ⟨original, read, same⟩ := get?_rewind offers.1
  refine ⟨?_, offers.2⟩
  rcases same with rfl | ⟨count, rfl⟩
  · exact read
  · rw [Frame.eq_of_withCount (fun _ _ _ _ _ => rfl) offers.2]
    exact read

theorem rewind (offers : store.Offers index frame) (within : depth ≤ store.depth)
    (below : index < depth) : (store.rewind depth).Offers index frame := by
  have inside : index < (store.rewind depth).stack.frames.size := by
    have sameDepth : (store.rewind depth).stack.frames.size = depth := store.depth_rewind within
    rwa [sameDepth]
  have read := Array.getElem?_eq_getElem inside
  refine ⟨read.trans (congrArg some ?_), offers.2⟩
  obtain ⟨original, readOriginal, same⟩ := get?_rewind read
  obtain rfl := Option.some.inj (offers.1.symm.trans readOriginal)
  rcases same with same | ⟨count, same⟩
  · exact same
  · rw [same]
    refine @Frame.eq_of_withCount Frame.isResumable _ _ (fun _ _ _ _ _ => rfl) ?_
    rw [Frame.isResumable_withCount]
    exact offers.2

end Offers

/-- A search goes back no further than to a choice that is offered. -/
theorem Offers.le_depth_unwind (offers : store.Offers index frame) :
    index ≤ (store.unwind Frame.isResumable).2.depth := by
  obtain ⟨last, lower, found⟩ := Stack.exists_lastIndex? offers.1 offers.2
  rw [depth_unwind Frame.isResumable_withCount found]
  exact lower

/-- A group lies where it lay if going back brings the group back, or if the group was never set. -/
theorem captures_eq_of_reverted {program : Program} {other : Store}
    (same : other.reverted program = store.reverted program) {group : Nat}
    (covered : program.Reverts group ∨ other.registers.boundsOf group = .unset ∧
      store.registers.boundsOf group = .unset) :
    other.captures group = store.captures group := by
  have bounds : other.registers.boundsOf group = store.registers.boundsOf group := by
    rcases covered with reverts | ⟨unset, wasUnset⟩
    · rw [← boundsOf_reverted program other reverts, same, boundsOf_reverted _ _ reverts]
    · rw [unset, wasUnset]
  have stack : (other.reverted program).stack = (store.reverted program).stack := by rw [same]
  rw [stack_reverted, stack_reverted] at stack
  simp only [captures, resolveBounds, resolve?, bounds, stack]

/-- The entries of repeats and their counts are among what going back brings back. -/
theorem repeat_eq_of_reverted {program : Program} {other : Store}
    (same : other.reverted program = store.reverted program) (id : Nat) :
    (other.registers.repeatOf id).entry = (store.registers.repeatOf id).entry ∧
      (other.registers.repeatOf id).count = (store.registers.repeatOf id).count := by
  have recorded : ∀ store : Store, (store.reverted program).registers.repeatOf id =
      (store.registers.repeatOf id).record := fun store => store.repeatOf_forgetBodies id
  have registers : (other.registers.repeatOf id).record = (store.registers.repeatOf id).record := by
    rw [← recorded, same, recorded]
  injection registers with entry count body
  exact ⟨entry, count⟩

end Store

/-! ### Visits above a depth -/

namespace Visit

/-- Whether a visit does what its move says, and can be undone. -/
structure Undoable (program : Program) (visit : Visit) : Prop where
  made : visit.after.store = visit.move.onStore visit.before.store
  reversible : visit.move.Reversible program
  discards : visit.DiscardsChoice

variable {program : Program} {visit : Visit} {visits : List Visit} {first last : Search}
  {index depth : Nat} {frame : Frame}

/-- What is offered after a visit leads back to what it led back to before, or it was pushed. -/
theorem Undoable.offers (undoable : visit.Undoable program)
    (offers : visit.after.store.Offers index frame) :
    (visit.before.store.Offers index frame ∧
      (visit.after.store.rewind index).reverted program =
        (visit.before.store.rewind index).reverted program) ∨
      index = visit.before.store.depth ∧ visit.move = .perform (.push frame) ∧
        (visit.after.store.rewind index).reverted program =
          visit.before.store.reverted program := by
  rw [undoable.made] at offers ⊢
  have same := Move.reverted_rewind_onStore undoable.reversible undoable.discards offers
  rcases Move.offers_of_onStore offers with older | ⟨rfl, pushes⟩
  · exact .inl ⟨older, same (Nat.le_of_lt older.lt_depth)⟩
  · refine .inr ⟨rfl, pushes, ?_⟩
    rw [same (Nat.le_refl _), Store.rewind_depth]

/-- What is offered was offered ever since the run has stayed above it, and leads back to what it
led back to then. -/
theorem Leads.offers (leads : Leads first last visits)
    (undoable : ∀ visit ∈ visits, visit.Undoable program) (higher : index < first.store.depth)
    (above : ∀ visit ∈ visits, index < visit.after.store.depth)
    (offers : last.store.Offers index frame) :
    first.store.Offers index frame ∧
      (last.store.rewind index).reverted program = (first.store.rewind index).reverted program := by
  induction visits generalizing first with
  | nil =>
      cases leads
      exact ⟨offers, rfl⟩
  | cons visit visits ih =>
      obtain ⟨rfl, leads⟩ := leads
      obtain ⟨later, same⟩ := ih leads
        (fun other mem => undoable other (List.mem_cons_of_mem visit mem))
        (above visit List.mem_cons_self)
        fun other mem => above other (List.mem_cons_of_mem visit mem)
      rcases (undoable visit List.mem_cons_self).offers later with ⟨older, same'⟩ | ⟨atTop, _⟩
      · exact ⟨older, same.trans same'⟩
      · exact absurd higher (by rw [atTop]; exact Nat.lt_irrefl _)

/-- What is offered was pushed, the run has stayed above it ever since, and going back to it leads
to what was there then. -/
theorem Leads.exists_push (leads : Leads first last visits)
    (undoable : ∀ visit ∈ visits, visit.Undoable program)
    (nothing : ¬ first.store.Offers index frame) (offers : last.store.Offers index frame) :
    ∃ before push between, visits = before ++ push :: between ∧
      push.move = .perform (.push frame) ∧ push.before.store.depth = index ∧
      (∀ visit ∈ between, index < visit.after.store.depth) ∧
      (last.store.rewind index).reverted program = push.before.store.reverted program := by
  induction visits using List.reverseRecOn generalizing last with
  | nil =>
      cases leads
      exact absurd offers nothing
  | append_singleton visits visit ih =>
      obtain ⟨_, earlier, rfl, rfl⟩ := leads.split
      have above := offers.lt_depth
      rcases (undoable visit (by simp)).offers offers with ⟨older, same⟩ | ⟨rfl, pushes, same⟩
      · obtain ⟨before, push, between, rfl, pushes, atIndex, above', same'⟩ :=
          ih earlier (fun other mem => undoable other (List.mem_append_left _ mem)) older
        refine ⟨before, push, between ++ [visit], by simp, pushes, atIndex, ?_, same.trans same'⟩
        intro other mem
        rcases List.mem_append.1 mem with mem | mem
        · exact above' other mem
        · obtain rfl := List.mem_singleton.1 mem
          exact above
      · exact ⟨visits, visit, [], rfl, pushes, rfl, by simp, same⟩

/-- While a run stays above a depth and ends no bracket that was opened below, going back to that
depth leads to the same. -/
theorem Leads.reverted_rewind (leads : Leads first last visits)
    (undoable : ∀ visit ∈ visits, visit.Undoable program) (start : depth ≤ first.store.depth)
    (above : ∀ visit ∈ visits, depth ≤ visit.after.store.depth)
    (closes : ∀ visit ∈ visits, ∀ mark, visit.move = .perform (.commit mark) →
      ∃ last, visit.before.store.stack.lastIndex? (Frame.isMark mark) = some last ∧
        depth ≤ last) :
    depth ≤ last.store.depth ∧
      (last.store.rewind depth).reverted program = (first.store.rewind depth).reverted program := by
  refine (@Leads.invariant (fun state => depth ≤ state.store.depth ∧
    (state.store.rewind depth).reverted program = (first.store.rewind depth).reverted program)
    first last visits leads ⟨start, rfl⟩ ?_).2
  rintro visit mem ⟨within, same⟩
  have deep := above visit mem
  refine ⟨deep, ?_⟩
  have undone := undoable visit mem
  rw [undone.made] at deep ⊢
  rw [Move.reverted_rewind undone.reversible undone.discards (closes visit mem) within deep, same]

end Visit

namespace Search

variable {setting : Setting} {search : Search} {dispatches : Nat} {visit : Visit}

/-- Every visit of a run that throws away nothing but choices can be undone. -/
theorem undoable_of_mem_trail (mem : visit ∈ trail setting dispatches search)
    (discards : visit.DiscardsChoice) : visit.Undoable setting.program where
  made := store_of_mem_trail mem
  reversible := by
    obtain ⟨_, _, made⟩ := exists_mem_dispatched mem
    exact Attempt.reversible_of_mem_moves made
  discards := discards

/-- A search that goes back and goes on was offered the choice to which it has gone back. -/
theorem offers_of_backtrack (mem : visit ∈ trail setting dispatches search)
    (resumes : visit.move = .backtrack) :
    ∃ frame, visit.before.store.Offers visit.after.store.depth frame ∧
      frame.resume? = some visit.after.point ∧
      visit.after.store = visit.before.store.rewind visit.after.store.depth := by
  have resumed := attempt_of_mem_trail mem
  rw [resumes, Move.attempt] at resumed
  split at resumed
  · next point store back =>
      obtain ⟨frame, found, resumesAt⟩ := Option.bind_eq_some_iff.1 (congrArg Prod.fst back)
      have below : (visit.before.store.unwind Frame.isResumable).2 = store := congrArg Prod.snd back
      have offers := Store.offers_of_unwind found
      have rewound := (Store.unwind_eq_rewind (fun _ => Frame.IsPlain.of_isResumable)
        visit.before.store).2
      rw [below] at offers rewound
      rw [← Except.ok.inj resumed]
      exact ⟨frame, offers, resumesAt, rewound⟩
  · cases resumed

end Search

end PatternMachine
