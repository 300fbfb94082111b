import PatternMachine.Proofs.Exploration.Loop

/-!
# Searches that settle

A search with a choice below it finds what there is to find, and then goes back to the choice.  It
settles on what it is to find if it has found that, no more and no less, when it fails as the store
it has come from would, or when it is cut short (`Search.Settles`).  What is found behind a block is
what is found by going through it, one state after the other (`Search.settles_block`).
-/

namespace PatternMachine

variable {setting : Setting}

/-- Whether a search that is made to fail at an address finds a number of states there before it
fails as a store does, or finds them with a bounded number of dispatches or failures. -/
inductive Search.Settles (setting : Setting) (id stop floor : Nat) (store : Store) (bound : Nat)
    (search : Search) (expected : Findings Scene) : Prop
  | yields (found : List Search) {result : Except Ending Search} (spent : Nat)
      (some_spent : 0 < spent) (fails : store.FailsTo setting.program result)
      (tries : ∀ fuel, search.tries setting stop floor (spent + fuel) =
        (⟨found, true⟩ : Findings Search).append
          (.onward floor (Search.tries setting stop floor fuel) result))
      (seen : expected = ⟨found.map (Search.scene id), true⟩) :
      Settles setting id stop floor store bound search expected
  | cuts (found : List Search) (many : Nat) (enough : bound ≤ many)
      (tries : search.tries setting stop floor many = ⟨found, false⟩)
      (seen : expected = ⟨found.map (Search.scene id), false⟩) :
      Settles setting id stop floor store bound search expected

/-- What a search finds that fails as a store does is nothing, if it goes on no lower than that. -/
theorem Store.FailsTo.onward_eq {program : Program} {store : Store}
    {result : Except Ending Search} (fails : store.FailsTo program result) {α : Type}
    (goOn : Search → Findings α) : Findings.onward store.depth goOn result = .none := by
  cases fails with
  | resumed back below orderly =>
      have lower := (Store.FailsTo.resumed back below orderly).depth_lt
      exact if_neg (Nat.not_le.2 lower)
  | exhausted noChoice answered =>
      rw [Findings.onward, answered]
      rfl

namespace Search.Settles

variable {id stop floor bound : Nat} {store other : Store} {search next : Search}
  {expected rest : Findings Scene}

/-- What settles before one store does so before another one that it fails as. -/
theorem of_unwindsAs (settles : search.Settles setting id stop floor store bound expected)
    (unwinds : store.UnwindsAs Frame.isResumable other) :
    search.Settles setting id stop floor other bound expected := by
  cases settles with
  | yields found spent some_spent fails tries seen =>
      exact .yields found spent some_spent (fails.congr unwinds) tries seen
  | cuts found many enough tries seen => exact .cuts found many enough tries seen

theorem mono (settles : search.Settles setting id stop floor store bound expected) {less : Nat}
    (within : less ≤ bound) : search.Settles setting id stop floor store less expected := by
  cases settles with
  | yields found spent some_spent fails tries seen =>
      exact .yields found spent some_spent fails tries seen
  | cuts found many enough tries seen =>
      exact .cuts found many (Nat.le_trans within enough) tries seen

/-- A dispatch elsewhere finds nothing by itself. -/
theorem of_step (settles : next.Settles setting id stop floor store bound expected)
    (elsewhere : search.point.address ≠ stop) (stepped : search.step setting = .ok next)
    (above : floor ≤ next.store.depth) :
    search.Settles setting id stop floor store (bound + 1) expected := by
  have goesOn : ∀ fuel, search.tries setting stop floor (fuel + 1) =
      next.tries setting stop floor fuel := by
    intro fuel
    rw [tries, if_neg elsewhere, stepped]
    exact if_pos above
  cases settles with
  | yields found spent some_spent fails tries seen =>
      refine .yields found (spent + 1) (Nat.succ_pos spent) fails (fun fuel => ?_) seen
      rw [Nat.succ_add, goesOn, tries]
  | cuts found many enough tries seen =>
      exact .cuts found (many + 1) (Nat.succ_le_succ enough) ((goesOn many).trans tries) seen

/-- A search that fails with a store, and with nothing found so far, settles on nothing. -/
theorem nothing (elsewhere : search.point.address ≠ stop)
    (fails : store.FailsTo setting.program (search.step setting)) :
    search.Settles setting id stop floor store bound .none := by
  refine .yields [] 1 Nat.one_pos fails (fun fuel => ?_) rfl
  rw [Nat.add_comm, tries, if_neg elsewhere]
  rfl

/-- A search that comes to the address is found there. -/
theorem one (free : setting.Free) (orderly : search.store.Orderly setting.program)
    (here : search.point.address = stop) :
    search.Settles setting id stop floor search.store bound (.one (search.scene id)) := by
  have fails := failsTo_failing free orderly
  rw [Move.play_failing] at fails
  refine .yields [search] 1 Nat.one_pos fails (fun fuel => ?_) rfl
  rw [Nat.add_comm, tries, if_pos here]
  rfl

/-- What is found first and then from what the search goes back to. -/
theorem append (settles : search.Settles setting id stop floor store bound expected) {less : Nat}
    (within : bound ≤ less + 1)
    (goesOn : ∀ result, store.FailsTo setting.program result →
      (∃ next, result = .ok next ∧ floor ≤ next.store.depth ∧
        next.Settles setting id stop floor other less rest) ∨
      (other.FailsTo setting.program result ∧ rest = .none)) :
    search.Settles setting id stop floor other bound (expected.append rest) := by
  cases settles with
  | cuts found many enough tries seen =>
      subst seen
      exact .cuts found many enough tries rfl
  | @yields found result spent some_spent fails tries seen =>
      subst seen
      rcases goesOn result fails with ⟨next, rfl, above, settles⟩ | ⟨fails', rfl⟩
      · have onward : ∀ fuel, Findings.onward floor (Search.tries setting stop floor fuel)
            (.ok next) = next.tries setting stop floor fuel := fun fuel => if_pos above
        cases settles with
        | yields found' spent' some_spent' fails' tries' seen' =>
            subst seen'
            refine .yields (found ++ found') (spent + spent') (Nat.add_pos_left some_spent _) fails'
              (fun fuel => ?_) ?_
            · rw [Nat.add_assoc, tries, onward, tries', ← Findings.append_assoc]
              rfl
            · rw [List.map_append]
              rfl
        | cuts found' many enough' tries' seen' =>
            subst seen'
            refine .cuts (found ++ found') (spent + many) (by omega) ?_ ?_
            · rw [tries, onward, tries']
              rfl
            · rw [List.map_append]
              rfl
      · rw [Findings.append_none]
        exact .yields found spent some_spent fails' tries rfl

end Search.Settles

/-! ### Going through a block -/

namespace Loop

variable {loop : Loop}

/-- What a search comes to in the block of a loop may be dispatched there. -/
theorem Encloses.exists_fits (encloses : loop.Encloses setting)
    (stands : loop.Stands setting.program) (once : loop.CountsOnce setting.program)
    {entry search : Search} (entered : entry.point.address = loop.first)
    (orderly : entry.store.Orderly setting.program)
    (within : entry.Within setting loop.stop search)
    (inside : search.point.address ≠ loop.stop) :
    ∃ instruction, setting.program.code[search.point.address]? = some instruction ∧
      instruction.Fits setting.program loop.id entry.store search.store := by
  obtain ⟨lower, upper⟩ := encloses.confined entry search entered orderly within
  have before : search.point.address < loop.stop := Nat.lt_of_le_of_ne upper inside
  have inCode : loop.stop < setting.program.code.size :=
    (Array.getElem?_eq_some_iff.1 stands.counts).1
  have fetched := Array.getElem?_eq_getElem (Nat.lt_trans before inCode)
  refine ⟨_, fetched, encloses.enclosed _ _ lower before fetched, ?_, ?_, ?_⟩
  · intro own
    have isRepeat : setting.program.repeatAt? search.point.address = some loop.id := by
      rw [Program.repeatAt?, fetched]
      exact own
    rcases stands.alone _ isRepeat with isStart | isStop
    · rw [isStart] at lower
      exact Nat.not_succ_le_self _ lower
    · exact inside isStop
  · intro other greedy isNext
    exact once _ other greedy lower before (fetched.trans (congrArg some isNext))
  · intro mark closes
    exact encloses.closes entry search _ mark entered orderly within before fetched closes

end Loop

/-- A search that goes through the block of a loop, abreast of one that has never heard of the loop,
settles on what that leads to from all the states in which it comes through the block. -/
theorem Search.settles_block (free : setting.Free) (restorable : setting.program.Restorable)
    {loop : Loop} (stands : loop.Stands setting.program) (encloses : loop.Encloses setting)
    (once : loop.CountsOnce setting.program) {entry : Search}
    (entered : entry.point.address = loop.first) (orderly : entry.store.Orderly setting.program)
    {base : Store} {count floor bound : Nat}
    (start : entry.store.Alike loop.id loop.direct count base) (above : floor ≤ base.depth)
    {onward : Search → Findings Search}
    (through : ∀ {left right : Search},
      left.Abreast setting.program loop.id loop.direct count entry.store base right →
        left.point.address = loop.stop → floor ≤ right.store.depth →
          right.Settles setting loop.id loop.exit floor right.store bound
            ((onward left).map (scene loop.id)))
    {fuel : Nat} (enough : fuel ≤ bound) {left right : Search}
    (abreast : left.Abreast setting.program loop.id loop.direct count entry.store base right)
    (within : entry.Within setting loop.stop left) :
    right.Settles setting loop.id loop.exit floor base fuel
      (((left.tries setting loop.stop entry.store.depth fuel).flatMap onward).map
        (scene loop.id)) := by
  induction fuel generalizing left right with
  | zero => exact .cuts [] 0 (Nat.le_refl _) rfl rfl
  | succ fuel ih =>
      have ih := fun {left right} => @ih (Nat.le_of_succ_le enough) left right
      have raised : ∀ {next next' : Search},
          next.Abreast setting.program loop.id loop.direct count entry.store base next' →
            entry.store.depth ≤ next.store.depth ∧ floor ≤ next'.store.depth := fun goesOn =>
        ⟨goesOn.tandem.depth.1, Nat.le_trans above goesOn.tandem.depth.2⟩
      by_cases atStop : left.point.address = loop.stop
      · rw [tries, if_pos atStop, Findings.flatMap_append, Findings.flatMap_one,
          Findings.map_append]
        refine ((through abreast atStop (raised abreast).2).mono enough).append (Nat.le_refl _) ?_
        intro result fails'
        have fails := failsTo_failing free abreast.orderly
        rw [Move.play_failing] at fails
        rcases abreast.of_failsTo fails fails' with ⟨next, next', same, same', goesOn⟩ | ⟨out, out'⟩
        · refine .inl ⟨next', same', (raised goesOn).2, ?_⟩
          have tried := ih goesOn (.retried within atStop same (raised goesOn).1)
          rw [same, Findings.onward, if_pos (raised goesOn).1]
          exact tried
        · refine .inr ⟨out', ?_⟩
          rw [out.onward_eq]
          rfl
      · obtain ⟨lower, upper⟩ := encloses.confined entry left entered orderly within
        have elsewhere : right.point.address ≠ loop.exit := by
          rw [abreast.here, Loop.exit]
          exact Nat.ne_of_lt (Nat.lt_succ_of_le upper)
        obtain ⟨instruction, fetched, fits⟩ :=
          encloses.exists_fits stands once entered orderly within atStop
        have proceed := abreast.step free start restorable fetched fits
        rw [tries, if_neg atStop]
        revert proceed
        generalize stepped : left.step setting = result, stepped' : right.step setting = result'
        intro proceed
        cases proceed with
        | inside goesOn =>
            have tried := ih goesOn (.dispatched within atStop stepped (raised goesOn).1)
            rw [Findings.onward, if_pos (raised goesOn).1]
            exact tried.of_step elsewhere stepped' (raised goesOn).2
        | outside fails fails' =>
            rw [fails.onward_eq]
            exact .nothing elsewhere (stepped' ▸ fails')
        | stopped stopped stopped' =>
            refine .cuts [] (fuel + 1) (Nat.le_refl _) ?_ ?_
            · rw [tries, if_neg elsewhere, stepped', Findings.onward, stopped']
              rfl
            · rw [Findings.onward, stopped]
              rfl

end PatternMachine
