import Mathlib.Data.List.Chain
import PatternMachine.Proofs.Budget
import PatternMachine.Proofs.Reversal

/-!
# The route of a run

A search that fails goes back to a choice, and what came after the choice was left is undone.  The
route to where a run has come are the dispatches that are not undone (`Search.route`).  Each of them
leads to the next one, at once or by way of a choice that it has left, and with what it has made of
the store (`Search.traced_route`).  That holds for runs that throw away nothing but choices.
-/

namespace PatternMachine

/-! ### The order of the moves of a dispatch -/

/-- Whether a move neither takes a frame off nor counts a failure. -/
def Move.Climbs (move : Move) : Prop :=
  move.Raises ∧ move ≠ .fail

/-- How a dispatch may end after all moves that climb. -/
inductive Move.Closes : List Move → Prop
  | onward : Closes []
  | discard {point : Point} : Closes [.perform .discard, .goto point]
  | fail : Closes failing
  | exclude {mark : Mark} : Closes (.perform (.unwindTo mark) :: failing)

/-- Whether moves climb first and leave no choice from then on. -/
def Move.Ordered (moves : List Move) : Prop :=
  ∃ climbing closing, moves = climbing ++ closing ∧ (∀ move ∈ climbing, move.Climbs) ∧
    Closes closing

namespace Move

variable {move : Move} {moves : List Move}

theorem Climbs.of_still (still : ∀ store : Store, move.onStore store = store)
    (noFailure : move ≠ .fail) : move.Climbs :=
  ⟨fun store => Nat.le_of_eq (congrArg Store.depth (still store)).symm, noFailure⟩

theorem Climbs.ne_discard (climbs : move.Climbs) : move ≠ .perform .discard := by
  rintro rfl
  exact absurd (climbs.1 (Store.push (.blank 0 0) .void)) (by decide)

/-- To unwind takes off whatever does not pass the test. -/
theorem not_climbs_of_unwind {test : Frame → Bool} (fails : test .void = false)
    (unwinds : ∀ store, (move.onStore store).depth = (store.unwind test).2.depth) :
    ¬ move.Climbs := by
  intro climbs
  have deeper := climbs.1 (Store.push (.blank 0 0) .void)
  have emptied : ((Store.push (.blank 0 0) .void).unwind test).2.depth = 0 := by
    rw [Store.unwind_push, fails]
    exact congrArg (fun found => found.2.depth) (Store.unwind_blank test _)
  rw [unwinds, emptied, Store.depth_push] at deeper
  exact absurd deeper (Nat.not_succ_le_zero _)

theorem Climbs.ne_backtrack (climbs : move.Climbs) : move ≠ .backtrack := by
  rintro rfl
  exact not_climbs_of_unwind rfl (fun _ => rfl) climbs

theorem Climbs.ne_unwindTo (climbs : move.Climbs) (mark : Mark) :
    move ≠ .perform (.unwindTo mark) := by
  rintro rfl
  have fails : Frame.isMark mark .void = false := by cases mark <;> rfl
  exact not_climbs_of_unwind fails (fun _ => rfl) climbs

theorem Ordered.cons (climbs : move.Climbs) (ordered : Ordered moves) :
    Ordered (move :: moves) := by
  obtain ⟨climbing, closing, rfl, all, closes⟩ := ordered
  refine ⟨move :: climbing, closing, rfl, ?_, closes⟩
  intro other mem
  rcases List.mem_cons.1 mem with rfl | mem
  · exact climbs
  · exact all other mem

theorem Ordered.append {first : List Move} (climb : ∀ move ∈ first, move.Climbs)
    (ordered : Ordered moves) : Ordered (first ++ moves) := by
  induction first with
  | nil => exact ordered
  | cons move first ih =>
      exact (ih fun other mem => climb other (List.mem_cons_of_mem move mem)).cons
        (climb move List.mem_cons_self)

theorem Closes.ordered (closes : Closes moves) : Ordered moves :=
  ⟨[], moves, rfl, by simp, closes⟩

end Move

/-- Only to throw a frame away or to give up an attempt takes frames off. -/
theorem Effect.climbs {effect : Effect} (keeps : effect ≠ .discard)
    (goesOn : ∀ mark, effect ≠ .unwindTo mark) : (Move.perform effect).Climbs := by
  refine ⟨?_, Move.noConfusion⟩
  cases effect with
  | note event | setGroup group bounds => exact fun store => Nat.le_refl _
  | commit mark => exact fun store => Nat.le_of_eq (store.depth_commit mark).symm
  | discard => exact absurd rfl keeps
  | unwindTo mark => exact absurd rfl (goesOn mark)
  | _ => exact Effect.raises_of_needsRoom rfl

theorem Star.Sweeps.ordered {star : Star} {moves : List Move} (sweeps : star.Sweeps moves) :
    Move.Ordered moves := by
  induction sweeps with
  | goto => exact .cons (.of_still (fun _ => rfl) Move.noConfusion) Move.Closes.onward.ordered
  | failing => exact Move.Closes.fail.ordered
  | work rest ih => exact .cons (.of_still (fun _ => rfl) Move.noConfusion) ih
  | choice rest ih => exact .cons (Effect.climbs nofun nofun) ih

namespace Attempt

open Move

variable (attempt : Attempt) (point : Point) (store : Store)

theorem ordered_exitMoves (exit : Exit) : Ordered (attempt.exitMoves point exit) := by
  have still : ∀ move : Move, (∀ store, move.onStore store = store) → move ≠ .fail →
      Ordered [move] := fun move still noFailure =>
    .cons (.of_still still noFailure) Closes.onward.ordered
  cases exit with
  | goto next | corrupt reason | finish => exact still _ (fun _ => rfl) Move.noConfusion
  | fail => exact Closes.fail.ordered
  | sweep star => exact (star.sweeps_sweepMoves ..).ordered
  | leap star byte => exact (star.sweeps_leapMoves ..).ordered
  | accept =>
      simp only [exitMoves, acceptMoves]
      split
      · exact still _ (fun _ => rfl) Move.noConfusion
      split
      · exact Closes.fail.ordered
      split
      · exact .cons (.of_still (fun _ => rfl) Move.noConfusion) Closes.fail.ordered
      · exact .cons (.of_still (fun _ => rfl) Move.noConfusion)
          (still _ (fun _ => rfl) Move.noConfusion)

theorem ordered_planMoves (instruction : Instruction) :
    Ordered (attempt.planMoves point (.ofInstruction attempt point store instruction)) := by
  have reject : ∀ reason, Ordered (attempt.planMoves point (.corrupt reason)) :=
    fun reason => attempt.ordered_exitMoves point (.corrupt reason)
  cases takesOff : (Plan.ofInstruction attempt point store instruction).effects.all
      (fun effect => match effect with | .discard | .unwindTo _ => false | _ => true) with
  | true =>
      refine .append ?_ (attempt.ordered_exitMoves point _)
      intro move mem
      obtain ⟨effect, effectMem, rfl⟩ := List.mem_map.1 mem
      have keeps := List.all_eq_true.1 takesOff effect effectMem
      refine Effect.climbs ?_ ?_
      · rintro rfl
        cases keeps
      · rintro mark rfl
        cases keeps
  | false =>
      obtain ⟨effect, effectMem, takes⟩ := List.all_eq_false.1 takesOff
      cases causes_of_mem_effects effectMem with
      | discard =>
          simp only [Plan.ofInstruction, Plan.pop]
          split
          · exact reject _
          · exact Closes.discard.ordered
      | lookNotFail | behindNotFail =>
          simp only [Plan.ofInstruction, Plan.excluded]
          split
          · exact Closes.exclude.ordered
          · exact reject _
      | _ => exact absurd rfl takes

/-- A dispatch leaves its choices before it takes a frame off. -/
theorem ordered_moves : Ordered (attempt.moves point store) := by
  have still : ∀ move : Move, (∀ store, move.onStore store = store) → move ≠ .fail →
      move.Climbs := fun move => .of_still
  unfold moves
  split
  · exact .cons (still _ (fun _ => rfl) Move.noConfusion) Closes.onward.ordered
  · exact .cons (still _ (fun _ => rfl) Move.noConfusion)
      (.cons (still _ (fun _ => rfl) Move.noConfusion) (attempt.ordered_planMoves point store _))

end Attempt

/-! ### Parts of a list of moves -/

namespace Move

variable {setting : Setting} {search last : Search} {moves more : List Move}

theorem trail_append_of_play (played : play setting search moves = .ok last) (more : List Move) :
    trail setting search (moves ++ more) =
      trail setting search moves ++ trail setting last more := by
  refine @play_invariant setting search
    (fun state moves => trail setting state (moves ++ more) =
      trail setting state moves ++ trail setting last more) last moves rfl ?_ played
  intro state next move moves attempted behind
  rw [List.cons_append, trail, trail, attempted]
  exact congrArg (_ :: ·) behind

/-- What is thrown away after some moves is a choice, if the trail throws away nothing else. -/
theorem topIsChoice_of_trail (played : play setting search moves = .ok last)
    (discards : ∀ visit ∈ trail setting search (moves ++ .perform .discard :: more),
      visit.DiscardsChoice) : last.store.topIsChoice = true := by
  rw [trail_append_of_play played] at discards
  exact discards ⟨last, .perform .discard, _⟩ (List.mem_append_right _ List.mem_cons_self) rfl

/-- A visit is made where the moves before it have led. -/
theorem split_of_mem_trail {visit : Visit} (mem : visit ∈ trail setting search moves) :
    ∃ before after, moves = before ++ visit.move :: after ∧
      play setting search before = .ok visit.before := by
  induction moves generalizing search with
  | nil => cases mem
  | cons move moves ih =>
      rw [trail] at mem
      cases attempted : move.attempt setting search with
      | error ending =>
          rw [attempted] at mem
          cases mem
      | ok next =>
          rw [attempted] at mem
          rcases List.mem_cons.1 mem with rfl | mem
          · exact ⟨[], moves, rfl, rfl⟩
          · obtain ⟨before, after, rfl, played⟩ := ih mem
            refine ⟨move :: before, after, rfl, ?_⟩
            rw [play_cons, attempted]
            exact played

/-- Moves count the failures among them. -/
theorem failures_eq_of_play (played : play setting search moves = .ok last) :
    last.failures = search.failures + moves.count .fail := by
  refine count_of_play (fun {state next move} attempted => ?_) played
  rw [@Visit.failures_of_attempt setting ⟨state, move, next⟩ attempted, List.count_singleton]
  simp only [beq_iff_eq]

/-- Moves among which no failure is counted count none. -/
theorem failures_of_play (played : play setting search moves = .ok last)
    (none_fails : .fail ∉ moves) : last.failures = search.failures := by
  rw [failures_eq_of_play played, List.count_eq_zero_of_not_mem none_fails, Nat.add_zero]

/-- A search that fails and goes on has gone back to a choice. -/
theorem of_play_failing (failed : play setting search failing = .ok last) :
    last.failures = search.failures + 1 ∧
      search.store.backtrack = (some last.point, last.store) := by
  rw [play_failing, Search.fail] at failed
  dsimp only at failed
  split at failed
  · cases failed
  split at failed
  · cases failed
  split at failed
  · next point store back =>
      cases failed
      exact ⟨rfl, back⟩
  · cases failed

end Move

/-! ### Routes -/

namespace Search

/-- What is left of a route when the search goes back to what lies on a number of frames: the
dispatch that has left it, and those before. -/
def cutBack (depth : Nat) (path : List Search) : List Search :=
  path.dropWhile fun earlier => depth < earlier.store.depth

/-- The route to where a dispatch has led, the latest dispatch first.  If the search has failed, the
route is cut back. -/
def extend (path : List Search) (search next : Search) : List Search :=
  if search.failures < next.failures then cutBack next.store.depth (search :: path)
  else search :: path

/-- The dispatches on the route to where a run has come after at most a number of dispatches, the
latest one first.  The route up to the start of the run is given. -/
def route (setting : Setting) : (dispatches : Nat) → (path : List Search) → Search → List Search
  | 0, path, _ => path
  | dispatches + 1, path, search =>
      match search.step setting with
      | .ok next => route setting dispatches (extend path search next) next
      | .error _ => path

/-- Whether a dispatch lets the search go on at a point with a store: at once, or when the search
goes back to what the dispatch has left. -/
inductive Leaves (setting : Setting) (search : Search) : Point → Store → Prop
  | atOnce {next : Search} (stepped : search.step setting = .ok next)
      (goesOn : next.failures = search.failures) : Leaves setting search next.point next.store
  | later {visit : Visit} {frame : Frame} {point : Point}
      (mem : visit ∈ Move.trail setting search (setting.moves search.point search.store))
      (pushes : visit.move = .perform (.push frame)) (resumes : frame.resume? = some point) :
      Leaves setting search point visit.before.store

/-- Whether a search stands where another one has let it go on, with the same store as far as that
comes back. -/
def Follows (setting : Setting) (next search : Search) : Prop :=
  ∃ left, search.Leaves setting next.point left ∧
    next.store.reverted setting.program = left.reverted setting.program

/-- A search that follows a dispatch has the stack that was left, and what groups were set to that
going back brings back. -/
theorem Follows.exists_left {setting : Setting} {next search : Search}
    (follows : Follows setting next search) :
    ∃ left, search.Leaves setting next.point left ∧ next.store.stack = left.stack ∧
      ∀ group, setting.program.Reverts group →
        next.store.registers.boundsOf group = left.registers.boundsOf group := by
  obtain ⟨left, leaves, same⟩ := follows
  refine ⟨left, leaves, Store.stack_eq_of_reverted same, ?_⟩
  intro group reverts
  have bounds := congrArg (fun store => store.registers.boundsOf group) same
  rwa [Store.boundsOf_reverted _ _ reverts, Store.boundsOf_reverted _ _ reverts] at bounds

section

variable {depth : Nat} {search : Search} {path : List Search}

theorem cutBack_cons_of_lt (above : depth < search.store.depth) :
    cutBack depth (search :: path) = cutBack depth path :=
  List.dropWhile_cons_of_pos (decide_eq_true above)

theorem cutBack_cons_of_le (within : search.store.depth ≤ depth) :
    cutBack depth (search :: path) = search :: path :=
  List.dropWhile_cons_of_neg (by simpa using within)

theorem cutBack_suffix (depth : Nat) (path : List Search) : cutBack depth path <:+ path :=
  List.dropWhile_suffix _

/-- To cut a route back in two stages is to cut it back at once. -/
theorem cutBack_cutBack {low high : Nat} (lower : low ≤ high) (path : List Search) :
    cutBack low (cutBack high path) = cutBack low path := by
  induction path with
  | nil => rfl
  | cons earlier path ih =>
      by_cases deep : high < earlier.store.depth
      · rw [cutBack_cons_of_lt deep, ih, cutBack_cons_of_lt (Nat.lt_of_le_of_lt lower deep)]
      · rw [cutBack_cons_of_le (Nat.not_lt.1 deep)]

end

end Search

open Search

/-- Whether each choice that a store offers was left by the dispatch to which going back to the
choice cuts a route back. -/
def Store.Recalls (setting : Setting) (path : List Search) (store : Store) : Prop :=
  ∀ index frame point, store.Offers index frame → frame.resume? = some point →
    ∃ search rest left, cutBack index path = search :: rest ∧ search.Leaves setting point left ∧
      (store.rewind index).reverted setting.program = left.reverted setting.program

namespace Store.Recalls

variable {setting : Setting} {path : List Search} {store : Store} {move : Move}

theorem reset (path : List Search) (store : Store) : store.reset.Recalls setting path := by
  intro index frame point offers
  cases offers.1

/-- A dispatch comes after everything that its own store offers. -/
theorem cons {search : Search} (recalls : search.store.Recalls setting path) :
    search.store.Recalls setting (search :: path) := by
  intro index frame point offers resumes
  rw [cutBack_cons_of_lt (Stack.lt_depth_of_get? offers.1)]
  exact recalls index frame point offers resumes

/-- Every move leaves choices as they were or pushes one. -/
theorem onStore (recalls : store.Recalls setting path)
    (reversible : move.Reversible setting.program)
    (discards : move = .perform .discard → store.topIsChoice = true)
    (pushes : ∀ frame point, move = .perform (.push frame) → frame.resume? = some point →
      ∃ search rest, cutBack store.depth path = search :: rest ∧
        search.Leaves setting point store) : (move.onStore store).Recalls setting path := by
  intro index frame point offers resumes
  have same := Move.reverted_rewind_onStore reversible discards offers
  rcases Move.offers_of_onStore offers with older | ⟨rfl, isPush⟩
  · obtain ⟨origin, rest, left, cut, leaves, recalled⟩ := recalls index frame point older resumes
    refine ⟨origin, rest, left, cut, leaves, ?_⟩
    rw [same (Nat.le_of_lt (Stack.lt_depth_of_get? older.1)), recalled]
  · obtain ⟨origin, rest, cut, leaves⟩ := pushes frame point isPush resumes
    refine ⟨origin, rest, store, cut, leaves, ?_⟩
    rw [same (Nat.le_refl _), Store.rewind_depth]

/-- What is offered lies within the store, so the route may be cut back to that. -/
theorem cut (recalls : store.Recalls setting path) :
    store.Recalls setting (cutBack store.depth path) := by
  intro index frame point offers resumes
  have inside : index < store.depth := Stack.lt_depth_of_get? offers.1
  rw [cutBack_cutBack (Nat.le_of_lt inside)]
  exact recalls index frame point offers resumes

variable {search last : Search} {moves rest : List Move}

/-- While a dispatch climbs, what it leaves is left by it. -/
theorem climb (recalls : search.store.Recalls setting path)
    (split : setting.moves search.point search.store = moves ++ rest)
    (climbs : ∀ move ∈ moves, move.Climbs) (played : Move.play setting search moves = .ok last) :
    last.store.Recalls setting (search :: path) := by
  obtain ⟨_, leads, ends⟩ := Move.leads_trail setting search moves
  obtain rfl := ends last played
  have rises := @Move.le_depth_of_raises setting search moves fun move mem => (climbs move mem).1
  refine (@Visit.Leads.invariant (fun state => state.store.Recalls setting (search :: path)) search
    last _ leads recalls.cons ?_).2
  intro visit mem before
  obtain ⟨moveMem, attempted⟩ := Move.of_mem_trail mem
  have made : visit.move ∈ setting.moves search.point search.store := by
    rw [split]
    exact List.mem_append_left rest moveMem
  rw [Move.store_of_attempt attempted]
  refine before.onStore (Attempt.reversible_of_mem_moves made)
    (fun isDiscard => absurd isDiscard (climbs _ moveMem).ne_discard) ?_
  intro frame point pushes resumes
  refine ⟨search, path, cutBack_cons_of_le (rises visit mem).1, .later ?_ pushes resumes⟩
  rw [split, Move.trail_append_of_play played]
  exact List.mem_append_left _ mem

/-- A search that fails goes back to where a dispatch on the route has let it go on. -/
theorem fail {middle next : Search} (recalls : middle.store.Recalls setting path)
    (failed : Move.play setting middle Move.failing = .ok next) :
    next.store.Recalls setting path ∧ ∃ search rest,
      cutBack next.store.depth path = search :: rest ∧ Follows setting next search := by
  have back := (Move.of_play_failing failed).2
  have below : (middle.store.unwind Frame.isResumable).2 = next.store := congrArg Prod.snd back
  have kept : (Move.backtrack.onStore middle.store).Recalls setting path :=
    recalls.onStore ⟨trivial, by rintro _ _ ⟨⟩⟩ nofun nofun
  rw [show Move.backtrack.onStore middle.store = next.store from below] at kept
  obtain ⟨frame, found, resumes⟩ := Option.bind_eq_some_iff.1 (congrArg Prod.fst back)
  obtain ⟨search, rest, left, cut, leaves, same⟩ :=
    recalls _ frame next.point (Store.offers_of_unwind found) resumes
  have rewound := Store.unwind_eq_rewind (fun _ => Frame.IsPlain.of_isResumable) middle.store
  rw [← rewound.2, below] at same
  rw [below] at cut
  exact ⟨kept, search, rest, cut, left, leaves, same⟩

end Store.Recalls

namespace Search

variable {setting : Setting} {origin : Search} {path : List Search} {search next : Search}

/-- Whether a route has led from one search to another: each state follows the one before, and all
that is offered was left on the way. -/
structure Traced (setting : Setting) (origin : Search) (path : List Search) (search : Search) :
    Prop where
  begins : (search :: path).getLast? = some origin
  follows : (search :: path).IsChain (Follows setting)
  recalls : search.store.Recalls setting path

theorem Traced.refl (setting : Setting) (store : Store) :
    Traced setting (start setting store) [] (start setting store) where
  begins := rfl
  follows := List.isChain_singleton _
  recalls := .reset [] store

/-- A dispatch that does not fail is added to the route. -/
theorem Traced.onward (traced : Traced setting origin path search)
    (stepped : search.step setting = .ok next) (goesOn : next.failures = search.failures)
    (recalls : next.store.Recalls setting (search :: path)) :
    Traced setting origin (extend path search next) next := by
  have extended : extend path search next = search :: path :=
    if_neg (Nat.not_lt.2 (Nat.le_of_eq goesOn))
  rw [extended]
  have follows : Follows setting next search := ⟨next.store, .atOnce stepped goesOn, rfl⟩
  exact ⟨traced.begins, List.isChain_cons_cons.2 ⟨follows, traced.follows⟩, recalls⟩

/-- A dispatch that fails cuts the route back. -/
theorem Traced.back (traced : Traced setting origin path search) {middle : Search}
    (recalls : middle.store.Recalls setting (search :: path))
    (noFailure : middle.failures = search.failures)
    (failed : Move.play setting middle Move.failing = .ok next) :
    Traced setting origin (extend path search next) next := by
  obtain ⟨recalls, latest, rest, cut, follows⟩ := recalls.fail failed
  have extended : extend path search next = cutBack next.store.depth (search :: path) := by
    refine if_pos ?_
    rw [(Move.of_play_failing failed).1, noFailure]
    exact Nat.lt_succ_self _
  rw [extended]
  obtain ⟨given_up, suffix⟩ := cutBack_suffix next.store.depth (search :: path)
  have begins := traced.begins
  have recalled := recalls.cut
  rw [cut] at suffix recalled ⊢
  rw [← suffix, List.getLast?_append_cons] at begins
  refine ⟨begins, List.isChain_cons_cons.2 ⟨follows, ?_⟩, recalled⟩
  exact traced.follows.infix ⟨given_up, [], by rw [suffix, List.append_nil]⟩

/-- One dispatch keeps the route. -/
theorem Traced.step (traced : Traced setting origin path search)
    (discards : ∀ visit ∈ Move.trail setting search (setting.moves search.point search.store),
      visit.DiscardsChoice) (stepped : search.step setting = .ok next) :
    Traced setting origin (extend path search next) next := by
  obtain ⟨climbing, closing, split, climbs, closes⟩ :=
    setting.ordered_moves search.point search.store
  have played := stepped
  rw [step_eq_play, split, Move.play_append] at played
  cases climbed : Move.play setting search climbing with
  | error ending =>
      rw [climbed] at played
      cases played
  | ok middle =>
      rw [climbed] at played
      replace played : Move.play setting middle closing = .ok next := played
      have recalls := traced.recalls.climb split climbs climbed
      have noFailure := Move.failures_of_play climbed fun mem => (climbs _ mem).2 rfl
      cases closes with
      | onward =>
          cases played
          exact traced.onward stepped noFailure recalls
      | fail => exact traced.back recalls noFailure played
      | discard =>
          have goesOn := Move.failures_of_play played (by simp)
          refine traced.onward stepped (goesOn.trans noFailure) ?_
          rw [split] at discards
          have isChoice := Move.topIsChoice_of_trail climbed discards
          have kept : ((Move.perform .discard).onStore middle.store).Recalls setting
              (search :: path) :=
            recalls.onStore ⟨trivial, by rintro _ _ ⟨⟩⟩ (fun _ => isChoice) nofun
          rw [(Move.of_play played).1]
          exact kept
      | @exclude mark =>
          have kept : ((Move.perform (.unwindTo mark)).onStore middle.store).Recalls setting
              (search :: path) := recalls.onStore ⟨trivial, by rintro _ _ ⟨⟩⟩ nofun nofun
          let undone : Search := { middle with store := (middle.store.unwindTo mark).2 }
          replace played : Move.play setting undone Move.failing = .ok next := played
          exact @Traced.back setting origin path search next traced undone kept noFailure played

/-- In a run that throws away nothing but choices, each dispatch on the route follows the one before
it, and the search follows the latest one. -/
theorem traced_route {dispatches : Nat} {last : Search} (traced : Traced setting origin path search)
    (discards : ∀ visit ∈ trail setting dispatches search, visit.DiscardsChoice)
    (reaches : search.advance setting dispatches = .ok last) :
    Traced setting origin (route setting dispatches path search) last := by
  induction dispatches generalizing path search with
  | zero =>
      cases reaches
      exact traced
  | succ dispatches ih =>
      rw [advance] at reaches
      rw [trail] at discards
      cases stepped : search.step setting with
      | error ending =>
          rw [stepped] at reaches
          cases reaches
      | ok next =>
          rw [stepped] at reaches discards
          rw [route, stepped]
          have kept := traced.step (fun visit mem => discards visit (List.mem_append_left _ mem))
            stepped
          exact ih kept (fun visit mem => discards visit (List.mem_append_right _ mem)) reaches

/-- What is on the route is where the run has been. -/
theorem exists_advance_of_mem_route {dispatches : Nat} {state : Search}
    (mem : state ∈ route setting dispatches path search) :
    state ∈ path ∨ ∃ passed, passed < dispatches ∧
      search.advance setting passed = .ok state := by
  induction dispatches generalizing path search with
  | zero => exact .inl mem
  | succ dispatches ih =>
      rw [route] at mem
      cases stepped : search.step setting with
      | error ending =>
          rw [stepped] at mem
          exact .inl mem
      | ok next =>
          rw [stepped] at mem
          rcases ih mem with earlier | ⟨passed, less, reaches⟩
          · have extended : extend path search next ⊆ search :: path := by
              unfold extend
              split
              · exact (cutBack_suffix _ _).subset
              · exact List.Subset.refl _
            rcases List.mem_cons.1 (extended earlier) with rfl | before
            · exact .inr ⟨0, Nat.zero_lt_succ _, rfl⟩
            · exact .inl before
          · refine .inr ⟨passed + 1, Nat.succ_lt_succ less, ?_⟩
            rw [advance, stepped]
            exact reaches

/-! ### Invariants of routes -/

/-- What a route starts with, and each dispatch on it hands on to what follows, holds where the
route has led. -/
theorem Traced.invariant {Inv : List Search → Search → Prop}
    (traced : Traced setting origin path search) (begins : Inv [] origin)
    (keeps : ∀ next latest earlier, latest :: earlier <:+ path → Follows setting next latest →
      Inv earlier latest → Inv (latest :: earlier) next) : Inv path search := by
  have begins' := traced.begins
  have follows := traced.follows
  clear traced
  induction path generalizing search with
  | nil =>
      cases begins'
      exact begins
  | cons latest earlier ih =>
      rw [List.isChain_cons_cons] at follows
      refine keeps search latest earlier (List.suffix_refl _) follows.1 ?_
      exact ih (fun next latest' earlier' suffix =>
        keeps next latest' earlier' (suffix.trans (List.suffix_cons _ _))) begins' follows.2

variable {store : Store} {dispatches : Nat}

/-- The run has been at each dispatch on its route, and has made its moves. -/
theorem trail_of_mem_route {state : Search}
    (mem : state ∈ route setting dispatches [] search) :
    ∃ passed, search.advance setting passed = .ok state ∧
      trail setting passed search ++ Move.trail setting state (setting.moves state.point state.store)
        ⊆ trail setting dispatches search := by
  rcases exists_advance_of_mem_route mem with none_given | ⟨passed, less, reached⟩
  · cases none_given
  obtain ⟨more, rfl⟩ := Nat.exists_eq_add_of_lt less
  refine ⟨passed, reached, ?_⟩
  rw [Nat.add_assoc, trail_add reached (more + 1), trail, ← List.append_assoc]
  exact List.subset_append_left _ _

/-- What holds at the start of a run that throws away nothing but choices, and is handed on by each
dispatch on its route, holds where the run has come to. -/
theorem route_invariant {Inv : List Search → Search → Prop}
    (reaches : (start setting store).advance setting dispatches = .ok search)
    (discards : ∀ visit ∈ trail setting dispatches (start setting store), visit.DiscardsChoice)
    (begins : Inv [] (start setting store))
    (keeps : ∀ next latest earlier,
      latest :: earlier <:+ route setting dispatches [] (start setting store) →
      (∀ visit ∈ Move.trail setting latest (setting.moves latest.point latest.store),
        visit.DiscardsChoice) →
      Follows setting next latest → Inv earlier latest → Inv (latest :: earlier) next) :
    Inv (route setting dispatches [] (start setting store)) search := by
  refine (traced_route (.refl setting store) discards reaches).invariant begins ?_
  intro next latest earlier suffix
  obtain ⟨passed, _, visited⟩ := trail_of_mem_route (suffix.subset List.mem_cons_self)
  exact keeps next latest earlier suffix fun visit mem =>
    discards visit (visited (List.mem_append_right _ mem))

/-- What one dispatch on a route hands on to what follows, and every later one keeps, holds where
the run has come to. -/
theorem stretch_invariant (Inv : Search → Prop) {since before : List Search} {origin : Search}
    (reaches : (start setting store).advance setting dispatches = .ok search)
    (discards : ∀ visit ∈ trail setting dispatches (start setting store), visit.DiscardsChoice)
    (split : route setting dispatches [] (start setting store) = since ++ origin :: before)
    (begins : ∀ next, Follows setting next origin → Inv next)
    (keeps : ∀ next latest,
      (∀ visit ∈ Move.trail setting latest (setting.moves latest.point latest.store),
        visit.DiscardsChoice) →
      Follows setting next latest → Inv latest → Inv next) : Inv search := by
  refine @route_invariant setting search store dispatches
    (fun path state => ∀ since, path = since ++ origin :: before → Inv state) reaches discards
    ?start ?step since split
  case start =>
    intro since none_passed
    simp at none_passed
  case step =>
    intro next latest earlier _ discards follows kept since passed
    cases since with
    | nil =>
        obtain ⟨rfl, rfl⟩ := List.cons.inj passed
        exact begins next follows
    | cons dispatch since =>
        obtain ⟨rfl, rfl⟩ := List.cons.inj passed
        exact keeps next latest discards follows (kept since rfl)

end Search

end PatternMachine
