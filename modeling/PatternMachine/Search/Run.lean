import PatternMachine.Search.Plan.OfInstruction

/-!
# Runs

A run dispatches one instruction after the other until it ends.  Carrying out a plan is where the
limits, the caller's hook and the clock come in.  `Search.step` is one dispatch and `Search.run?` a
number of them; a run that needs more than it is given has no outcome yet.
-/

namespace PatternMachine

/-- The best candidate that a run has found so far. -/
structure Candidate where
  length : Nat
  region : Region
  deriving DecidableEq, Repr

/-- A run in progress. -/
structure Search where
  point : Point
  store : Store
  best : Option Candidate
  /-- Units of work done. -/
  steps : Nat
  /-- How often the search went back to a choice, or tried to. -/
  failures : Nat
  /-- What was reported, in order. -/
  events : Array Event
  deriving DecidableEq, Repr

/-- A run that has ended. -/
structure Ending where
  outcome : Outcome
  /-- The state in which it ended. -/
  last : Search
  deriving DecidableEq, Repr

namespace Search

/-- A run about to dispatch its first instruction, on a store made ready for it. -/
def start (setting : Setting) (store : Store) : Search where
  point := ⟨0, setting.text.cursorAt setting.input.start⟩
  store := store.reset
  best := none
  steps := 0
  failures := 0
  events := #[]

/-- How often the caller's hook has been called. -/
@[inline] def hookCalls (search : Search) : Nat :=
  search.steps / checkInterval

/-- The run ends here. -/
@[inline] def halt (search : Search) (outcome : Outcome) : Except Ending Search :=
  .error ⟨outcome, search⟩

/-- The run ends with an error. -/
def abort (search : Search) (failure : MatchError) : Except Ending Search :=
  search.halt (.stopped failure)

/-- The run ends because of a malformed instruction. -/
def reject (search : Search) (reason : Corruption) : Except Ending Search :=
  search.abort (.corrupt search.point.address reason)

/-- The run ends with the best candidate, if there is one. -/
def conclude (search : Search) : Except Ending Search :=
  search.halt (.ofOption (search.best.map Candidate.region))

/-- Reports something, if the run is to report on its instructions. -/
@[inline] def note (setting : Setting) (search : Search) (event : Event) : Search :=
  if setting.options.trace then { search with events := search.events.push event } else search

/-! ### Carrying out plans -/

/-- Does one unit of work.  After every `checkInterval` units the hook is asked whether to go on. -/
@[inline] def work (setting : Setting) (search : Search) : Except Ending Search :=
  let search := { search with steps := search.steps + 1 }
  if search.steps % checkInterval = 0 && !setting.monitor.permits search.hookCalls then
    search.abort .aborted
  else
    .ok search

/-- Carries out one effect, if the stack has room for it. -/
@[inline] def perform (setting : Setting) (search : Search) (effect : Effect) :
    Except Ending Search :=
  match effect with
  | .note event => .ok (search.note setting event)
  | _ =>
    if effect.needsRoom && !search.store.stack.hasRoom setting.stackLimit then
      search.abort (.stackLimit setting.stackLimit.toNat)
    else
      .ok { search with store := effect.onStore search.store }

/-- Whether the time is up.  The clock is looked at after every `checkInterval` failures. -/
@[inline] def outOfTime (setting : Setting) (failures : Nat) : Bool :=
  match setting.timeLimit with
  | none => false
  | some limit =>
    failures % checkInterval = 0 && limit ≤ setting.monitor.elapsed (failures / checkInterval)

/-- Goes back to the latest choice.  Without one everything has been tried. -/
def fail (setting : Setting) (search : Search) : Except Ending Search :=
  let search := { search with failures := search.failures + 1 }
  if setting.retryLimit.exceededBy search.failures then
    search.abort .retryLimit
  else if outOfTime setting search.failures then
    search.abort .timeLimit
  else
    match search.store.backtrack with
    | (some point, store) => .ok { search with point, store }
    | (none, store) => { search with store }.conclude

/-- The region of a candidate that ends here. -/
def candidateRegion (setting : Setting) (search : Search) : Region :=
  search.store.region setting.program.regionSize setting.input.start
    search.point.cursor.position

/-- Whether a candidate of a length is longer than every one before. -/
def improvedBy (search : Search) (length : Nat) : Bool :=
  match search.best with
  | some best => best.length < length
  | none => true

/-- Takes a candidate that ends here for the best one, if it is longer than that. -/
def consider (setting : Setting) (search : Search) : Search :=
  let length := search.point.cursor.position - setting.input.start
  if search.improvedBy length then
    { search with best := some ⟨length, search.candidateRegion setting⟩ }
  else
    search

/-- Reaches the end of a candidate.  Without a condition on candidates it is the match.  Otherwise
one without characters may be refused, and a longer one may be looked for. -/
def accept (setting : Setting) (search : Search) : Except Ending Search :=
  if !setting.options.isFindCondition then
    search.halt (.matched (search.candidateRegion setting))
  else
    let position := search.point.cursor.position
    if setting.options.findNotEmpty && position == setting.input.start then
      search.fail setting
    else
      let search := search.consider setting
      if setting.options.findLongest && position < setting.range then search.fail setting
      else search.conclude

/-- Takes one character after the other from a cursor on, each of them a unit of work, and leaves
choices before them.  A line terminator that may not be taken is a failure. -/
def sweep (setting : Setting) (star : Star) (cursor : Cursor) (search : Search) :
    Except Ending Search :=
  if _whole : setting.text.hasChar cursor.position setting.range then do
    let search ← search.work setting
    let search ←
      if star.leavesChoice setting.text cursor.position then
        search.perform setting (.push (star.choice cursor))
      else
        .ok search
    if star.failsAt setting.text cursor.position then
      search.fail setting
    else
      sweep setting star (cursor.step (setting.text.charLength cursor.position)) search
  else
    .ok { search with point := ⟨star.next, cursor⟩ }
termination_by setting.range - cursor.position
decreasing_by
  have := (Text.hasChar_iff.1 _whole).1
  have := setting.text.charLength_pos cursor.position
  simp only [Cursor.step]
  omega

/-- Goes from one occurrence of a byte to the next, each of them a unit of work, and leaves a choice
before it.  The star has started at `origin` and takes everything before `stop`; occurrences from
`position` on are still to come. -/
def leap (setting : Setting) (star : Star) (byte : UInt8) (origin : Cursor) (stop position : Nat)
    (search : Search) : Except Ending Search :=
  match _found : setting.text.findByte? byte position stop with
  | some hit => do
    let search ← search.work setting
    let search ←
      search.perform setting (.push (star.choice (setting.text.cursorBehind origin hit)))
    leap setting star byte origin stop (hit + 1) search
  | none => .ok { search with point := ⟨star.next, setting.text.cursorBehind origin stop⟩ }
termination_by stop - position
decreasing_by
  have := Text.findByte?_bounds _found
  omega

/-- Leaves an instruction. -/
@[inline] def leave (setting : Setting) (search : Search) : Exit → Except Ending Search
  | .goto point => .ok { search with point }
  | .fail => search.fail setting
  | .sweep star => sweep setting star search.point.cursor search
  | .leap star byte =>
    let origin := search.point.cursor
    let stop := setting.text.fittingEnd origin.position setting.range
    leap setting star byte origin stop origin.position search
  | .accept => search.accept setting
  | .finish => search.conclude
  | .corrupt reason => search.reject reason

/-- Carries out a plan. -/
@[inline] def carryOut (setting : Setting) (search : Search) : Plan → Except Ending Search
  | ⟨[], exit⟩ => search.leave setting exit
  | ⟨effect :: effects, exit⟩ => do
    let search ← search.perform setting effect
    let search ← effects.foldlM (perform setting) search
    search.leave setting exit

/-- Dispatches the instruction that the search has come to. -/
@[inline] def step (setting : Setting) (search : Search) : Except Ending Search :=
  match setting.program.code[search.point.address]? with
  | none => search.reject .addressOutOfRange
  | some instruction => do
    let search ← search.work setting
    let search := search.note setting (.dispatched search.point search.store.depth)
    search.carryOut setting (.ofInstruction setting.toAttempt search.point search.store instruction)

/-- Dispatches at most a number of instructions, until the run ends. -/
def run? (setting : Setting) : (dispatches : Nat) → Search → Option Ending
  | 0, _ => none
  | dispatches + 1, search =>
    match search.step setting with
    | .ok next => run? setting dispatches next
    | .error ending => some ending

/-- A run that has ended has the same ending when it may go on for longer. -/
theorem run?_mono {setting : Setting} {few many : Nat} {search : Search} {ending : Ending}
    (more : few ≤ many) (ended : run? setting few search = some ending) :
    run? setting many search = some ending := by
  induction few generalizing many search with
  | zero => simp [run?] at ended
  | succ few ih =>
    cases many with
    | zero => omega
    | succ many =>
      unfold run? at ended ⊢
      cases stepped : search.step setting with
      | ok next =>
        rw [stepped] at ended
        exact ih (Nat.le_of_succ_le_succ more) ended
      | error ending =>
        rw [stepped] at ended
        exact ended

end Search

end PatternMachine
