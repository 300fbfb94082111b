import PatternMachine.Proofs.Answers
import PatternMachine.Proofs.Exhaustive
import PatternMachine.Proofs.Safety

/-!
# The longest candidate

A run that is to find the longest match goes on after a candidate until nothing is left to try, or
until a candidate ends where consumption ends.  What it reports is the first of the longest
candidates of the exhaustive search, those included that the run itself never came to: no candidate
ends behind the range.
-/

namespace PatternMachine

namespace Search

/-- How much has been consumed, nothing if the search stands before the start. -/
def extent (setting : Setting) (search : Search) : Nat :=
  search.point.cursor.position - setting.input.start

end Search

namespace Setting

/-- Whether the program accepts where a search stands, and the options do not refuse it. -/
def isCandidate (setting : Setting) (search : Search) : Bool :=
  setting.program.code[search.point.address]? == some .accept &&
    !(setting.options.findNotEmpty && search.point.cursor.position == setting.input.start)

/-- The candidates of the exhaustive search, in the order in which it comes to them. -/
def candidates (setting : Setting) (dispatches : Nat) (search : Search) : List Search :=
  (Search.dispatched setting.exhaustive dispatches search).filter setting.isCandidate

/-- Whether a best candidate is the first one among the longest of several. -/
def FirstLongest (setting : Setting) (candidates : List Search) : Option Candidate → Prop
  | none => candidates = []
  | some best =>
      ∃ earlier winner later, candidates = earlier ++ winner :: later ∧
        best = ⟨winner.extent setting, winner.candidateRegion setting⟩ ∧
        (∀ candidate ∈ earlier, candidate.extent setting < best.length) ∧
        ∀ candidate ∈ later, candidate.extent setting ≤ best.length

variable {setting : Setting} {seen more : List Search} {best : Candidate}

theorem FirstLongest.le (own : setting.FirstLongest seen (some best)) :
    ∀ candidate ∈ seen, candidate.extent setting ≤ best.length := by
  obtain ⟨earlier, winner, later, rfl, rfl, shorter, notLonger⟩ := own
  intro candidate mem
  rcases List.mem_append.1 mem with mem | mem
  · exact Nat.le_of_lt (shorter candidate mem)
  rcases List.mem_cons.1 mem with rfl | mem
  · exact Nat.le_refl _
  · exact notLonger candidate mem

/-- Candidates that are not longer change nothing. -/
theorem FirstLongest.append (own : setting.FirstLongest seen (some best))
    (notLonger : ∀ candidate ∈ more, candidate.extent setting ≤ best.length) :
    setting.FirstLongest (seen ++ more) (some best) := by
  obtain ⟨earlier, winner, later, rfl, same, shorter, notLonger'⟩ := own
  refine ⟨earlier, winner, later ++ more, by simp, same, shorter, ?_⟩
  intro candidate mem
  rcases List.mem_append.1 mem with mem | mem
  · exact notLonger' candidate mem
  · exact notLonger candidate mem

/-- Nothing changes any more when one candidate is as long as any may be. -/
theorem FirstLongest.append_within {best : Option Candidate}
    (own : setting.FirstLongest seen best) {bound : Nat} {longest : Search}
    (mem : longest ∈ seen) (reaches : bound ≤ longest.extent setting)
    (within : ∀ candidate ∈ more, candidate.extent setting ≤ bound) :
    setting.FirstLongest (seen ++ more) best := by
  cases best with
  | none =>
      cases own
      cases mem
  | some best =>
      apply own.append
      intro candidate mem'
      exact Nat.le_trans (within candidate mem') (Nat.le_trans reaches (own.le longest mem))

/-- A candidate that is longer than all before is the first of the longest ones. -/
theorem FirstLongest.of_longer {search : Search}
    (longer : ∀ candidate ∈ seen, candidate.extent setting < search.extent setting) :
    setting.FirstLongest (seen ++ [search])
      (some ⟨search.extent setting, search.candidateRegion setting⟩) :=
  ⟨seen, search, [], rfl, rfl, longer, by simp⟩

end Setting

namespace Search

variable {setting : Setting} {left right : Search} {seen : List Search}

theorem Meets.extent (meets : left.Meets right) : left.extent setting = right.extent setting := by
  rw [Search.extent, Search.extent, meets.point]

theorem Meets.candidateRegion (meets : left.Meets right) :
    left.candidateRegion setting = right.candidateRegion setting := by
  rw [Search.candidateRegion, Search.candidateRegion, meets.point, meets.store]

theorem Meets.isCandidate (meets : left.Meets right) :
    setting.isCandidate left = setting.isCandidate right := by
  rw [Setting.isCandidate, Setting.isCandidate, meets.point]

/-- The best candidate stays the first of the longest ones when one more is considered. -/
theorem Meets.consider (meets : left.Meets right) (own : setting.FirstLongest seen left.best) :
    setting.FirstLongest (seen ++ [right]) (left.consider setting).best := by
  have same : (⟨left.point.cursor.position - setting.input.start, left.candidateRegion setting⟩ :
      Candidate) = ⟨right.extent setting, right.candidateRegion setting⟩ := by
    rw [← meets.extent, ← meets.candidateRegion, Search.extent]
  unfold Search.consider
  dsimp only
  cases best : left.best with
  | none =>
      rw [best] at own
      cases own
      rw [if_pos (by rw [improvedBy, best]), same]
      exact .of_longer (by simp)
  | some kept =>
      rw [best] at own
      by_cases longer : kept.length < right.extent setting
      · rw [if_pos, same]
        · exact .of_longer fun candidate mem => Nat.lt_of_le_of_lt (own.le candidate mem) longer
        · rw [improvedBy, best, ← Search.extent, meets.extent]
          exact decide_eq_true longer
      · rw [if_neg, best]
        · apply own.append
          intro candidate mem
          obtain rfl := List.mem_singleton.1 mem
          exact Nat.le_of_not_lt longer
        · rw [improvedBy, best, ← Search.extent, meets.extent]
          exact fun improved => longer (of_decide_eq_true improved)

/-- The best candidate of a search behind where it stands. -/
def bestAfter (setting : Setting) (search : Search) : Option Candidate :=
  if setting.isCandidate search then (search.consider setting).best else search.best

theorem Meets.bestAfter (meets : left.Meets right) (own : setting.FirstLongest seen left.best) :
    setting.FirstLongest (seen ++ [right].filter setting.isCandidate) (left.bestAfter setting) := by
  rw [Search.bestAfter, meets.isCandidate, List.filter_singleton]
  cases setting.isCandidate right with
  | true => exact meets.consider own
  | false => simpa using own

theorem isCandidate_iff :
    setting.isCandidate left = true ↔
      setting.program.code[left.point.address]? = some .accept ∧
        (setting.options.findNotEmpty && left.point.cursor.position == setting.input.start) =
          false := by
  simp only [Setting.isCandidate, Bool.and_eq_true, beq_iff_eq, Bool.not_eq_true']

theorem best_consider {left' : Search} (meets : left'.Meets left) (same : left'.best = left.best) :
    (left'.consider setting).best = (left.consider setting).best :=
  best_consider_congr meets.candidateRegion (by rw [meets.point]) rfl same

theorem bestAfter_of_candidate (candidate : setting.isCandidate left = true) :
    left.bestAfter setting = (left.consider setting).best :=
  if_pos candidate

theorem bestAfter_of_not_candidate (none : setting.isCandidate left = false) :
    left.bestAfter setting = left.best := by
  rw [Search.bestAfter, none, if_neg Bool.noConfusion]

/-- The first candidate of all is the best one. -/
theorem bestAfter_of_first (candidate : setting.isCandidate left = true)
    (first : left.best = none) :
    left.bestAfter setting =
      some ⟨left.extent setting, left.candidateRegion setting⟩ := by
  rw [bestAfter_of_candidate candidate, Search.consider, if_pos (by rw [improvedBy, first]),
    Search.extent]

/-- Where there is no candidate, a run goes alongside the exhaustive search. -/
theorem Meets.step_of_not_candidate (meets : left.Meets right)
    (none : setting.isCandidate left = false) :
    Alongside left.best (right.step setting.exhaustive) (left.step setting) := by
  by_cases accepts : setting.program.code[left.point.address]? = some .accept
  · have refused : (setting.options.findNotEmpty &&
        left.point.cursor.position == setting.input.start) = true := by
      rw [← Bool.not_eq_false]
      intro accepted
      rw [isCandidate_iff.2 ⟨accepts, accepted⟩] at none
      cases none
    have condition : setting.options.isFindCondition = true := by
      rw [Options.isFindCondition, (Bool.and_eq_true_iff.1 refused).1, Bool.or_true]
    refine meets.step_of_accept accepts (fun _ _ _ => .stopped) ?_
    intro left' right' _ meets' kept
    rw [Attempt.acceptMoves, condition, Bool.not_true, if_neg Bool.noConfusion, if_pos refused,
      ← kept]
    exact meets'.play fun move => Move.isInner_of_mem_failing
  · exact meets.step accepts

/-- A run for the longest match goes on after a candidate that does not end at the range. -/
theorem Meets.step_of_candidate (meets : left.Meets right)
    (longest : setting.options.findLongest = true)
    (candidate : setting.isCandidate left = true)
    (ahead : left.point.cursor.position < setting.range) :
    Alongside (left.bestAfter setting) (right.step setting.exhaustive) (left.step setting) := by
  obtain ⟨accepts, accepted⟩ := isCandidate_iff.1 candidate
  have condition : setting.options.isFindCondition = true := by
    rw [Options.isFindCondition, longest, Bool.true_or]
  refine meets.step_of_accept accepts (fun _ _ _ => .stopped) ?_
  intro left' right' back meets' kept
  rw [Attempt.acceptMoves, condition, Bool.not_true, if_neg Bool.noConfusion, accepted,
    if_neg Bool.noConfusion, longest, Bool.true_and, if_pos (decide_eq_true ahead),
    bestAfter_of_candidate candidate, ← best_consider back kept, Move.play_cons]
  have considered : (left'.consider setting).Meets right' := by
    rw [consider_eq]
    exact ⟨meets'.point, meets'.store⟩
  exact considered.play fun move => Move.isInner_of_mem_failing

/-- A run ends with the first candidate, or if it is to find the longest one, with one that ends at
the range. -/
theorem step_of_final (candidate : setting.isCandidate left = true)
    (final : if setting.options.findLongest then setting.range ≤ left.point.cursor.position
      else left.best = none) :
    ∃ ending, left.step setting = .error ending ∧
      ((∃ failure, ending.outcome = .stopped failure) ∨
        ending.outcome = .ofOption ((left.bestAfter setting).map Candidate.region)) := by
  obtain ⟨accepts, accepted⟩ := isCandidate_iff.1 candidate
  refine @Meets.step_of_accept setting left left
    (fun _ result => ∃ ending, result = .error ending ∧
      ((∃ failure, ending.outcome = .stopped failure) ∨
        ending.outcome = .ofOption ((left.bestAfter setting).map Candidate.region)))
    ⟨rfl, rfl⟩ accepts ?_ ?_
  · intro _ ending failure stopped
    exact ⟨ending, rfl, .inl ⟨failure, stopped⟩⟩
  · intro left' _ back _ kept
    rw [Attempt.acceptMoves]
    cases condition : setting.options.isFindCondition with
    | false =>
        have notLongest : setting.options.findLongest = false :=
          (Bool.or_eq_false_iff.1 condition).1
        rw [notLongest, if_neg Bool.noConfusion] at final
        refine ⟨_, rfl, .inr ?_⟩
        rw [bestAfter_of_first candidate final, back.candidateRegion]
        rfl
    | true =>
        have done : ¬ (setting.options.findLongest &&
            decide (left.point.cursor.position < setting.range)) = true := by
          intro ahead
          obtain ⟨longest, ahead⟩ := Bool.and_eq_true_iff.1 ahead
          rw [longest, if_pos rfl] at final
          exact Nat.not_lt.2 final (of_decide_eq_true ahead)
        rw [Bool.not_true, if_neg Bool.noConfusion, accepted, if_neg Bool.noConfusion, if_neg done]
        refine ⟨_, rfl, .inr ?_⟩
        rw [bestAfter_of_candidate candidate, ← best_consider back kept]

/-- The candidates of the exhaustive search are the one where it stands, if there is one, and those
behind. -/
theorem candidates_succ (setting : Setting) (dispatches : Nat) (search : Search) :
    setting.candidates (dispatches + 1) search =
      [search].filter setting.isCandidate ++
        match search.step setting.exhaustive with
        | .ok next => setting.candidates dispatches next
        | .error _ => [] := by
  rw [Setting.candidates, dispatched, ← List.singleton_append, List.filter_append]
  cases search.step setting.exhaustive <;> rfl

theorem candidates_mono {few many : Nat} (more : few ≤ many) :
    setting.candidates few left ⊆ setting.candidates many left := by
  intro candidate mem
  obtain ⟨reached, accepted⟩ := List.mem_filter.1 mem
  exact List.mem_filter.2 ⟨dispatched_mono more reached, accepted⟩

/-- No candidate is longer than the span. -/
theorem Fits.extent_le (fits : left.Fits setting.exhaustive.toAttempt) (dispatches : Nat) :
    ∀ candidate ∈ setting.candidates dispatches left,
      candidate.extent setting ≤ setting.range - setting.input.start := by
  intro candidate mem
  have within := dispatched_invariant fits (fun _ _ own => own.step) candidate
    (List.mem_filter.1 mem).1
  exact Nat.sub_le_sub_right within.cursor.position _

/-- Once a candidate ends at the range, no later one changes the best. -/
theorem Fits.firstLongest_at_range (fits : right.Fits setting.exhaustive.toAttempt)
    {best : Option Candidate} (candidate : setting.isCandidate right = true)
    (reached : setting.range ≤ right.point.cursor.position)
    (own : setting.FirstLongest (seen ++ [right].filter setting.isCandidate) best) {more : Nat}
    (some : 0 < more) : setting.FirstLongest (seen ++ setting.candidates more right) best := by
  cases more with
  | zero => exact absurd some (Nat.lt_irrefl 0)
  | succ more =>
      have here : right ∈ seen ++ [right].filter setting.isCandidate :=
        List.mem_append_right _ (List.mem_filter.2 ⟨List.mem_singleton.2 rfl, candidate⟩)
      rw [candidates_succ, ← List.append_assoc]
      apply own.append_within here (Nat.sub_le_sub_right reached _)
      intro other mem
      apply fits.extent_le (more + 1) other
      rw [candidates_succ]
      exact List.mem_append_right _ mem

/-- A run for the longest match that has an answer ends with the first of the longest candidates
that the exhaustive search ever comes to. -/
theorem Meets.run?_longest (meets : left.Meets right)
    (longest : setting.options.findLongest = true)
    (fits : right.Fits setting.exhaustive.toAttempt) (own : setting.FirstLongest seen left.best)
    {dispatches : Nat} {ending : Ending} (ended : run? setting dispatches left = some ending)
    (answered : ∀ failure, ending.outcome ≠ .stopped failure) :
    ∃ best, ending.outcome = .ofOption (best.map Candidate.region) ∧
      ∀ more, dispatches ≤ more →
        setting.FirstLongest (seen ++ setting.candidates more right) best := by
  induction dispatches generalizing left right seen with
  | zero => cases ended
  | succ dispatches ih =>
      have after := meets.bestAfter own
      rw [run?] at ended
      by_cases final : setting.isCandidate left = true ∧
          setting.range ≤ left.point.cursor.position
      · obtain ⟨candidate, reached⟩ := final
        obtain ⟨ending', stepped, settled⟩ := step_of_final candidate
          (by rw [longest, if_pos rfl]; exact reached)
        rw [stepped] at ended
        cases ended
        refine ⟨left.bestAfter setting, ?_, ?_⟩
        · rcases settled with ⟨failure, stopped⟩ | reports
          · exact absurd stopped (answered failure)
          · exact reports
        · intro more enough
          rw [meets.isCandidate] at candidate
          rw [meets.point] at reached
          exact fits.firstLongest_at_range candidate reached after
            (Nat.lt_of_lt_of_le (Nat.succ_pos dispatches) enough)
      · have along : Alongside (left.bestAfter setting) (right.step setting.exhaustive)
            (left.step setting) := by
          cases candidate : setting.isCandidate left with
          | true =>
              apply meets.step_of_candidate longest candidate
              exact Nat.lt_of_not_le fun reached => final ⟨candidate, reached⟩
          | false =>
              rw [bestAfter_of_not_candidate candidate]
              exact meets.step_of_not_candidate candidate
        generalize result : right.step setting.exhaustive = free, left.step setting = bounded
          at along ended
        cases along with
        | goesOn meets' kept =>
            rw [← kept] at after
            obtain ⟨best, reports, first⟩ := ih meets' (fits.step result) after ended
            refine ⟨best, reports, ?_⟩
            intro more enough
            obtain ⟨more, rfl⟩ := Nat.exists_eq_add_of_le' enough
            rw [← Nat.add_assoc, candidates_succ, result, ← List.append_assoc]
            exact first _ (Nat.le_add_left dispatches more)
        | stopped fails =>
            cases ended
            exact absurd fails (answered _)
        | ends reports =>
            cases ended
            refine ⟨left.bestAfter setting, reports, ?_⟩
            intro more enough
            obtain ⟨more, rfl⟩ := Nat.exists_eq_add_of_le' enough
            rw [← Nat.add_assoc, candidates_succ, result, List.append_nil]
            exact after

/-- A run that is not to find the longest match and has an answer ends with the first candidate, and
without a match only if there is none. -/
theorem Meets.run?_first (meets : left.Meets right)
    (notLongest : setting.options.findLongest = false) (first : left.best = none)
    {dispatches : Nat} {ending : Ending} (ended : run? setting dispatches left = some ending)
    (answered : ∀ failure, ending.outcome ≠ .stopped failure) :
    (ending.outcome = .unmatched ∧ ∀ more, dispatches ≤ more →
      setting.candidates more right = []) ∨
    ∃ candidate ∈ setting.candidates dispatches right,
      ending.outcome = .matched (candidate.candidateRegion setting) := by
  induction dispatches generalizing left right with
  | zero => cases ended
  | succ dispatches ih =>
      rw [run?] at ended
      cases candidate : setting.isCandidate left with
      | true =>
          obtain ⟨ending', stepped, settled⟩ := step_of_final candidate
            (by rw [notLongest, if_neg Bool.noConfusion]; exact first)
          rw [stepped] at ended
          cases ended
          rcases settled with ⟨failure, stopped⟩ | reports
          · exact absurd stopped (answered failure)
          · rw [bestAfter_of_first candidate first, meets.candidateRegion] at reports
            refine .inr ⟨right, ?_, reports⟩
            rw [meets.isCandidate] at candidate
            rw [candidates_succ, List.filter_singleton, candidate]
            exact List.mem_cons_self
      | false =>
          have along : Alongside left.best (right.step setting.exhaustive) (left.step setting) :=
            meets.step_of_not_candidate candidate
          have none_here : [right].filter setting.isCandidate = [] := by
            rw [meets.isCandidate] at candidate
            rw [List.filter_singleton, candidate]
            rfl
          generalize result : right.step setting.exhaustive = free, left.step setting = bounded
            at along ended
          cases along with
          | goesOn meets' kept =>
              rcases ih meets' (kept.trans first) ended with ⟨unmatched, none_later⟩ |
                ⟨winner, mem, matched⟩
              · refine .inl ⟨unmatched, ?_⟩
                intro more enough
                obtain ⟨more, rfl⟩ := Nat.exists_eq_add_of_le' enough
                rw [← Nat.add_assoc, candidates_succ, result, none_here, List.nil_append]
                exact none_later _ (Nat.le_add_left dispatches more)
              · refine .inr ⟨winner, ?_, matched⟩
                rw [candidates_succ, result, none_here, List.nil_append]
                exact mem
          | stopped fails =>
              cases ended
              exact absurd fails (answered _)
          | ends reports =>
              cases ended
              rw [first] at reports
              refine .inl ⟨reports, ?_⟩
              intro more enough
              obtain ⟨more, rfl⟩ := Nat.exists_eq_add_of_le' enough
              rw [← Nat.add_assoc, candidates_succ, result, none_here, List.append_nil]

/-- The region of a candidate is that of a match of its length. -/
theorem matchLength?_candidateRegion (setting : Setting) (search : Search) :
    (search.candidateRegion setting).matchLength? = some (search.extent setting) :=
  Region.matchLength?_of_span? (search.store.span?_region (Nat.succ_pos _) _ _)

end Search

namespace Engine

variable {engine after : Engine} {dispatches : Nat} {input : Input} {monitor : Monitor}
  {report : Report}

/-- The candidates of the exhaustive search on an input. -/
def candidates (engine : Engine) (input : Input) (dispatches : Nat) : List Search :=
  let setting := engine.setting input .patient
  setting.candidates dispatches (.start setting engine.store)

/-- The same engine, which does not look for the longest match. -/
def withoutLongest (engine : Engine) : Engine :=
  { engine with
    program.options.findLongest := false
    config.options.findLongest := false }

/-- A run for the longest match that has an answer reports the first of the longest candidates. -/
theorem exec?_longest (used : engine.Used) (longest : engine.options.findLongest = true)
    (ran : engine.exec? dispatches input monitor = some (report, after))
    (answered : ∀ failure, report.outcome ≠ .stopped failure) :
    ∃ best, report.outcome = .ofOption (best.map Candidate.region) ∧
      ∀ more, dispatches ≤ more →
        (engine.setting input monitor).FirstLongest (engine.candidates input more) best := by
  obtain ⟨ending, ended, rfl, _⟩ := exec?_eq_some_iff.1 ran
  let setting := engine.setting input monitor
  have fits : (Search.start setting.exhaustive engine.store).Fits setting.exhaustive.toAttempt :=
    Search.fits_start used.slots.1 used.slots.2
  have meets : (Search.start setting engine.store).Meets (.start setting.exhaustive engine.store) :=
    ⟨rfl, rfl⟩
  exact meets.run?_longest longest fits rfl ended answered

/-- A run for any match that has an answer reports the first candidate. -/
theorem exec?_withoutLongest
    (ran : engine.withoutLongest.exec? dispatches input monitor = some (report, after))
    (answered : ∀ failure, report.outcome ≠ .stopped failure) :
    (report.outcome = .unmatched ∧
      ∀ more, dispatches ≤ more → engine.candidates input more = []) ∨
    ∃ candidate ∈ engine.candidates input dispatches,
      report.outcome = .matched (candidate.candidateRegion (engine.setting input monitor)) := by
  obtain ⟨ending, ended, rfl, _⟩ := exec?_eq_some_iff.1 ran
  let setting := engine.withoutLongest.setting input monitor
  have meets : (Search.start setting engine.store).Meets (.start setting.exhaustive engine.store) :=
    ⟨rfl, rfl⟩
  have notLongest : setting.options.findLongest = false := rfl
  have first := meets.run?_first notLongest rfl ended answered
  exact first

/-- If the exhaustive search comes to no candidate in the long run, it comes to none at all. -/
theorem candidates_eq_nil
    (none_later : ∀ more, dispatches ≤ more → engine.candidates input more = []) (more : Nat) :
    engine.candidates input more = [] := by
  have within : engine.candidates input more ⊆ engine.candidates input (max more dispatches) :=
    Search.candidates_mono (Nat.le_max_left more dispatches)
  rw [none_later _ (Nat.le_max_right more dispatches)] at within
  exact List.subset_nil.1 within

/-- What is reported as the longest match is the first of the longest candidates. -/
theorem exec?_longest_matched (used : engine.Used) (longest : engine.options.findLongest = true)
    (ran : engine.exec? dispatches input monitor = some (report, after)) {region : Region}
    (matched : report.outcome = .matched region) :
    ∃ earlier winner later,
      engine.candidates input dispatches = earlier ++ winner :: later ∧
      region = winner.candidateRegion (engine.setting input monitor) ∧
      (∀ candidate ∈ earlier, candidate.extent (engine.setting input monitor) <
        winner.extent (engine.setting input monitor)) ∧
      ∀ more, ∀ candidate ∈ engine.candidates input more,
        candidate.extent (engine.setting input monitor) ≤
          winner.extent (engine.setting input monitor) := by
  have answered : ∀ failure, report.outcome ≠ .stopped failure := by
    intro failure stopped
    rw [matched] at stopped
    cases stopped
  obtain ⟨best, reports, first⟩ := exec?_longest used longest ran answered
  rw [matched] at reports
  cases best with
  | none => cases reports
  | some best =>
      cases reports
      obtain ⟨earlier, winner, later, parts, rfl, shorter, _⟩ := first dispatches (Nat.le_refl _)
      refine ⟨earlier, winner, later, parts, rfl, shorter, ?_⟩
      intro more candidate mem
      apply (first _ (Nat.le_max_right more dispatches)).le
      exact Search.candidates_mono (Nat.le_max_left more dispatches) mem

theorem exec?_longest_unmatched_iff (used : engine.Used)
    (longest : engine.options.findLongest = true)
    (ran : engine.exec? dispatches input monitor = some (report, after))
    (answered : ∀ failure, report.outcome ≠ .stopped failure) :
    report.outcome = .unmatched ↔ ∀ more, engine.candidates input more = [] := by
  obtain ⟨best, reports, first⟩ := exec?_longest used longest ran answered
  cases best with
  | none => exact ⟨fun _ => candidates_eq_nil first, fun _ => reports⟩
  | some best =>
      obtain ⟨earlier, winner, later, parts, _⟩ := first dispatches (Nat.le_refl _)
      constructor
      · intro unmatched
        rw [reports] at unmatched
        cases unmatched
      · intro none
        rw [none] at parts
        simp at parts

/-- A run for the longest match that has an answer reports the first candidate among those of the
greatest length, and none if there is none; so says the exhaustive search, also of what lies behind
the end of the run.  A run for any match answers in the same way, but it may report a shorter
match. -/
theorem longest_run_reports_first_longest_candidate (used : engine.Used)
    (longest : engine.options.findLongest = true)
    (ran : engine.exec? dispatches input monitor = some (report, after))
    (answered : ∀ failure, report.outcome ≠ .stopped failure) :
    let setting := engine.setting input monitor
    (report.outcome = .unmatched ↔ ∀ more, engine.candidates input more = []) ∧
      (∀ region, report.outcome = .matched region →
        ∃ earlier winner later,
          engine.candidates input dispatches = earlier ++ winner :: later ∧
          region = winner.candidateRegion setting ∧
          (∀ candidate ∈ earlier, candidate.extent setting < winner.extent setting) ∧
          ∀ more, ∀ candidate ∈ engine.candidates input more,
            candidate.extent setting ≤ winner.extent setting) ∧
      ∀ dispatches' monitor' report' after',
        engine.withoutLongest.exec? dispatches' input monitor' = some (report', after') →
        (∀ failure, report'.outcome ≠ .stopped failure) →
          (report'.outcome = .unmatched ↔ report.outcome = .unmatched) ∧
            ∀ region region', report.outcome = .matched region →
              report'.outcome = .matched region' →
                ∃ long short, region.matchLength? = some long ∧
                  region'.matchLength? = some short ∧ short ≤ long := by
  intro setting
  have unmatched_iff := exec?_longest_unmatched_iff used longest ran answered
  refine ⟨unmatched_iff, fun region => exec?_longest_matched used longest ran, ?_⟩
  intro dispatches' monitor' report' after' ran' answered'
  rcases exec?_withoutLongest ran' answered' with ⟨unmatched, none_later⟩ | ⟨first, mem, matched⟩
  · constructor
    · exact ⟨fun _ => unmatched_iff.2 (candidates_eq_nil none_later), fun _ => unmatched⟩
    · intro region region' _ matched
      rw [unmatched] at matched
      cases matched
  · constructor
    · constructor
      · intro unmatched
        rw [matched] at unmatched
        cases unmatched
      · intro unmatched
        rw [unmatched_iff.1 unmatched] at mem
        cases mem
    · intro region region' matched' same
      obtain ⟨_, winner, _, _, rfl, _, notLonger⟩ :=
        exec?_longest_matched used longest ran matched'
      rw [matched] at same
      cases same
      exact ⟨winner.extent setting, first.extent setting,
        Search.matchLength?_candidateRegion setting winner,
        Search.matchLength?_candidateRegion setting first, notLonger dispatches' first mem⟩

/-- A run for the longest match stops at its second candidate, which ends at the range.  The
exhaustive search comes to a third one, of the same length.  A run for any match stops at the first
one. -/
theorem longest_run_reports_first_longest_candidate_of_tie :
    let program : Program :=
      { code := #[.push 3, .byte 97, .accept, .push 4, .byte 97, .byte 98, .accept,
          .bytes ⟨#[97, 98]⟩, .accept]
        templates := #[], classes := #[], repeatRanges := #[], groupCount := 0
        emptyCheckCount := 0, loggedStarts := .empty, loggedEnds := .empty
        options := { findLongest := true }, encoding := .utf8 }
    let engine := withConfig program ⟨.unlimited, { findNotEmpty := true }⟩
    let input := Input.whole ⟨#[97, 98]⟩
    let whole : Region := ⟨#[some 0], #[some 2]⟩
    ∃ report after, engine.exec? 8 input .patient = some (report, after) ∧
      report.outcome = .matched whole ∧
        (∃ earlier winner later, engine.candidates input 8 = earlier ++ winner :: later ∧
          whole = winner.candidateRegion (engine.setting input .patient)) ∧
        (engine.candidates input 20).map (fun candidate =>
          candidate.extent (engine.setting input .patient)) = [1, 2, 2] ∧
        ((engine.withoutLongest.exec? 8 input .patient).map fun answer => answer.1.outcome) =
          some (.matched ⟨#[some 0], #[some 1]⟩) := by
  intro program engine input whole
  have ended : (engine.exec? 8 input .patient).map (fun answer => answer.1.outcome) =
      some (.matched whole) := by decide +kernel
  obtain ⟨⟨report, after⟩, ran, outcome⟩ := Option.map_eq_some_iff.1 ended
  have answered : ∀ failure, report.outcome ≠ .stopped failure := by
    intro failure stopped
    rw [outcome] at stopped
    cases stopped
  obtain ⟨_, matched, _⟩ :=
    longest_run_reports_first_longest_candidate (.fresh program _) rfl ran answered
  obtain ⟨earlier, winner, later, parts, same, _⟩ := matched whole outcome
  exact ⟨report, after, ran, outcome, ⟨earlier, winner, later, parts, same⟩, by decide +kernel,
    by decide +kernel⟩

end Engine

end PatternMachine
