import PatternMachine.Error
import PatternMachine.Region

/-!
# Outcomes

How a run ends: with a match, without one, or with an error.
-/

namespace PatternMachine

/-- The end of a run. -/
inductive Outcome where
  /-- The text matches, with its groups where the region reports them. -/
  | matched (region : Region)
  /-- Everything was tried, and nothing matches. -/
  | unmatched
  /-- The run was stopped before it had an answer. -/
  | stopped (failure : MatchError)
  deriving DecidableEq, Repr

namespace Outcome

/-- The length of the match, if there is one. -/
def matchLength? : Outcome → Except MatchError (Option Nat)
  | .matched region => .ok region.matchLength?
  | .unmatched => .ok none
  | .stopped failure => .error failure

/-- The outcome of a search that ends with its best candidate, if it has one. -/
def ofOption : Option Region → Outcome
  | some region => .matched region
  | none => .unmatched

end Outcome

end PatternMachine
