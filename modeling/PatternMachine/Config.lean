import PatternMachine.Options

/-!
# Resource limits

A run is bounded by the number of frames its stack may hold, by the number of times it may fail and
by the time it may take.  `Defaults` are the limits that a configuration starts from;
`MatchConfig` are the limits and added options of one engine.
-/

namespace PatternMachine

/-- An upper bound on a count, or none. -/
inductive Limit where
  | unlimited
  | atMost (bound : Nat)
  deriving DecidableEq, Repr

namespace Limit

/-- A limit written as a number: 0 means that there is none. -/
def ofNat : Nat → Limit
  | 0 => .unlimited
  | bound + 1 => .atMost (bound + 1)

/-- The number that writes a limit. -/
def toNat : Limit → Nat
  | .unlimited => 0
  | .atMost bound => bound

/-- Whether a count is too high. -/
def exceededBy (limit : Limit) (count : Nat) : Bool :=
  match limit with
  | .unlimited => false
  | .atMost bound => bound < count

@[simp] theorem toNat_ofNat (number : Nat) : (ofNat number).toNat = number := by
  cases number <;> rfl

theorem exceededBy_ofNat (number count : Nat) :
    (ofNat number).exceededBy count = true ↔ number ≠ 0 ∧ number < count := by
  cases number <;> simp [ofNat, exceededBy]

end Limit

/-- The limits of a configuration that states none of its own, as numbers. -/
structure Defaults where
  stackLimit : Nat := 1000000
  retryLimit : Nat := 10000000
  /-- In milliseconds; 0 means that time is not limited. -/
  timeLimit : Nat := 0
  deriving DecidableEq, Repr

/-- What bounds a run. -/
structure Limits where
  /-- How many backtrack frames may be alive at once. -/
  stackLimit : Limit
  /-- How often the run may fail. -/
  retryLimit : Limit
  /-- How many milliseconds the run may take; a limit of 0 is a limit. -/
  timeLimit : Option Nat
  deriving DecidableEq, Repr

/-- Nothing bounds a run. -/
def Limits.unlimited : Limits :=
  ⟨.unlimited, .unlimited, none⟩

/-- What bounds every run of one engine, and the options added to its program's own. -/
structure MatchConfig extends Limits where
  options : Options
  deriving DecidableEq, Repr

namespace MatchConfig

/-- The configuration that only states the defaults. -/
def ofDefaults (defaults : Defaults) : MatchConfig where
  stackLimit := .ofNat defaults.stackLimit
  retryLimit := .ofNat defaults.retryLimit
  timeLimit := if defaults.timeLimit = 0 then none else some defaults.timeLimit
  options := .none

/-- Replaces the limit on frames. -/
def withStackLimit (config : MatchConfig) (number : Nat) : MatchConfig :=
  { config with stackLimit := .ofNat number }

/-- Replaces the limit on failures. -/
def withRetryLimit (config : MatchConfig) (number : Nat) : MatchConfig :=
  { config with retryLimit := .ofNat number }

/-- Replaces the limit on time. -/
def withTimeLimit (config : MatchConfig) (milliseconds : Nat) : MatchConfig :=
  { config with timeLimit := some milliseconds }

/-- Replaces the added options. -/
def withOptions (config : MatchConfig) (options : Options) : MatchConfig :=
  { config with options }

end MatchConfig

/-- How many units of work lie between two calls of the caller's hook, and how many failures lie
between two looks at the clock. -/
def checkInterval : Nat := 512

end PatternMachine
