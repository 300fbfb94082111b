import PatternMachine.Search.Run

/-!
# Engines

An engine runs one program under one configuration, as often as wanted.  It keeps its store between
runs and makes it ready at the start of each.  What a run reports is a `Report`; what becomes of the
caller's region is the business of `Engine.runInRegion?` and `Engine.runWithMonitor?`.

Programs may loop for ever, so every run is given a number of dispatches that it may take, and has
no result if that is not enough.
-/

namespace PatternMachine

/-- A program, a configuration, and the store of the latest run. -/
structure Engine where
  program : Program
  config : MatchConfig
  store : Store
  deriving DecidableEq

/-- What a run answers and what it reported on the way. -/
structure Report where
  outcome : Outcome
  hookCalls : Nat
  events : Array Event
  deriving DecidableEq, Repr

/-- What a run that fills a region answers. -/
structure RegionReport extends Report where
  /-- The caller's region after the run. -/
  region : Region
  deriving DecidableEq, Repr

namespace Engine

/-- An engine for a program under a configuration. -/
def withConfig (program : Program) (config : MatchConfig) : Engine where
  program
  config
  store := .blank program.regionSize program.repeatRanges.size

/-- An engine for a program that states no limits of its own. -/
def new (program : Program) (defaults : Defaults := {}) : Engine :=
  withConfig program (.ofDefaults defaults)

/-- The options in effect. -/
def options (engine : Engine) : Options :=
  engine.program.options.union engine.config.options

/-- What a run is given. -/
def setting (engine : Engine) (input : Input) (monitor : Monitor) : Setting where
  program := engine.program
  options := engine.options
  input
  toLimits := engine.config.toLimits
  monitor

/-- The event that opens a run. -/
def openingEvent (engine : Engine) (input : Input) : Event :=
  .started input.start input.range input.bytes.size engine.program.code.size

/-- One run, and the engine after it. -/
def exec? (engine : Engine) (dispatches : Nat) (input : Input) (monitor : Monitor) :
    Option (Report × Engine) :=
  let setting := engine.setting input monitor
  (Search.run? setting dispatches (.start setting engine.store)).map fun ending =>
    ({ outcome := ending.outcome
       hookCalls := ending.last.hookCalls
       events :=
         (#[engine.openingEvent input] ++ ending.last.events).push (.ended ending.outcome) },
      { engine with store := ending.last.store })

/-- Runs without a hook. -/
def run? (engine : Engine) (dispatches : Nat) (input : Input) : Option (Report × Engine) :=
  engine.exec? dispatches input .patient

/-- What becomes of the caller's region.  A match is copied into it.  An error leaves it alone, and
so does the absence of a match under the option for it; otherwise every slot is unset. -/
def updateRegion (engine : Engine) (region : Region) : Outcome → Region
  | .matched found => found
  | .unmatched =>
    if engine.options.posixRegion then region
    else (region.resize engine.program.regionSize).clear
  | .stopped _ => region

/-- Runs and fills the caller's region. -/
def runWithMonitor? (engine : Engine) (dispatches : Nat) (input : Input) (region : Region)
    (monitor : Monitor) : Option (RegionReport × Engine) :=
  (engine.exec? dispatches input monitor).map fun (report, after) =>
    ({ toReport := report, region := engine.updateRegion region report.outcome }, after)

/-- Runs without a hook and fills the caller's region. -/
def runInRegion? (engine : Engine) (dispatches : Nat) (input : Input) (region : Region) :
    Option (RegionReport × Engine) :=
  engine.runWithMonitor? dispatches input region .patient

end Engine

end PatternMachine
