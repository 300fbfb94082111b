/-!
# Options of programs and runs

A program carries the options it was compiled with, and a run may add more: what counts is the
union of both.  `Options.bits` is the numbering of the flags that the outside knows.
-/

namespace PatternMachine

/-- The switches that change how a program is run. -/
structure Options where
  /-- Plain literals and back references compare folded characters. -/
  ignoreCase : Bool := false
  /-- Every any-character instruction also accepts a line terminator. -/
  multiline : Bool := false
  /-- The search goes on after a candidate and reports the longest one. -/
  findLongest : Bool := false
  /-- A candidate that ends where the run started is refused. -/
  findNotEmpty : Bool := false
  /-- The start of the text does not begin a line. -/
  notLineBegin : Bool := false
  /-- The end of the text does not end a line. -/
  notLineEnd : Bool := false
  /-- A run without a match leaves the caller's region alone. -/
  posixRegion : Bool := false
  /-- Every dispatched instruction is reported as an event. -/
  trace : Bool := false
  deriving DecidableEq, Repr

namespace Options

/-- No switch is on. -/
def none : Options := {}

/-- The flags from the lowest bit to the highest, each with its bit. -/
def flags (options : Options) : List (Nat × Bool) :=
  [(0, options.ignoreCase), (2, options.multiline), (4, options.findLongest),
    (5, options.findNotEmpty), (9, options.notLineBegin), (10, options.notLineEnd),
    (11, options.posixRegion), (31, options.trace)]

/-- The options as one 32-bit word. -/
def bits (options : Options) : Nat :=
  options.flags.foldl (fun word (bit, on) => if on then word ||| 1 <<< bit else word) 0

/-- The switches that are on in either. -/
def union (left right : Options) : Options where
  ignoreCase := left.ignoreCase || right.ignoreCase
  multiline := left.multiline || right.multiline
  findLongest := left.findLongest || right.findLongest
  findNotEmpty := left.findNotEmpty || right.findNotEmpty
  notLineBegin := left.notLineBegin || right.notLineBegin
  notLineEnd := left.notLineEnd || right.notLineEnd
  posixRegion := left.posixRegion || right.posixRegion
  trace := left.trace || right.trace

/-- Every switch of the second is on in the first. -/
def contains (options required : Options) : Bool :=
  (options.flags.zip required.flags).all fun (had, wanted) => !wanted.2 || had.2

/-- Some switch is on in both. -/
def intersects (left right : Options) : Bool :=
  (left.flags.zip right.flags).any fun (one, other) => one.2 && other.2

/-- Whether the options change what counts as a successful candidate. -/
def isFindCondition (options : Options) : Bool :=
  options.findLongest || options.findNotEmpty

@[simp] theorem union_none (options : Options) : options.union none = options := by
  cases options
  simp [union, none]

end Options

end PatternMachine
