import PatternMachine.Text.OrderedTable

/-!
# Tables of code-point ranges

Character classes and Unicode properties are stored as arrays of inclusive ranges, in ascending
order and without overlap.  Membership is decided by halving the table; `CodeRange.mem` is the
meaning it is measured against.
-/

namespace PatternMachine

/-- The code points from `first` to `last`, both included. -/
structure CodeRange where
  first : Nat
  last : Nat
  deriving DecidableEq, Repr, Inhabited

namespace CodeRange

/-- Membership of a code point in one range. -/
def mem (range : CodeRange) (code : Nat) : Prop :=
  range.first ≤ code ∧ code ≤ range.last

instance (range : CodeRange) (code : Nat) : Decidable (range.mem code) :=
  inferInstanceAs (Decidable (_ ∧ _))

/-- Whether a sorted table without overlaps has a range that holds `code`. -/
def covers (table : Array CodeRange) (code : Nat) : Bool :=
  match OrderedTable.firstReaching? last table code with
  | some range => range.first ≤ code
  | none => false

end CodeRange

end PatternMachine
