/-!
# Tables in ascending order

Sets and mappings of code points are stored as arrays of entries, each of which covers the code
points up to its last one.  The entries do not overlap and are in ascending order, so the only one
that can concern a code point is found by halving the table.
-/

namespace PatternMachine.OrderedTable

/-- The least position in `low … high` whose entry does not end before `code`, provided that every
position below `low` does and every position from `high` on does not.  The entry at a position ends
at `ends position`. -/
@[specialize] def seek (ends : Nat → Nat) (code low high : Nat) : Nat :=
  if low < high then
    let middle := (low + high) / 2
    if ends middle < code then seek ends code (middle + 1) high else seek ends code low middle
  else
    low
termination_by high - low

/-- The first entry of a table that does not end before `code`. -/
@[inline] def firstReaching? {α : Type} (last : α → Nat) (table : Array α) (code : Nat) :
    Option α :=
  let ends (position : Nat) : Nat :=
    match table[position]? with
    | some entry => last entry
    | none => 0
  table[seek ends code 0 table.size]?

/-- Where the entries of a table end is only asked of those that it has. -/
theorem exists_ends {α : Type} (last : α → Nat) (table : Array α) (code : Nat) :
    ∃ ends : Nat → Nat,
      (∀ position (inside : position < table.size), ends position = last table[position]) ∧
        firstReaching? last table code = table[seek ends code 0 table.size]? := by
  refine ⟨_, ?_, rfl⟩
  intro position inside
  simp only [Array.getElem?_eq_getElem inside]

end PatternMachine.OrderedTable
