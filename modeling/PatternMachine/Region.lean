/-!
# Regions

A region reports where the groups of a match lie.  Its two lists hold the starts and the ends of the
groups; a group is reported as a span only where both are set.  The lists belong to the caller and
may differ in length until a run writes into them.
-/

namespace PatternMachine

/-- The bounds of the groups of a match, by group number; group 0 is the whole match. -/
structure Region where
  starts : Array (Option Nat)
  stops : Array (Option Nat)
  deriving DecidableEq, Repr

namespace Region

/-- The region without slots. -/
def empty : Region :=
  ⟨#[], #[]⟩

/-- Cuts a list of bounds to a size, or fills it up with unset ones. -/
def resizeBounds (bounds : Array (Option Nat)) (size : Nat) : Array (Option Nat) :=
  bounds.extract 0 size ++ Array.replicate (size - bounds.size) none

/-- Gives both lists a size; new slots are unset. -/
def resize (region : Region) (size : Nat) : Region :=
  ⟨resizeBounds region.starts size, resizeBounds region.stops size⟩

/-- The region with a number of unset slots. -/
def withSlots (size : Nat) : Region :=
  empty.resize size

/-- Unsets every slot. -/
def clear (region : Region) : Region :=
  ⟨region.starts.map fun _ => none, region.stops.map fun _ => none⟩

/-- The number of slots. -/
def slotCount (region : Region) : Nat :=
  region.starts.size

/-- The start and the end of a group, if both are set.  The end may lie before the start. -/
def span? (region : Region) (group : Nat) : Option (Nat × Nat) :=
  match region.starts[group]?, region.stops[group]? with
  | some (some start), some (some stop) => some (start, stop)
  | _, _ => none

/-- The length of the whole match, 0 if it ends before it starts. -/
def matchLength? (region : Region) : Option Nat :=
  (region.span? 0).map fun (start, stop) => stop - start

/-- Writes both bounds of a slot. -/
def set (region : Region) (group : Nat) (start stop : Option Nat) : Region :=
  ⟨region.starts.setIfInBounds group start, region.stops.setIfInBounds group stop⟩

@[simp] theorem size_resizeBounds (bounds : Array (Option Nat)) (size : Nat) :
    (resizeBounds bounds size).size = size := by
  simp only [resizeBounds, Array.size_append, Array.size_extract, Array.size_replicate]
  omega

@[simp] theorem slotCount_resize (region : Region) (size : Nat) :
    (region.resize size).slotCount = size :=
  size_resizeBounds region.starts size

@[simp] theorem slotCount_clear (region : Region) : region.clear.slotCount = region.slotCount := by
  simp [clear, slotCount]

/-- Clearing after a change of size leaves nothing of what the region held. -/
theorem clear_resize (region : Region) (size : Nat) :
    (region.resize size).clear = ⟨Array.replicate size none, Array.replicate size none⟩ := by
  simp [resize, clear, Array.map_const']

end Region

end PatternMachine
