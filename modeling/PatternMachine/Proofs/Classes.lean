import Mathlib.Order.Interval.Set.Defs
import Mathlib.Data.Set.Basic
import PatternMachine.Proofs.Guarded.Matching
import PatternMachine.Search.Plan.OfInstruction

/-!
# What classes denote

The bits and the ranges of a class state one set of code points, split at 256.  Each class operand
accepts that set, the part of it on one side of 256, or the complement of either.  The ranges are
looked up by halving the table, which gives what looking at each of them gives, and looks at nothing
outside the table.
-/

namespace PatternMachine

/-! ### Halving a table -/

namespace OrderedTable

/-- Whether a position of a table parts the entries that end before a code point from the others. -/
structure Parts (ends : Nat → Nat) (size code position : Nat) : Prop where
  before : ∀ earlier < position, ends earlier < code
  behind : ∀ later, position ≤ later → later < size → code ≤ ends later

/-- Halving keeps the position that parts the entries between its two bounds. -/
theorem parts_seek {ends : Nat → Nat} {size code low high : Nat}
    (ascending : ∀ earlier later, earlier ≤ later → later < size → ends earlier ≤ ends later)
    (onward : low ≤ high) (inside : high ≤ size) (before : ∀ earlier < low, ends earlier < code)
    (behind : ∀ later, high ≤ later → later < size → code ≤ ends later) :
    Parts ends size code (seek ends code low high) := by
  fun_induction seek ends code low high with
  | case1 low high more middle short ih =>
      refine ih (by omega) inside (fun earlier within => ?_) behind
      exact Nat.lt_of_le_of_lt (ascending earlier middle (by omega) (by omega)) short
  | case2 low high more middle reaches ih =>
      refine ih (by omega) (by omega) before fun later within inside => ?_
      exact Nat.le_trans (Nat.le_of_not_lt reaches) (ascending middle later within inside)
  | case3 low high done => exact ⟨before, fun later within => behind later (by omega)⟩

end OrderedTable

namespace CodeRange

/-- Whether a range lies before another one.  It ends before the other begins; that it ends before
the other ends says more only where the other is empty. -/
structure Precedes (range other : CodeRange) : Prop where
  begins : range.last < other.first
  ends : range.last ≤ other.last

instance (range other : CodeRange) : Decidable (range.Precedes other) :=
  decidable_of_iff (range.last < other.first ∧ range.last ≤ other.last)
    ⟨fun ⟨begins, ends⟩ => ⟨begins, ends⟩, fun ⟨begins, ends⟩ => ⟨begins, ends⟩⟩

/-- Whether a table is in ascending order, without overlaps. -/
def Sorted (table : Array CodeRange) : Prop :=
  table.toList.Pairwise Precedes

instance (table : Array CodeRange) : Decidable (Sorted table) :=
  inferInstanceAs (Decidable (List.Pairwise _ _))

variable {table : Array CodeRange}

theorem Sorted.precedes (sorted : Sorted table) {earlier later : Nat} (before : earlier < later)
    (inside : earlier < table.size) (inside' : later < table.size) :
    table[earlier].Precedes table[later] :=
  List.pairwise_iff_getElem.1 sorted earlier later inside inside' before

/-- Halving a sorted table finds the range that holds a code point, if there is one. -/
theorem covers_iff (sorted : Sorted table) (code : Nat) :
    covers table code = true ↔ ∃ range ∈ table, range.mem code := by
  obtain ⟨ends, ends_eq, found⟩ := OrderedTable.exists_ends last table code
  have ascending : ∀ earlier later, earlier ≤ later → later < table.size →
      ends earlier ≤ ends later := by
    intro earlier later onward inside
    rcases Nat.eq_or_lt_of_le onward with rfl | before
    · exact Nat.le_refl _
    · have inside' := Nat.lt_trans before inside
      rw [ends_eq later inside, ends_eq earlier inside']
      exact (sorted.precedes before inside' inside).ends
  have parts : OrderedTable.Parts ends table.size code
      (OrderedTable.seek ends code 0 table.size) :=
    OrderedTable.parts_seek ascending (Nat.zero_le _) (Nat.le_refl _)
      (fun _ below => absurd below (Nat.not_lt_zero _)) fun _ above inside =>
        absurd inside (Nat.not_lt.2 above)
  rw [covers, found]
  generalize OrderedTable.seek ends code 0 table.size = position at parts
  constructor
  · intro covered
    cases read : table[position]? with
    | none =>
        rw [read] at covered
        cases covered
    | some range =>
        obtain ⟨inside, rfl⟩ := Array.getElem?_eq_some_iff.1 read
        rw [read] at covered
        refine ⟨_, Array.getElem_mem inside, of_decide_eq_true covered, ?_⟩
        rw [← ends_eq position inside]
        exact parts.behind position (Nat.le_refl _) inside
  · rintro ⟨range, mem, starts, reaches⟩
    obtain ⟨index, inside, rfl⟩ := Array.mem_iff_getElem.1 mem
    have notBefore : position ≤ index := by
      refine Nat.le_of_not_lt fun before => ?_
      have short := parts.before index before
      rw [ends_eq index inside] at short
      omega
    -- A range behind the one that is found would have to start behind the code point.
    have same : position = index := by
      refine Nat.le_antisymm notBefore (Nat.le_of_not_lt fun before => ?_)
      have inside' := Nat.lt_trans before inside
      have reached := parts.behind position (Nat.le_refl _) inside'
      rw [ends_eq position inside'] at reached
      have := (sorted.precedes before inside' inside).begins
      omega
    rw [same, Array.getElem?_eq_getElem inside]
    exact decide_eq_true starts

end CodeRange

/-! ### Classes -/

/-- The code points that bits and ranges state: those below 256 whose bit is set, together with
those from 256 up that lie in some range. -/
def CharClass.stated (bits : ByteSet) (ranges : Array CodeRange) : Set Nat :=
  {code | code < 256 ∧ bits.contains code = true} ∪
    {code | 256 ≤ code ∧ ∃ range ∈ ranges, range.mem code}

/-- The code points that a class operand accepts in a program with the given table. -/
def ClassOperand.accepted (classes : Array CharClass) (operand : ClassOperand) : Set Nat :=
  {code | ∃ members, operand.resolve? classes = .ok members ∧ members.contains code = true}

namespace CharClass

variable {bits : ByteSet} {ranges : Array CodeRange} {code : Nat}

theorem contains_iff (sorted : CodeRange.Sorted ranges) (negated : Bool) :
    (CharClass.mk bits ranges negated).contains code = true ↔
      (code ∈ stated bits ranges ↔ negated = false) := by
  have found : (if code < 256 then bits.contains code else CodeRange.covers ranges code) = true ↔
      code ∈ stated bits ranges := by
    split
    · next small => simp [stated, small, Nat.not_le.2 small]
    · next large => simp [stated, large, Nat.not_lt.1 large, CodeRange.covers_iff sorted]
  rw [← found, contains]
  cases (if code < 256 then bits.contains code else CodeRange.covers ranges code) <;>
    cases negated <;> simp

/-- Without ranges, only what is stated below 256 is left. -/
theorem stated_narrow (bits : ByteSet) (ranges : Array CodeRange) :
    stated bits #[] = stated bits ranges ∩ Set.Iio 256 := by
  ext code
  simp only [stated, Set.mem_union, Set.mem_inter_iff, Set.mem_ofPred_eq, Set.mem_Iio,
    Array.not_mem_empty, false_and, exists_false, and_false, or_false]
  constructor
  · intro held
    exact ⟨.inl held, held.1⟩
  · rintro ⟨held | ⟨large, _⟩, small⟩
    · exact held
    · omega

/-- Without bits, only what is stated from 256 up is left. -/
theorem stated_wide (bits : ByteSet) (ranges : Array CodeRange) :
    stated .empty ranges = stated bits ranges ∩ Set.Ici 256 := by
  ext code
  simp only [stated, Set.mem_union, Set.mem_inter_iff, Set.mem_ofPred_eq, Set.mem_Ici,
    ByteSet.contains_empty, Bool.false_eq_true, and_false, false_or]
  constructor
  · rintro ⟨large, held⟩
    exact ⟨.inr ⟨large, held⟩, large⟩
  · rintro ⟨⟨small, _⟩ | held, large⟩
    · omega
    · exact held

end CharClass

namespace ClassOperand

variable {classes : Array CharClass} {operand : ClassOperand} {bits : ByteSet}
  {ranges : Array CodeRange}

theorem accepted_of_resolve (sorted : CodeRange.Sorted ranges)
    (resolved : operand.resolve? classes = .ok ⟨bits, ranges, false⟩) :
    operand.accepted classes = CharClass.stated bits ranges := by
  ext code
  simp [accepted, resolved, CharClass.contains_iff sorted]

/-- A negated class accepts the complement of what is stated. -/
theorem accepted_of_resolve_negated (sorted : CodeRange.Sorted ranges)
    (resolved : operand.resolve? classes = .ok ⟨bits, ranges, true⟩) :
    operand.accepted classes = (CharClass.stated bits ranges)ᶜ := by
  ext code
  simp [accepted, resolved, CharClass.contains_iff sorted]

/-- An instruction steps over a character if its operand accepts that. -/
theorem step_over_iff {attempt : Attempt} {point : Point} (store : Store) (operand : ClassOperand)
    {character : Character}
    (next : attempt.text.charAt? point.cursor.position attempt.range = some character) :
    Plan.ofInstruction attempt point store (.charClass operand) =
        .goto point.next (point.cursor.step character.length) ↔
      character.code ∈ operand.accepted attempt.program.classes := by
  simp only [Plan.ofInstruction, Plan.charClass, next, accepted, Set.mem_ofPred_eq]
  cases operand.resolve? attempt.program.classes with
  | error index => simp [Plan.corrupt, Plan.goto]
  | ok members => cases members.contains character.code <;> simp [Plan.fail, Plan.goto]

/-- All class instructions denote their set.  Whatever bits and whatever sorted table of ranges a
class states, a mixed class accepts what they state, a narrow one the part of it below 256, a wide
one the part of it from 256 up, a class of the program's table the whole of it again, and each of
them when it is negated the complement.  The instruction steps over the characters that its operand
accepts.  Halving the table finds what looking at each of its ranges finds, and reads nothing outside
of it. -/
theorem class_operands_denote_their_set (classes : Array CharClass) (bits : ByteSet)
    {ranges : Array CodeRange} (sorted : CodeRange.Sorted ranges) :
    let stated := CharClass.stated bits ranges
    (mixed bits ranges false).accepted classes = stated ∧
      (mixed bits ranges true).accepted classes = statedᶜ ∧
      (narrow bits false).accepted classes = stated ∩ Set.Iio 256 ∧
      (narrow bits true).accepted classes = (stated ∩ Set.Iio 256)ᶜ ∧
      (wide ranges false).accepted classes = stated ∩ Set.Ici 256 ∧
      (wide ranges true).accepted classes = (stated ∩ Set.Ici 256)ᶜ ∧
      (∀ index : Nat, classes[index]? = some ⟨bits, ranges, false⟩ →
        (entry index).accepted classes = stated) ∧
      (∀ index : Nat, classes[index]? = some ⟨bits, ranges, true⟩ →
        (entry index).accepted classes = statedᶜ) ∧
      (∀ (attempt : Attempt) (point : Point) (store : Store) (operand : ClassOperand)
          (character : Character), attempt.program.classes = classes →
        attempt.text.charAt? point.cursor.position attempt.range = some character →
          (Plan.ofInstruction attempt point store (.charClass operand) =
              .goto point.next (point.cursor.step character.length) ↔
            character.code ∈ operand.accepted classes)) ∧
      ∀ code, Guarded.covers ranges code = some (decide (∃ range ∈ ranges, range.mem code)) := by
  intro stated
  have none : CodeRange.Sorted #[] := .nil
  refine ⟨accepted_of_resolve sorted rfl, accepted_of_resolve_negated sorted rfl, ?_, ?_, ?_, ?_,
    ?_, ?_, ?_, ?_⟩
  · rw [← CharClass.stated_narrow]
    exact accepted_of_resolve none rfl
  · rw [← CharClass.stated_narrow]
    exact accepted_of_resolve_negated none rfl
  · rw [← CharClass.stated_wide]
    exact accepted_of_resolve sorted rfl
  · rw [← CharClass.stated_wide]
    exact accepted_of_resolve_negated sorted rfl
  · intro index listed
    exact accepted_of_resolve sorted (by rw [resolve?, listed])
  · intro index listed
    exact accepted_of_resolve_negated sorted (by rw [resolve?, listed])
  · rintro attempt point store operand character rfl next
    exact step_over_iff store operand next
  · intro code
    rw [Guarded.covers_eq, Option.some.injEq, Bool.eq_iff_iff, decide_eq_true_iff]
    exact CodeRange.covers_iff sorted code

/-- The table has a range below 256, which is never looked at, one across 256, and one above.  The
letter is in the first range and its bit is not set. -/
theorem class_operands_denote_their_set_across_threshold :
    let bits := ByteSet.ofBytes #[0x30, 0xff]
    let ranges : Array CodeRange := #[⟨0x41, 0x5a⟩, ⟨0xf0, 0x17f⟩, ⟨0x3040, 0x309f⟩]
    let classes : Array CharClass := #[⟨.empty, #[], false⟩, ⟨bits, ranges, true⟩]
    CodeRange.Sorted ranges ∧
      (mixed bits ranges false).accepted classes = CharClass.stated bits ranges ∧
      (narrow bits true).accepted classes = (CharClass.stated bits ranges ∩ Set.Iio 256)ᶜ ∧
      (entry 1).accepted classes = (CharClass.stated bits ranges)ᶜ ∧
      0x41 ∉ CharClass.stated bits ranges ∧ 0x30 ∈ CharClass.stated bits ranges ∧
      0x100 ∈ CharClass.stated bits ranges ∧ Guarded.covers ranges 0x180 = some false := by
  intro bits ranges classes
  have sorted : CodeRange.Sorted ranges := by decide
  obtain ⟨mixed, _, _, narrow, _, _, _, entry, _, covers⟩ :=
    class_operands_denote_their_set classes bits sorted
  have members : ∀ code, code ∈ CharClass.stated bits ranges ↔
      code < 256 ∧ bits.contains code = true ∨ 256 ≤ code ∧ ∃ range ∈ ranges, range.mem code :=
    fun _ => Iff.rfl
  refine ⟨sorted, mixed, narrow, entry 1 rfl, ?_, ?_, ?_, ?_⟩
  · rw [members]
    decide
  · rw [members]
    decide
  · rw [members]
    decide
  · rw [covers]
    decide

end ClassOperand

end PatternMachine
