import Mathlib.Order.Monotone.Basic
import PatternMachine.Proofs.Labels
import PatternMachine.Proofs.Relocation.Plans

/-!
# Drafts with something inserted

Calls of a builder that are made after others have the same effect, only later: labels get higher
numbers, and lines stand farther on.  `Draft.Shifts` relates the drafts that the same calls describe
in two builders, one of which has been given additional labels and lines, and
`Builder.Holds.relocation_of_shifts` makes of it a relation between the programs.
-/

namespace PatternMachine

/-- The label that is made so many labels later. -/
def Label.later (count : Nat) (label : Label) : Label :=
  ⟨label.index + count⟩

/-- A line that names a label which was made later. -/
def Draft.Line.later (count : Nat) (line : Draft.Line) : Draft.Line :=
  ⟨line.instruction, line.label.map (Label.later count), fun isLabel =>
    line.targeted (by rwa [Option.isSome_map] at isLabel)⟩

namespace Builder

/-- A call in which every label was made later. -/
def Call.later (count : Nat) : Call → Call
  | .bind label => .bind (label.later count)
  | .jump label => .jump (label.later count)
  | .push label => .push (label.later count)
  | .pushOrJump label next => .pushOrJump (label.later count) next
  | .pushIfNext label next => .pushIfNext (label.later count) next
  | .repeatStart id exit greedy => .repeatStart id (exit.later count) greedy
  | .lookNotStart label => .lookNotStart (label.later count)
  | .lookBehindNotStart label length => .lookBehindNotStart (label.later count) length
  | .call label => .call (label.later count)
  | other => other

theorem Call.line?_later (encoding : Encoding) (count : Nat) (call : Call) :
    (call.later count).line? encoding = (call.line? encoding).map (Draft.Line.later count) := by
  cases call <;> rfl

theorem Call.build_not_mem_later (count : Nat) {calls : List Call} (noBuild : .build ∉ calls) :
    .build ∉ calls.map (later count) := by
  intro mem
  obtain ⟨call, mem, same⟩ := List.mem_map.1 mem
  cases call with
  | build => exact noBuild mem
  | _ => cases same

theorem Call.lines_cons (encoding : Encoding) (call : Call) (calls : List Call) :
    lines encoding (call :: calls) = (call.line? encoding).toList ++ lines encoding calls := by
  rw [lines, List.filterMap_cons]
  cases call.line? encoding <;> rfl

/-! ### What a builder declares beside its code -/

/-- A builder without its code. -/
def tables (builder : Builder) : Builder :=
  { builder with code := #[], labels := #[], uses := #[] }

theorem eq_of_tables {builder other : Builder} (same : other.tables = builder.tables) :
    other = { builder with code := other.code, labels := other.labels, uses := other.uses } := by
  obtain ⟨⟩ := other
  obtain ⟨⟩ := builder
  simp only [tables, mk.injEq, true_and] at same
  obtain ⟨rfl, rfl, rfl, rfl, rfl, rfl, rfl, rfl, rfl⟩ := same
  rfl

/-- What a builder declares does not depend on its labels. -/
theorem tables_after_later {builder other : Builder} (same : other.tables = builder.tables)
    (count : Nat) {call : Call} (noBuild : call ≠ .build) :
    (other.after (call.later count)).tables = (builder.after call).tables := by
  rw [eq_of_tables same]
  cases call with
  | foldedLiteral bytes =>
      simp only [Call.later, after, foldedLiteral]
      split <;> rfl
  | build => exact absurd rfl noBuild
  | _ => rfl

theorem tables_afterCalls_later {builder other : Builder} (same : other.tables = builder.tables)
    (count : Nat) {calls : List Call} (noBuild : .build ∉ calls) :
    (other.afterCalls (calls.map (Call.later count))).tables = (builder.afterCalls calls).tables := by
  induction calls generalizing builder other with
  | nil => exact same
  | cons call calls ih =>
      refine ih (tables_after_later same count ?_) fun mem => noBuild (List.mem_cons_of_mem _ mem)
      rintro rfl
      exact noBuild List.mem_cons_self

end Builder

namespace Draft

variable {encoding : Encoding} {count hole : Nat} {place : Nat → Nat} {draft draft' : Draft}

/-- Whether a draft has the lines of another one elsewhere, except for one of them, and has made
more labels before. -/
structure Shifts (count : Nat) (place : Nat → Nat) (hole : Nat) (draft draft' : Draft) : Prop where
  labels : draft'.labels = draft.labels + count
  length : draft'.lines.length = place draft.lines.length
  lines : ∀ {address : Nat} {line : Draft.Line}, address ≠ hole →
    draft.lines[address]? = some line → draft'.lines[place address]? = some (line.later count)
  bound : ∀ label, draft'.bound (label.later count) = (draft.bound label).map place

theorem length_after_of_line? {call : Builder.Call} (noBuild : call ≠ .build) :
    (draft.after encoding call).lines.length =
      draft.lines.length + (call.line? encoding).toList.length := by
  unfold Draft.after
  cases appends : call.line? encoding with
  | some line => exact List.length_append
  | none =>
      cases call with
      | build => exact absurd rfl noBuild
      | _ => rfl

namespace Shifts

theorem append (shifts : Shifts count place hole draft draft') (line : Draft.Line)
    (next : place (draft.lines.length + 1) = place draft.lines.length + 1) :
    Shifts count place hole { draft with lines := draft.lines ++ [line] }
      { draft' with lines := draft'.lines ++ [line.later count] } where
  labels := shifts.labels
  length := by
    rw [List.length_append, List.length_append, List.length_singleton, List.length_singleton, next,
      shifts.length]
  lines := by
    intro address found apart read
    dsimp only at read ⊢
    by_cases atEnd : address = draft.lines.length
    · subst atEnd
      rw [List.getElem?_concat_length] at read
      cases read
      rw [← shifts.length, List.getElem?_concat_length]
    · have inside : address < draft.lines.length := by
        have := (List.getElem?_eq_some_iff.1 read).1
        rw [List.length_append, List.length_singleton] at this
        omega
      rw [List.getElem?_append_left inside] at read
      have moved := shifts.lines apart read
      rw [List.getElem?_append_left (List.getElem?_eq_some_iff.1 moved).1, moved]
  bound := shifts.bound

theorem bind (shifts : Shifts count place hole draft draft') (label : Label) :
    Shifts count place hole (draft.bind label) (draft'.bind (label.later count)) where
  labels := shifts.labels
  length := shifts.length
  lines := shifts.lines
  bound := by
    intro other
    have same : (label.later count).index = (other.later count).index ∧
        (label.later count).index < draft'.labels ↔
          label.index = other.index ∧ label.index < draft.labels := by
      rw [shifts.labels]
      exact and_congr Nat.add_right_cancel_iff (Nat.add_lt_add_iff_right)
    simp only [Draft.bind, same]
    split
    · rw [Option.map_some, shifts.length]
    · exact shifts.bound other

theorem after (shifts : Shifts count place hole draft draft') {call : Builder.Call}
    (noBuild : call ≠ .build)
    (next : ∀ line, call.line? encoding = some line →
      place (draft.lines.length + 1) = place draft.lines.length + 1) :
    Shifts count place hole (draft.after encoding call)
      (draft'.after encoding (call.later count)) := by
  unfold Draft.after
  rw [Builder.Call.line?_later]
  cases appends : call.line? encoding with
  | some line => exact shifts.append line (next line appends)
  | none =>
      cases call with
      | bind label => exact shifts.bind label
      | newLabel =>
          have labels : draft'.labels + 1 = draft.labels + 1 + count := by
            rw [shifts.labels, Nat.add_right_comm]
          exact ⟨labels, shifts.length, shifts.lines, shifts.bound⟩
      | build => exact absurd rfl noBuild
      | setOptions | setGroups | addRepeat | addEmptyCheck | addTemplate | addClass => exact shifts
      | _ => cases appends

/-- The same calls keep two drafts alike, if the lines that they append stand together. -/
theorem afterCalls (shifts : Shifts count place hole draft draft') {calls : List Builder.Call}
    (noBuild : .build ∉ calls)
    (next : ∀ address, draft.lines.length ≤ address →
      address < draft.lines.length + (Builder.Call.lines encoding calls).length →
      place (address + 1) = place address + 1) :
    Shifts count place hole (calls.foldl (Draft.after encoding) draft)
      ((calls.map (Builder.Call.later count)).foldl (Draft.after encoding) draft') := by
  induction calls generalizing draft draft' with
  | nil => exact shifts
  | cons call calls ih =>
      have noBuild' : call ≠ .build := fun same => noBuild (same ▸ List.mem_cons_self)
      rw [Builder.Call.lines_cons, List.length_append] at next
      refine ih (shifts.after noBuild' ?_) (fun mem => noBuild (List.mem_cons_of_mem _ mem)) ?_
      · intro line appends
        refine next _ (Nat.le_refl _) ?_
        rw [appends, Option.toList_some, List.length_singleton]
        omega
      · intro address after before
        rw [length_after_of_line? noBuild'] at after before
        exact next address (Nat.le_trans (Nat.le_add_right _ _) after) (by omega)

end Shifts

/-! ### What calls leave alone -/

theorem length_afterCalls {calls : List Builder.Call} (noBuild : .build ∉ calls) (draft : Draft) :
    (calls.foldl (Draft.after encoding) draft).lines.length =
      draft.lines.length + (Builder.Call.lines encoding calls).length := by
  induction calls generalizing draft with
  | nil => rfl
  | cons call calls ih =>
      rw [List.foldl_cons, ih fun mem => noBuild (List.mem_cons_of_mem _ mem),
        length_after_of_line? fun same => noBuild (same ▸ List.mem_cons_self),
        Builder.Call.lines_cons, List.length_append, Nat.add_assoc]

/-- Lines stay where they are until the program is built. -/
theorem prefix_afterCalls {calls : List Builder.Call} (noBuild : .build ∉ calls) (draft : Draft) :
    draft.lines <+: (calls.foldl (Draft.after encoding) draft).lines := by
  induction calls generalizing draft with
  | nil => exact List.prefix_rfl
  | cons call calls ih =>
      refine List.IsPrefix.trans ?_ (ih (fun mem => noBuild (List.mem_cons_of_mem _ mem)) _)
      unfold Draft.after
      cases appends : call.line? encoding with
      | some line => exact List.prefix_append _ _
      | none =>
          cases call with
          | build => exact absurd List.mem_cons_self noBuild
          | _ => exact List.prefix_rfl

theorem getElem?_afterCalls {calls : List Builder.Call} (noBuild : .build ∉ calls) {draft : Draft}
    {address : Nat} (inside : address < draft.lines.length) :
    (calls.foldl (Draft.after encoding) draft).lines[address]? = draft.lines[address]? := by
  obtain ⟨rest, lines⟩ := @prefix_afterCalls encoding calls noBuild draft
  rw [← lines, List.getElem?_append_left inside]

/-- Calls whose labels were made later do not bind an earlier one. -/
theorem bound_afterCalls_later {label : Label} (early : label.index < count)
    (calls : List Builder.Call) (draft : Draft) :
    ((calls.map (Builder.Call.later count)).foldl (Draft.after encoding) draft).bound label =
      draft.bound label := by
  induction calls generalizing draft with
  | nil => rfl
  | cons call calls ih =>
      rw [List.map_cons, List.foldl_cons, ih]
      unfold Draft.after
      rw [Builder.Call.line?_later]
      cases call.line? encoding with
      | some line => rfl
      | none =>
          cases call with
          | bind other =>
              refine if_neg fun same => ?_
              have later : other.index + count = label.index := same.1
              omega
          | _ => rfl

/-- Every line was appended by some call. -/
theorem exists_call_of_mem_lines {calls : List Builder.Call} {line : Draft.Line}
    (mem : line ∈ (ofCalls encoding calls).lines) :
    ∃ call ∈ calls, call.line? encoding = some line := by
  suffices ∀ draft : Draft, line ∈ (calls.foldl (Draft.after encoding) draft).lines →
      line ∈ draft.lines ∨ ∃ call ∈ calls, call.line? encoding = some line by
    exact (this .blank mem).resolve_left List.not_mem_nil
  clear mem
  induction calls with
  | nil => exact fun draft mem => .inl mem
  | cons call calls ih =>
      intro draft mem
      rcases ih _ mem with mem | ⟨other, mem, appends⟩
      · unfold Draft.after at mem
        cases appends : call.line? encoding with
        | some appended =>
            rw [appends] at mem
            rcases List.mem_append.1 mem with mem | mem
            · exact .inl mem
            · obtain rfl := List.mem_singleton.1 mem
              exact .inr ⟨call, List.mem_cons_self, appends⟩
        | none =>
            rw [appends] at mem
            cases call with
            | build => cases mem
            | _ => exact .inl mem
      · exact .inr ⟨other, List.mem_cons_of_mem _ mem, appends⟩

end Draft

namespace Builder

/-! ### The programs of such drafts -/

/-- Whether calls give no instruction a target but by a label. -/
def Call.Labelled (calls : List Call) : Prop :=
  ∀ instruction, .emit instruction ∈ calls → instruction.hasTarget = false

theorem Call.Labelled.hasTarget_eq_false {calls : List Call} (labelled : Labelled calls)
    {encoding : Encoding} {line : Draft.Line} (mem : line ∈ (Draft.ofCalls encoding calls).lines)
    (unlabelled : line.label = none) : line.instruction.hasTarget = false := by
  obtain ⟨call, called, appends⟩ := Draft.exists_call_of_mem_lines mem
  cases call with
  | emit instruction =>
      cases appends
      exact labelled instruction called
  | literal bytes =>
      cases appends
      simp only [Draft.Line.plain, Instruction.literal]
      split <;> rfl
  | foldedLiteral bytes =>
      cases appends
      simp only [Draft.Line.plain, foldedInstruction]
      split <;> rfl
  | jump | push | pushOrJump | pushIfNext | repeatStart | lookNotStart | lookBehindNotStart
  | call =>
      cases appends
      cases unlabelled
  | _ => cases appends

/-- A program tells of its builder what that has declared beside the code. -/
theorem tables_of_build {builder other : Builder} {program : Program}
    (built : builder.build.1 = .ok program) {program' : Program}
    (built' : other.build.1 = .ok program') (same : other.tables = builder.tables) :
    program' = program.withCode program'.code := by
  unfold build at built built'
  split at built
  · split at built'
    · cases built
      cases built'
      rw [eq_of_tables same]
      rfl
    · cases built'
  · cases built

namespace Holds

variable {encoding : Encoding} {draft draft' : Draft} {builder builder' : Builder}
  {program program' : Program}

/-- A draft that became a program has all its labels bound. -/
theorem settled_of_build (holds : builder.Holds encoding draft)
    (built : builder.build.1 = .ok program) : draft.Settled := by
  by_contra unsettled
  have isOpen : ∃ address, draft.OpenAt address := by
    by_contra closed
    exact unsettled (Draft.settled_of_not_openAt (not_exists.1 closed))
  classical
  have failed := holds.build_error (Nat.find_spec isOpen) fun earlier => Nat.find_min isOpen
  rw [built] at failed
  cases failed

/-- What a built program has at an address, and how long it is. -/
theorem code_of_build (holds : builder.Holds encoding draft)
    (built : builder.build.1 = .ok program) :
    program.code.size = draft.lines.length ∧
      ∀ (address : Nat) (line : Draft.Line), draft.lines[address]? = some line →
        program.code[address]? = some
          (match line.label.bind draft.bound with
          | some target => line.instruction.withTarget address target
          | none => line.instruction) := by
  obtain ⟨other, built', code⟩ := holds.build_ok (holds.settled_of_build built)
  obtain rfl : other = program := Except.ok.inj (built'.symm.trans built)
  exact code

/-- A draft that is shifted becomes a program whose code is relocated. -/
theorem relocation_of_shifts {count hole : Nat} {place : Nat → Nat}
    (holds : builder.Holds encoding draft) (holds' : builder'.Holds encoding draft')
    (built : builder.build.1 = .ok program)
    (built' : builder'.build.1 = .ok program') (shifts : draft.Shifts count place hole draft')
    (labelled : ∀ line ∈ draft.lines, line.label = none → line.instruction.hasTarget = false)
    (first : place 0 = 0) (ordered : StrictMono place)
    (next : ∀ address, address ≠ hole → place (address + 1) = place address + 1)
    (noLoopBack : ∀ instruction, program.code[hole]? = some instruction →
      instruction.isLoopBack = false) :
    Relocation place hole program.code program'.code where
  first := first
  next := next
  size := by
    intro address
    rw [(holds.code_of_build built).1, (holds'.code_of_build built').1, shifts.length]
    exact ordered.lt_iff_lt
  instruction := by
    intro address instruction apart read
    obtain ⟨inside, _⟩ := Array.getElem?_eq_some_iff.1 read
    rw [(holds.code_of_build built).1] at inside
    obtain ⟨line, isLine⟩ : ∃ line, draft.lines[address]? = some line :=
      ⟨_, List.getElem?_eq_getElem inside⟩
    have code := (holds.code_of_build built).2 address line isLine
    obtain rfl := Option.some.inj (read.symm.trans code)
    refine ⟨_, (holds'.code_of_build built').2 _ _ (shifts.lines apart isLine), ?_⟩
    have mem := List.mem_of_getElem? isLine
    cases named : line.label with
    | none =>
        simp only [Draft.Line.later, named, Option.map_none, Option.bind_none]
        exact .plain (labelled line mem named)
    | some label =>
        obtain ⟨target, isBound⟩ := holds.settled_of_build built line mem label named
        have isBound' := shifts.bound label
        rw [isBound, Option.map_some] at isBound'
        simp only [Draft.Line.later, named, Option.map_some, Option.bind_some, isBound, isBound']
        exact .targeted (line.targeted (by rw [named]; rfl)) target
  noLoopBack := noLoopBack

end Holds

end Builder

end PatternMachine
