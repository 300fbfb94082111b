import PatternMachine.Program.Builder

/-!
# What building makes of a builder

A builder holds instructions whose targets are still open, and a list of the labels they name.
`Builder.resolved` is the instruction that stands at an address when all labels are bound, and
`Builder.build_ok` says that building gives exactly these.  `Builder.Extends` lists what later calls
leave alone: instructions, the uses of labels in them, and labels that are bound.
-/

namespace PatternMachine

namespace Builder

/-! ### Resolving -/

/-- The addresses that the instruction at an address is given for its target, the last of them for
good. -/
def targetsAt (builder : Builder) (address : Nat) : List Nat :=
  builder.uses.toList.filterMap fun use =>
    if use.address = address then builder.address? use.label else none

/-- The instruction at an address, with its target. -/
def resolved (builder : Builder) (address : Nat) : Option Instruction :=
  builder.code[address]?.map fun instruction =>
    (builder.targetsAt address).foldl (fun found target => found.withTarget address target)
      instruction

/-- Resolving labels makes the code neither longer nor shorter. -/
theorem size_eq_of_resolved {builder : Builder} {code : Array Instruction}
    (agrees : ∀ address : Nat, code[address]? = builder.resolved address) :
    code.size = builder.code.size := by
  have sameLength : ∀ address : Nat, code.size ≤ address ↔ builder.code.size ≤ address := by
    intro address
    rw [← Array.getElem?_eq_none_iff, ← Array.getElem?_eq_none_iff, agrees, resolved,
      Option.map_eq_none_iff]
  exact Nat.le_antisymm ((sameLength _).2 (Nat.le_refl _)) ((sameLength _).1 (Nat.le_refl _))

/-- Every label in use is bound. -/
def Settled (builder : Builder) : Prop :=
  ∀ use ∈ builder.uses, ∃ target, builder.address? use.label = some target

/-- The targets of a list of uses are written one after the other. -/
theorem resolve_all (builder : Builder) (uses : List LabelUse) (code : Array Instruction)
    (bound : ∀ use ∈ uses, ∃ target, builder.address? use.label = some target) :
    ∃ code', uses.foldlM builder.resolve code = .ok code' ∧ ∀ address : Nat, code'[address]? =
      code[address]?.map fun instruction =>
        (uses.filterMap fun use =>
            if use.address = address then builder.address? use.label else none).foldl
          (fun found target => found.withTarget address target) instruction := by
  induction uses generalizing code with
  | nil =>
      refine ⟨code, rfl, ?_⟩
      intro address
      exact Option.map_id'.symm
  | cons use uses ih =>
      obtain ⟨target, isBound⟩ := bound use List.mem_cons_self
      obtain ⟨code', folded, agrees⟩ :=
        ih (code.modify use.address (·.withTarget use.address target))
          fun other mem => bound other (List.mem_cons_of_mem use mem)
      refine ⟨code', ?_, ?_⟩
      · rw [List.foldlM_cons]
        simp only [resolve, isBound]
        exact folded
      · intro address
        rw [agrees address, Array.getElem?_modify]
        by_cases own : use.address = address
        · subst own
          rw [if_pos rfl, Option.map_map, List.filterMap_cons_some (b := target)]
          · rfl
          · rw [if_pos rfl, isBound]
        · rw [if_neg own, List.filterMap_cons_none]
          rw [if_neg own]

/-- Building succeeds as soon as every label in use is bound. -/
theorem build_ok {builder : Builder} (settled : builder.Settled) :
    ∃ code : Array Instruction, (∀ address : Nat, code[address]? = builder.resolved address) ∧
      builder.build.1 = .ok
        { code
          templates := builder.templates
          classes := builder.classes
          repeatRanges := builder.repeatRanges
          groupCount := builder.groupCount
          emptyCheckCount := builder.emptyCheckCount
          loggedStarts := builder.loggedStarts
          loggedEnds := builder.loggedEnds
          options := builder.options
          encoding := builder.encoding } := by
  obtain ⟨code, folded, agrees⟩ :=
    builder.resolve_all builder.uses.toList builder.code fun use mem =>
      settled use (Array.mem_toList_iff.1 mem)
  refine ⟨code, agrees, ?_⟩
  rw [build, ← Array.foldlM_toList, folded]

/-! ### What later calls leave alone -/

/-- Every use of a label belongs to an instruction that is there. -/
def Placed (builder : Builder) : Prop :=
  ∀ use ∈ builder.uses, use.address < builder.code.size

/-- `later` is what has become of `earlier`: instructions and uses have been appended, labels that
were bound have stayed so, and what was declared is still declared. -/
structure Extends (earlier later : Builder) : Prop where
  code : ∃ more : Array Instruction, later.code = earlier.code ++ more
  uses : ∃ more : List LabelUse, later.uses.toList = earlier.uses.toList ++ more ∧
    ∀ use ∈ more, earlier.code.size ≤ use.address
  bound : ∀ label target, earlier.address? label = some target →
    later.address? label = some target
  labels : earlier.labels.size ≤ later.labels.size
  emptyChecks : earlier.emptyCheckCount ≤ later.emptyCheckCount
  declared : later.groupCount = earlier.groupCount ∧ later.classes = earlier.classes ∧
    later.options = earlier.options ∧ later.encoding = earlier.encoding

variable {earlier middle later : Builder}

namespace Extends

theorem refl (builder : Builder) : Extends builder builder where
  code := ⟨#[], Array.append_empty.symm⟩
  uses := ⟨[], (List.append_nil _).symm, fun _ mem => nomatch mem⟩
  bound := fun _ _ isBound => isBound
  labels := Nat.le_refl _
  emptyChecks := Nat.le_refl _
  declared := ⟨rfl, rfl, rfl, rfl⟩

theorem size_le (growth : Extends earlier later) : earlier.code.size ≤ later.code.size := by
  obtain ⟨more, code⟩ := growth.code
  rw [code, Array.size_append]
  exact Nat.le_add_right _ _

theorem trans (first : Extends earlier middle) (second : Extends middle later) :
    Extends earlier later where
  code := by
    obtain ⟨more, code⟩ := first.code
    obtain ⟨more', code'⟩ := second.code
    exact ⟨more ++ more', by rw [code', code, Array.append_assoc]⟩
  uses := by
    obtain ⟨more, uses, behind⟩ := first.uses
    obtain ⟨more', uses', behind'⟩ := second.uses
    refine ⟨more ++ more', by rw [uses', uses, List.append_assoc], ?_⟩
    intro use mem
    rcases List.mem_append.1 mem with mem | mem
    · exact behind use mem
    · exact Nat.le_trans first.size_le (behind' use mem)
  bound := fun label target isBound => second.bound label target (first.bound label target isBound)
  labels := Nat.le_trans first.labels second.labels
  emptyChecks := Nat.le_trans first.emptyChecks second.emptyChecks
  declared := by
    obtain ⟨groups, classes, options, encoding⟩ := first.declared
    obtain ⟨groups', classes', options', encoding'⟩ := second.declared
    exact ⟨groups'.trans groups, classes'.trans classes, options'.trans options,
      encoding'.trans encoding⟩

theorem getElem? (growth : Extends earlier later) {address : Nat}
    (inside : address < earlier.code.size) :
    later.code[address]? = earlier.code[address]? := by
  obtain ⟨more, code⟩ := growth.code
  rw [code]
  exact Array.getElem?_append_left inside

/-- An address is given no targets but by the uses that were there when it was the last. -/
theorem targetsAt (growth : Extends earlier later) {address : Nat}
    (inside : address < earlier.code.size) :
    later.targetsAt address = earlier.uses.toList.filterMap fun use =>
      if use.address = address then later.address? use.label else none := by
  obtain ⟨more, uses, behind⟩ := growth.uses
  rw [Builder.targetsAt, uses, List.filterMap_append]
  have elsewhere : (more.filterMap fun use =>
      if use.address = address then later.address? use.label else none) = [] := by
    rw [List.filterMap_eq_nil_iff]
    intro use mem
    rw [if_neg]
    rintro rfl
    exact absurd inside (Nat.not_lt.2 (behind use mem))
  rw [elsewhere, List.append_nil]

end Extends

/-- `later` is what has become of `earlier`, and labels made before are bound as they were. -/
structure Appends (earlier later : Builder) : Prop extends Extends earlier later where
  kept : ∀ label : Label, label.index < earlier.labels.size →
    later.address? label = earlier.address? label
  placed : earlier.Placed → later.Placed

namespace Appends

theorem trans (first : Appends earlier middle) (second : Appends middle later) :
    Appends earlier later where
  toExtends := first.toExtends.trans second.toExtends
  kept := by
    intro label inside
    rw [second.kept label (Nat.lt_of_lt_of_le inside first.labels), first.kept label inside]
  placed := fun placed => second.placed (first.placed placed)

end Appends

/-! ### Calls one by one -/

@[simp] theorem code_emit (builder : Builder) (instruction : Instruction) :
    (builder.emit instruction).code = builder.code.push instruction := rfl

@[simp] theorem uses_emit (builder : Builder) (instruction : Instruction) :
    (builder.emit instruction).uses = builder.uses := rfl

@[simp] theorem code_emitTo (builder : Builder) (instruction : Instruction) (label : Label) :
    (builder.emitTo instruction label).code = builder.code.push instruction := rfl

@[simp] theorem uses_emitTo (builder : Builder) (instruction : Instruction) (label : Label) :
    (builder.emitTo instruction label).uses =
      builder.uses.push ⟨builder.code.size, label⟩ := rfl

theorem appends_emit (builder : Builder) (instruction : Instruction) :
    Appends builder (builder.emit instruction) where
  code := ⟨#[instruction], rfl⟩
  uses := ⟨[], (List.append_nil _).symm, fun _ mem => nomatch mem⟩
  bound := fun _ _ isBound => isBound
  labels := Nat.le_refl _
  emptyChecks := Nat.le_refl _
  declared := ⟨rfl, rfl, rfl, rfl⟩
  kept := fun _ _ => rfl
  placed := by
    intro placed use mem
    rw [code_emit, Array.size_push]
    exact Nat.lt_succ_of_lt (placed use mem)

theorem appends_emitTo (builder : Builder) (instruction : Instruction) (label : Label) :
    Appends builder (builder.emitTo instruction label) where
  code := ⟨#[instruction], rfl⟩
  uses := by
    refine ⟨[⟨builder.code.size, label⟩], Array.toList_push, ?_⟩
    intro use mem
    obtain rfl := List.mem_singleton.1 mem
    exact Nat.le_refl _
  bound := fun _ _ isBound => isBound
  labels := Nat.le_refl _
  emptyChecks := Nat.le_refl _
  declared := ⟨rfl, rfl, rfl, rfl⟩
  kept := fun _ _ => rfl
  placed := by
    intro placed use mem
    rw [code_emitTo, Array.size_push]
    rw [uses_emitTo] at mem
    rcases Array.mem_push.1 mem with mem | rfl
    · exact Nat.lt_succ_of_lt (placed use mem)
    · exact Nat.lt_succ_self _

theorem appends_addEmptyCheck (builder : Builder) :
    Appends builder builder.addEmptyCheck.2 where
  code := ⟨#[], Array.append_empty.symm⟩
  uses := ⟨[], (List.append_nil _).symm, fun _ mem => nomatch mem⟩
  bound := fun _ _ isBound => isBound
  labels := Nat.le_refl _
  emptyChecks := Nat.le_succ _
  declared := ⟨rfl, rfl, rfl, rfl⟩
  kept := fun _ _ => rfl
  placed := fun placed => placed

theorem address?_newLabel (builder : Builder) (label : Label) :
    builder.newLabel.2.address? label = builder.address? label := by
  simp only [address?, newLabel, Array.getElem?_push]
  split
  · next last => rw [last, Array.getElem?_eq_none (Nat.le_refl _)]; rfl
  · rfl

theorem address?_newLabel_self (builder : Builder) :
    builder.newLabel.2.address? builder.newLabel.1 = none := by
  rw [address?_newLabel, address?, newLabel, Array.getElem?_eq_none (Nat.le_refl _)]
  rfl

theorem size_newLabel (builder : Builder) :
    builder.newLabel.2.labels.size = builder.labels.size + 1 :=
  Array.size_push none

theorem appends_newLabel (builder : Builder) : Appends builder builder.newLabel.2 where
  code := ⟨#[], Array.append_empty.symm⟩
  uses := ⟨[], (List.append_nil _).symm, fun _ mem => nomatch mem⟩
  bound := fun label _ isBound => (builder.address?_newLabel label).trans isBound
  labels := by
    rw [size_newLabel]
    exact Nat.le_succ _
  emptyChecks := Nat.le_refl _
  declared := ⟨rfl, rfl, rfl, rfl⟩
  kept := fun label _ => builder.address?_newLabel label
  placed := fun placed => placed

theorem address?_bind (builder : Builder) (label other : Label) :
    (builder.bind label).address? other =
      if label.index = other.index ∧ label.index < builder.labels.size then some builder.code.size
      else builder.address? other := by
  simp only [address?, bind, Array.getElem?_setIfInBounds]
  by_cases same : label.index = other.index
  · by_cases inside : label.index < builder.labels.size
    · simp [same, same ▸ inside]
    · simp [same, same ▸ inside]
  · simp [same]

theorem address?_bind_self {builder : Builder} {label : Label}
    (inside : label.index < builder.labels.size) :
    (builder.bind label).address? label = some builder.code.size := by
  rw [address?_bind, if_pos ⟨rfl, inside⟩]

@[simp] theorem size_bind (builder : Builder) (label : Label) :
    (builder.bind label).labels.size = builder.labels.size :=
  Array.size_setIfInBounds

theorem address?_bind_of_ne {builder : Builder} {label other : Label}
    (apart : label.index ≠ other.index) :
    (builder.bind label).address? other = builder.address? other := by
  rw [address?_bind, if_neg fun same => apart same.1]

/-- A label that is bound for the first time disturbs no other. -/
theorem extends_bind {builder : Builder} {label : Label}
    (unbound : builder.address? label = none) : Extends builder (builder.bind label) where
  code := ⟨#[], Array.append_empty.symm⟩
  uses := ⟨[], (List.append_nil _).symm, fun _ mem => nomatch mem⟩
  bound := by
    intro other _ isBound
    rw [address?_bind_of_ne]
    · exact isBound
    · intro same
      rw [show other = label from congrArg Label.mk same.symm, unbound] at isBound
      cases isBound
  labels := Nat.le_of_eq (builder.size_bind label).symm
  emptyChecks := Nat.le_refl _
  declared := ⟨rfl, rfl, rfl, rfl⟩

/-- A label that is not bound stays so while others are bound. -/
theorem Appends.unbound (appends : Appends earlier later) {label : Label}
    (inside : label.index < earlier.labels.size) (unbound : earlier.address? label = none) :
    later.address? label = none :=
  (appends.kept label inside).trans unbound

/-- Labels that were made on the way may be bound. -/
theorem Appends.bind (appends : Appends earlier later) {label : Label}
    (made : earlier.labels.size ≤ label.index) (unbound : later.address? label = none) :
    Appends earlier (later.bind label) where
  toExtends := appends.toExtends.trans (extends_bind unbound)
  kept := by
    intro other inside
    rw [address?_bind_of_ne (Nat.ne_of_gt (Nat.lt_of_lt_of_le inside made)),
      appends.kept other inside]
  placed := fun placed => appends.placed placed

/-- Two labels have been made and are not bound yet. -/
structure Labelled (earlier later : Builder) (first second : Label) : Prop where
  appends : Appends earlier later
  made : earlier.labels.size ≤ first.index ∧ earlier.labels.size ≤ second.index
  inside : first.index < later.labels.size ∧ second.index < later.labels.size
  apart : first.index ≠ second.index
  unbound : later.address? first = none ∧ later.address? second = none

theorem labelled_newLabel (builder : Builder) :
    Labelled builder builder.newLabel.2.newLabel.2 builder.newLabel.1
      builder.newLabel.2.newLabel.1 where
  appends := builder.appends_newLabel.trans builder.newLabel.2.appends_newLabel
  made := ⟨Nat.le_refl _, builder.appends_newLabel.labels⟩
  inside := by
    have first : builder.newLabel.1.index < builder.newLabel.2.labels.size := by
      rw [size_newLabel]
      exact Nat.lt_succ_self _
    refine ⟨Nat.lt_of_lt_of_le first builder.newLabel.2.appends_newLabel.labels, ?_⟩
    rw [size_newLabel]
    exact Nat.lt_succ_self _
  apart := by
    have second : builder.newLabel.2.newLabel.1.index = builder.labels.size + 1 :=
      builder.size_newLabel
    rw [second]
    exact Nat.ne_of_lt (Nat.lt_succ_self _)
  unbound := by
    refine ⟨?_, builder.newLabel.2.address?_newLabel_self⟩
    rw [address?_newLabel, address?_newLabel_self]

/-! ### The instruction at the end -/

/-- No use of a label belongs to the instruction that is appended next. -/
theorem Placed.targetsAt_size {builder : Builder} (placed : builder.Placed)
    (address? : Label → Option Nat) :
    (builder.uses.toList.filterMap fun use =>
      if use.address = builder.code.size then address? use.label else none) = [] := by
  rw [List.filterMap_eq_nil_iff]
  intro use mem
  rw [if_neg]
  exact Nat.ne_of_lt (placed use (Array.mem_toList_iff.1 mem))

/-- An instruction without a target stays what it is. -/
theorem resolved_emit {builder : Builder} (placed : builder.Placed) {instruction : Instruction}
    (growth : Extends (builder.emit instruction) later) :
    later.resolved builder.code.size = some instruction := by
  have inside : builder.code.size < (builder.emit instruction).code.size := by
    rw [code_emit, Array.size_push]
    exact Nat.lt_succ_self _
  rw [resolved, growth.getElem? inside, growth.targetsAt inside]
  have untargeted := placed.targetsAt_size later.address?
  simp only [code_emit, uses_emit, Array.getElem?_push_size, Option.map_some, untargeted,
    List.foldl_nil]

/-- An instruction that names a label gets the address to which that is bound. -/
theorem resolved_emitTo {builder : Builder} (placed : builder.Placed) {instruction : Instruction}
    {label : Label} {target : Nat} (growth : Extends (builder.emitTo instruction label) later)
    (isBound : later.address? label = some target) :
    later.resolved builder.code.size =
      some (instruction.withTarget builder.code.size target) := by
  have inside : builder.code.size < (builder.emitTo instruction label).code.size := by
    rw [code_emitTo, Array.size_push]
    exact Nat.lt_succ_self _
  rw [resolved, growth.getElem? inside, growth.targetsAt inside]
  have untargeted := placed.targetsAt_size later.address?
  simp only [code_emitTo, uses_emitTo, Array.getElem?_push_size, Option.map_some,
    Array.toList_push, List.filterMap_append, untargeted, List.nil_append]
  simp [isBound]

end Builder

end PatternMachine
