import PatternMachine.Proofs.Labels

/-!
# What a failed build takes away

Building takes the code out of the builder before it looks at the labels.  If one of them is not
bound, the code is lost, and the uses of labels in it are not.  `Builder.Forgets` compares what
becomes of the builder with what would have become of it had it not been asked to build.  It is kept
by every call but another build, so the two differ in nothing else.
-/

namespace PatternMachine

namespace Builder

variable {builder failed kept left : Builder} {failure : MatchError}

/-! ### The failure -/

theorem build_of_error (isError : builder.build.1 = .error failure) :
    builder.build.2 = { builder with code := #[] } := by
  unfold build at isError ⊢
  split at isError
  · cases isError
  · rfl

/-- A build fails at the first use of a label that is not bound. -/
theorem exists_open_use (isError : builder.build.1 = .error failure) :
    ∃ before use after, builder.uses.toList = before ++ use :: after ∧
      (∀ earlier ∈ before, ∃ target, builder.address? earlier.label = some target) ∧
      builder.address? use.label = none ∧
      failure = .corrupt use.address .addressOutOfRange := by
  cases found : builder.uses.toList.find? fun use => (builder.address? use.label).isNone with
  | none =>
      have settled : builder.Settled := by
        intro use mem
        have isBound := List.find?_eq_none.1 found use (Array.mem_toList_iff.2 mem)
        exact Option.ne_none_iff_exists'.1 (mt Option.isNone_iff_eq_none.2 isBound)
      obtain ⟨code, _, built⟩ := build_ok settled
      rw [built] at isError
      cases isError
  | some use =>
      obtain ⟨unbound, before, after, parts, bound⟩ := List.find?_eq_some_iff_append.1 found
      rw [Option.isNone_iff_eq_none] at unbound
      have bound : ∀ earlier ∈ before, ∃ target, builder.address? earlier.label = some target := by
        intro earlier mem
        have isBound := bound earlier mem
        rw [Bool.not_eq_true', Option.isNone_eq_false_iff] at isBound
        exact Option.isSome_iff_exists.1 isBound
      refine ⟨before, use, after, parts, bound, unbound, ?_⟩
      rw [build, ← Array.foldlM_toList, parts, resolve_error bound unbound] at isError
      cases isError
      rfl

/-- A builder whose uses of labels belong to its code has some code to lose. -/
theorem Placed.code_ne_empty (placed : builder.Placed)
    (isError : builder.build.1 = .error failure) : builder.code ≠ #[] := by
  obtain ⟨before, use, after, parts, _⟩ := exists_open_use isError
  have mem : use ∈ builder.uses.toList := by
    rw [parts]
    exact List.mem_append_right before List.mem_cons_self
  intro noCode
  have inside := placed use (Array.mem_toList_iff.1 mem)
  rw [noCode] at inside
  cases inside

theorem Holds.placed {encoding : Encoding} {draft : Draft} (holds : builder.Holds encoding draft) :
    builder.Placed := by
  intro use mem
  rw [← Array.mem_toList_iff, holds.uses] at mem
  obtain ⟨index, line, read, _, address⟩ := Draft.Line.of_mem_uses mem
  obtain ⟨inside, _⟩ := List.getElem?_eq_some_iff.1 read
  rw [holds.size_eq]
  omega

/-! ### What is left -/

/-- Whether `left` is `kept` without the code of `failed`, and remembers the labels named there.
Bindings and uses that were added since are nearer to the start by what was lost. -/
structure Forgets (failed kept left : Builder) : Prop where
  code : kept.code = failed.code ++ left.code
  uses : ∃ added : List LabelUse, left.uses.toList = failed.uses.toList ++ added ∧
    kept.uses.toList = failed.uses.toList ++
      added.map fun use => ⟨failed.code.size + use.address, use.label⟩
  labels : kept.labels.size = left.labels.size
  bound : ∀ label, kept.address? label = left.address? label ∨
    kept.address? label = (left.address? label).map (failed.code.size + ·)
  rest : kept = { left with code := kept.code, labels := kept.labels, uses := kept.uses }

namespace Forgets

theorem of_error (isError : failed.build.1 = .error failure) :
    Forgets failed failed failed.build.2 := by
  rw [build_of_error isError]
  exact ⟨Array.append_empty.symm, ⟨[], (List.append_nil _).symm, (List.append_nil _).symm⟩, rfl,
    fun _ => .inl rfl, rfl⟩

theorem size_eq (forgets : Forgets failed kept left) :
    kept.code.size = failed.code.size + left.code.size := by
  rw [forgets.code, Array.size_append]

theorem encoding (forgets : Forgets failed kept left) : kept.encoding = left.encoding := by
  rw [forgets.rest]

theorem append (forgets : Forgets failed kept left) (line : Draft.Line) :
    Forgets failed (kept.append line) (left.append line) where
  code := by rw [code_append, code_append, forgets.code, Array.push_append]
  uses := by
    obtain ⟨added, uses, uses'⟩ := forgets.uses
    refine ⟨added ++ (line.label.map fun label => (⟨left.code.size, label⟩ : LabelUse)).toList,
      ?_, ?_⟩
    · rw [uses_append, uses, List.append_assoc]
    · rw [uses_append, uses', List.append_assoc, List.map_append, forgets.size_eq]
      cases line.label <;> rfl
  labels := by rw [labels_append, labels_append, forgets.labels]
  bound := by
    intro label
    simp only [address?, labels_append]
    exact forgets.bound label
  rest := by
    have same := congrArg (·.append line) forgets.rest
    revert same
    unfold Builder.append
    cases line.label <;> exact id

theorem newLabel (forgets : Forgets failed kept left) :
    Forgets failed kept.newLabel.2 left.newLabel.2 where
  code := forgets.code
  uses := forgets.uses
  labels := by rw [size_newLabel, size_newLabel, forgets.labels]
  bound := by
    intro label
    rw [address?_newLabel, address?_newLabel]
    exact forgets.bound label
  rest := congrArg (·.newLabel.2) forgets.rest

theorem bind (forgets : Forgets failed kept left) (label : Label) :
    Forgets failed (kept.bind label) (left.bind label) where
  code := forgets.code
  uses := forgets.uses
  labels := by rw [size_bind, size_bind, forgets.labels]
  bound := by
    intro other
    rw [address?_bind, address?_bind, forgets.labels]
    split
    · exact .inr (congrArg some forgets.size_eq)
    · exact forgets.bound other
  rest := congrArg (·.bind label) forgets.rest

/-- Whatever a builder is asked to do next, short of building, it does in the same way. -/
theorem after (forgets : Forgets failed kept left) {call : Call} (assembles : call ≠ .build) :
    Forgets failed (kept.after call) (left.after call) := by
  cases appends : call.line? left.encoding with
  | some line =>
      rw [after_eq_append appends]
      rw [← forgets.encoding] at appends
      rw [after_eq_append appends]
      exact forgets.append line
  | none =>
      have rest := congrArg (·.after call) forgets.rest
      cases call with
      | newLabel => exact forgets.newLabel
      | bind label => exact forgets.bind label
      | build => exact absurd rfl assembles
      | setOptions | setGroups | addRepeat | addEmptyCheck | addTemplate | addClass =>
          exact ⟨forgets.code, forgets.uses, forgets.labels, forgets.bound, rest⟩
      | _ => cases appends

theorem afterCalls (forgets : Forgets failed kept left) {calls : List Call}
    (assemble : .build ∉ calls) :
    Forgets failed (kept.afterCalls calls) (left.afterCalls calls) := by
  induction calls generalizing kept left with
  | nil => exact forgets
  | cons call calls ih =>
      rw [List.mem_cons, not_or] at assemble
      exact ih (forgets.after (Ne.symm assemble.1)) assemble.2

theorem isBound_iff (forgets : Forgets failed kept left) (label : Label) :
    (∃ target, left.address? label = some target) ↔
      ∃ target, kept.address? label = some target := by
  rcases forgets.bound label with same | moved
  · rw [same]
  · rw [moved]
    cases left.address? label <;> simp

/-- The labels in use are bound in both builders or in neither. -/
theorem settled_iff (forgets : Forgets failed kept left) : left.Settled ↔ kept.Settled := by
  obtain ⟨added, uses, uses'⟩ := forgets.uses
  simp only [Settled, ← Array.mem_toList_iff, uses, uses', List.mem_append, List.mem_map, or_imp,
    forall_and, forgets.isBound_iff, forall_exists_index, and_imp, forall_apply_eq_imp_iff₂]

end Forgets

/-! ### The law of failed builds -/

/-- A failed build forgets the code and nothing else.  It names the first use of a label that is not
bound.  Whatever follows, short of another build, the builder holds what it would hold without the
failure, apart from the code that it had then, and the labels in use are bound if they would be.  As
there was code to lose, what is built in the end is never the program that would be built without the
failure.  If no use is left for code that is not there, it has what was appended since. -/
theorem failed_build_forgets_code {encoding : Encoding} {calls : List Call}
    (succeed : ∀ index : Nat, calls[index]? = some .build →
      ∃ program, ((new encoding).afterCalls (calls.take index)).build.1 = .ok program)
    {failure : MatchError} (isError : ((new encoding).afterCalls calls).build.1 = .error failure)
    {later : List Call} (assemble : .build ∉ later) :
    let failed := (new encoding).afterCalls calls
    let kept := (new encoding).afterCalls (calls ++ later)
    let left := (new encoding).afterCalls (calls ++ .build :: later)
    (∃ before use after, failed.uses.toList = before ++ use :: after ∧
        (∀ earlier ∈ before, ∃ target, failed.address? earlier.label = some target) ∧
        failed.address? use.label = none ∧
        failure = .corrupt use.address .addressOutOfRange) ∧
      failed.code ≠ #[] ∧ failed.build.2 = { failed with code := #[] } ∧
      Forgets failed kept left ∧ (left.Settled ↔ kept.Settled) ∧
      (kept.Settled → ∃ program, kept.build.1 = .ok program ∧ left.build.1 ≠ .ok program ∧
        (left.Placed → ∃ code : Array Instruction, left.build.1 = .ok { program with code } ∧
          program.code.size = failed.code.size + code.size ∧
          ∀ address : Nat, code[address]? = left.resolved address)) := by
  intro failed kept left
  have placed : failed.Placed := (holds_ofCalls succeed).placed
  have forgets : Forgets failed kept left := by
    have kept_eq : kept = failed.afterCalls later := List.foldl_append
    have left_eq : left = failed.build.2.afterCalls later := List.foldl_append
    rw [kept_eq, left_eq]
    exact (Forgets.of_error isError).afterCalls assemble
  have lost : failed.code ≠ #[] := placed.code_ne_empty isError
  refine ⟨exists_open_use isError, lost, build_of_error isError, forgets, forgets.settled_iff,
    fun settled => ?_⟩
  obtain ⟨code, agrees, built⟩ := build_ok settled
  obtain ⟨code', agrees', built'⟩ := build_ok (forgets.settled_iff.2 settled)
  have size : code.size = failed.code.size + code'.size := by
    rw [size_eq_of_resolved agrees, size_eq_of_resolved agrees', forgets.size_eq]
  refine ⟨_, built, ?_, fun _ => ⟨code', ?_, size, agrees'⟩⟩
  · rw [built']
    intro same
    have same_code : code' = code := congrArg Program.code (Except.ok.inj same)
    rw [same_code] at size
    exact lost (Array.eq_empty_of_size_eq_zero (by omega))
  · rw [forgets.rest]
    exact built'

/-- A jump to a label that is bound too late.  It is lost when building fails, but not its use of
the label, which is then written into the jump that comes to stand at its address. -/
theorem failed_build_forgets_code_of_pending_jump :
    let calls : List Call := [.newLabel, .emit .accept, .jump ⟨0⟩]
    let later : List Call := [.bind ⟨0⟩, .emit .accept, .emit (.jump 5)]
    let kept := (new .utf8).afterCalls (calls ++ later)
    let left := (new .utf8).afterCalls (calls ++ .build :: later)
    ((new .utf8).afterCalls calls).build.1 = .error (.corrupt 1 .addressOutOfRange) ∧
      kept.Settled ∧ left.Placed ∧
      ∃ program, kept.build.1 = .ok program ∧
        program.code = #[.accept, .jump 1, .accept, .jump 5] ∧ left.build.1 ≠ .ok program ∧
        left.build.1 = .ok { program with code := #[.accept, .jump (-1)] } := by
  intro calls later kept left
  have isError : ((new .utf8).afterCalls calls).build.1 =
      .error (.corrupt 1 .addressOutOfRange) := rfl
  have succeed : ∀ index : Nat, calls[index]? = some .build →
      ∃ program, ((new .utf8).afterCalls (calls.take index)).build.1 = .ok program := by
    intro index isBuild
    have mem := List.mem_of_getElem? isBuild
    simp [calls] at mem
  have assemble : .build ∉ later := by simp [later]
  obtain ⟨_, _, _, _, _, builds⟩ := failed_build_forgets_code succeed isError assemble
  have settled : kept.Settled := by
    intro use mem
    obtain rfl := Array.mem_singleton.1 mem
    exact ⟨2, rfl⟩
  have placed : left.Placed := by
    intro use mem
    obtain rfl := Array.mem_singleton.1 mem
    exact Nat.one_lt_two
  obtain ⟨program, built, apart, remains⟩ := builds settled
  obtain ⟨code, built', _, _⟩ := remains placed
  cases built
  cases built'
  exact ⟨isError, settled, placed, _, rfl, rfl, apart, rfl⟩

/-- A jump is lost because its label was bound too late. -/
theorem failed_build_loses_jump :
    let calls : List Call := [.newLabel, .jump ⟨0⟩]
    let later : List Call := [.bind ⟨0⟩, .emit .accept]
    let failed := (new .utf8).afterCalls calls
    let kept := (new .utf8).afterCalls (calls ++ later)
    let left := (new .utf8).afterCalls (calls ++ .build :: later)
    failed.build.1 = .error (.corrupt 0 .addressOutOfRange) ∧ failed.build.2 ≠ failed ∧
      ∃ program, kept.build.1 = .ok program ∧ program.code = #[.jump 1, .accept] ∧
        left.build.1 = .ok { program with code := #[.accept] } := by
  intro calls later failed kept left
  have forgotten : failed.build.2 ≠ failed := by
    intro same
    have code := congrArg Builder.code same
    cases code
  exact ⟨rfl, forgotten, _, rfl, rfl, rfl⟩

end Builder

end PatternMachine
