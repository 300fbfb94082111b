import PatternMachine.Proofs.Bounds.Dispatch
import PatternMachine.Proofs.Expression.Leaf
import PatternMachine.Proofs.Guarded.Matching
import PatternMachine.Proofs.Guarded.Store

/-!
# Dispatching under guard

A dispatch is made here of readings that have no result where an access would lie outside.  At a
cursor that fits, on a store that fits, it consists of the very moves of the dispatch that runs.
-/

namespace PatternMachine

namespace Guarded

/-! ### Plans -/

section

variable (attempt : Attempt) (point : Point) (store : Store)

/-- Goes on behind what was consumed up to a position, or fails if nothing could be. -/
def consumedBehind : Option Nat → Option Plan
  | some stop => do
      let cursor ← cursorBehind attempt.text point.cursor stop
      some (.goto point.next cursor)
  | none => some .fail

/-- Consumes one character if its code point is accepted. -/
def oneChar (accepts : Nat → Bool) : Option Plan := do
  match ← charAt attempt.text point.cursor.position attempt.range with
  | some character =>
      some (if accepts character.code then
        .goto point.next (point.cursor.step character.length)
      else
        .fail)
  | none => some .fail

/-- Consumes a literal. -/
def literal (excerpt : Excerpt) : Option Plan := do
  let stop ← matchExcerpt attempt.text point.cursor.position attempt.range excerpt
    attempt.ignoresCase
  consumedBehind attempt point stop

/-- Consumes a literal of one byte. -/
def literalByte (value : UInt8) : Option Plan := do
  let stop ← matchExcerpt attempt.text point.cursor.position attempt.range
    (.whole ⟨⟨#[value]⟩, attempt.program.encoding⟩) attempt.ignoresCase
  some (.consumed point.next (stop.map (⟨·, point.cursor.position⟩)))

/-- The sum of two machine words, if it is one. -/
def add (left right : Nat) : Option Nat :=
  if left + right < 2 ^ 64 then some (left + right) else none

/-- The number of slots of a match's region, if a machine word can count them. -/
def regionSize (program : Program) : Option Nat :=
  add program.groupCount 1

/-- The part of a template that an instruction names, if the template has it. -/
def literalOf (index offset length : Nat) : Option (Option Excerpt) :=
  match attempt.program.templates[index]? with
  | some template => do
      let last ← add offset length
      some (if last ≤ template.size then
        some ⟨⟨template, attempt.program.encoding⟩, offset, last, true⟩
      else
        none)
  | none => some none

/-- Consumes characters that fold to given code points. -/
def foldedChars (codes : List Nat) : Option Plan := do
  let stop ← matchCodes attempt.text point.cursor.position attempt.range codes
  consumedBehind attempt point stop

/-- Consumes a character of a class. -/
def charClass (operand : ClassOperand) : Option Plan := do
  match ← charAt attempt.text point.cursor.position attempt.range with
  | none => some .fail
  | some character =>
      match operand.resolve? attempt.program.classes with
      | .ok members =>
          let found ← classContains members character.code
          some (if found then .goto point.next (point.cursor.step character.length) else .fail)
      | .error index => some (.corrupt (.invalidClass index))

/-- Consumes any character, a line terminator only if allowed. -/
def anyChar (acrossLines : Bool) : Option Plan := do
  match ← charAt attempt.text point.cursor.position attempt.range with
  | none => some .fail
  | some character =>
      let stopped ← if acrossLines || attempt.options.multiline then some false
        else newlineAt attempt.text point.cursor.position
      some (if stopped then .fail else .goto point.next (point.cursor.step character.length))

/-- The position behind a repetition of what lies from `first` to `last`. -/
def matchCaptured (first last position : Nat) (ignoreCase : Bool) : Option (Option Nat) :=
  matchExcerpt attempt.text position attempt.range (.captured attempt.text first last) ignoreCase

/-- The position behind a repetition of one group. -/
def repeatGroup (position group : Nat) (ignoreCase : Bool) :
    Option (Except Corruption (Option Nat)) :=
  if attempt.program.hasGroup group then do
    match ← span store group with
    | some (first, last) => (matchCaptured attempt first last position ignoreCase).map .ok
    | none => some (.ok (some position))
  else
    some (.error (.invalidGroup group))

/-- The position behind a repetition of the first of several groups that is set and repeated. -/
def repeatAny (position : Nat) (ignoreCase : Bool) :
    List Nat → Option (Except Corruption (Option Nat))
  | [] => some (.ok none)
  | group :: others =>
      if attempt.program.hasGroup group then do
        match ← span store group with
        | some (first, last) =>
            match ← matchCaptured attempt first last position ignoreCase with
            | some stop => some (.ok (some stop))
            | none => repeatAny position ignoreCase others
        | none => repeatAny position ignoreCase others
      else
        some (.error (.invalidGroup group))

/-- The position behind a repetition of a group's instance at a call level. -/
def repeatAtLevel (position : Nat) (ignoreCase : Bool) (level : Int) (groups : List Nat) :
    Option (Except Corruption (Option Nat)) :=
  match groups.find? fun group => !attempt.program.hasGroup group with
  | some group => some (.error (.invalidGroup group))
  | none => do
      match ← spanAtLevel store.stack groups level with
      | some (first, last) => (matchCaptured attempt first last position ignoreCase).map .ok
      | none => some (.ok none)

/-- The position behind what a reference consumes at `position`. -/
def repetition (position : Nat) : BackReference → Option (Except Corruption (Option Nat))
  | .first => repeatGroup attempt store position 1 attempt.ignoresCase
  | .second => repeatGroup attempt store position 2 attempt.ignoresCase
  | .group number folded =>
      repeatGroup attempt store position number (folded || attempt.ignoresCase)
  | .anyOf numbers folded =>
      repeatAny attempt store position (folded || attempt.ignoresCase) numbers
  | .atLevel folded level numbers => repeatAtLevel attempt store position folded level numbers

/-- Consumes a repetition of a capture. -/
def backReference (reference : BackReference) : Option Plan := do
  match ← repetition attempt store point.cursor.position reference with
  | .ok stop => consumedBehind attempt point stop
  | .error reason => some (.corrupt reason)

/-- Opens a group here. -/
def openGroup (group : Nat) (logged : Bool) : Option Plan :=
  if attempt.program.hasGroup group then do
    let bounds ← boundsOf store group
    some (.goto point.next point.cursor
      [if logged then .openGroup group point.cursor.position
        else .setGroup group { bounds with start := .direct point.cursor.position }])
  else
    some (.corrupt (.invalidGroup group))

/-- Closes a group here. -/
def closeGroup (group : Nat) (logged : Bool) : Option Plan :=
  if attempt.program.hasGroup group then do
    let bounds ← boundsOf store group
    some (.goto point.next point.cursor
      [if logged then .closeGroup group point.cursor.position
        else .setGroup group { bounds with stop := .direct point.cursor.position }])
  else
    some (.corrupt (.invalidGroup group))

/-- Unsets groups, to be undone for those whose openings or closings are. -/
def clearGroups (first stop : Nat) : Option Plan :=
  if first = 0 ∨ stop < first then
    some (.corrupt (.invalidGroup stop))
  else do
    let slots ← regionSize attempt.program
    some (if slots < stop then
      .corrupt (.invalidGroup stop)
    else
      .goto point.next point.cursor ((List.range' first (stop - first)).map fun group =>
        if attempt.program.loggedStarts.contains group || attempt.program.loggedEnds.contains group
        then .clearGroup group
        else .setGroup group .unset))

/-- What an instruction does that needs its target, which has to lie in the code. -/
def branch (offset : Int) (plan : Nat → Option Plan) : Option Plan :=
  match attempt.program.target? point.address offset with
  | some target => plan target
  | none => some (.corrupt .addressOutOfRange)

/-- Whether a byte comes next. -/
def nextIs (next : UInt8) : Option Bool :=
  if point.cursor.position < attempt.range then do
    let here ← byte attempt.text point.cursor.position
    some (here == next)
  else
    some false

/-- Ends an iteration, and steps over the loop's way back if it was empty. -/
def emptyCheckEnd (id : Nat) (watched : Option (List Nat)) : Option Plan :=
  if id < attempt.program.emptyCheckCount then
    match store.stack.emptyCheck? id with
    | none => some (.corrupt (.missingMark Mark.emptyCheck.name))
    | some index => do
        let empty ← iterationEmpty point store index watched
        if empty then
          let report : Effect := .note (.emptyIteration point.address id point.cursor.position)
          let loopBack := attempt.program.code[point.next]?.map Instruction.isLoopBack
          some (if loopBack = some true then .goto (point.next + 1) point.cursor [report]
            else ⟨[report], .corrupt .noLoopBack⟩)
        else
          some (.goto point.next point.cursor)
  else
    some (.corrupt (.invalidEmptyCheck id))

/-- Ends an iteration of a repeat. -/
def repeatNext (id : Nat) (greedy direct : Bool) : Option Plan :=
  match attempt.program.repeatRanges[id]? with
  | none => some (.corrupt (.invalidRepeat id))
  | some range => do
      let register ← repeatOf store id
      match register.entry with
      | none => some (.corrupt (.repeatNotEntered id))
      | some index =>
          if direct then
            some (Plan.afterIteration point range (nextIteration register.count) register.body
              greedy (.countInRegister id))
          else
            match store.stack.entry? index with
            | some (count, body) =>
                some (Plan.afterIteration point range (nextIteration count) body greedy
                  (.countInEntry index))
            | none => some (.corrupt (.repeatNotEntered id))

/-- Goes back a number of characters. -/
def lookBehind (length : Nat) : Option Plan := do
  match ← stepBack attempt.text 0 length point.cursor.position with
  | some position =>
      let cursor ← cursorAt attempt.text position
      some (.goto point.next cursor)
  | none => some .fail

/-- Starts a negative lookbehind. -/
def lookBehindNotStart (offset : Int) (length : Nat) : Option Plan :=
  branch attempt point offset fun target => do
    match ← stepBack attempt.text 0 length point.cursor.position with
    | some position =>
        let cursor ← cursorAt attempt.text position
        some (.goto point.next cursor [.push (.behindNot ⟨target, point.cursor⟩)])
    | none => some (.goto target point.cursor)

/-- What an instruction does at a point of a search.  Those that read neither the text nor a
register, and form no sum of words, have nothing to guard. -/
def ofInstruction : Instruction → Option Plan
  | .byte value => literalByte attempt point value
  | .bytes content => literal attempt point (.whole ⟨content, attempt.program.encoding⟩)
  | .template index offset length => do
      match ← literalOf attempt index offset length with
      | some excerpt => literal attempt point excerpt
      | none => some (.corrupt (.invalidTemplate index))
  | .foldedChar code => oneChar attempt point fun found => attempt.text.encoding.fold found == code
  | .foldedChars codes => foldedChars attempt point codes
  | .charClass operand => charClass attempt point operand
  | .anyChar acrossLines => anyChar attempt point acrossLines
  | .word wanted => oneChar attempt point fun found => attempt.text.encoding.isWord found == wanted
  | .assert assertion => do
      let holds ← holds attempt.text attempt.options attempt.range attempt.input.searchStart
        point.cursor assertion
      some (.check point.next point.cursor holds)
  | .openGroup group logged => openGroup attempt point store group logged
  | .closeGroup group logged => closeGroup attempt point store group logged
  | .clearGroups first stop => clearGroups attempt point first stop
  | .backReference reference => backReference attempt point store reference
  | .emptyCheckEnd id watched => emptyCheckEnd attempt point store id watched
  | .pushOrJump offset next =>
      branch attempt point offset fun target => do
        let comes ← nextIs attempt point next
        some (if comes then .goto point.next point.cursor [Plan.choiceAt point target]
          else .goto target point.cursor)
  | .pushIfNext offset next =>
      branch attempt point offset fun target => do
        let comes ← nextIs attempt point next
        some (.goto point.next point.cursor (if comes then [Plan.choiceAt point target] else []))
  | .repeatNext id greedy direct => repeatNext attempt point store id greedy direct
  | .lookBehind length => lookBehind attempt point length
  | .lookBehindNotStart offset length => lookBehindNotStart attempt point offset length
  | other => some (Plan.ofInstruction attempt point store other)

end

/-! ### What plans consist of -/

section

variable {attempt : Attempt} {point : Point} {store : Store}

theorem inside_literal {content : Text} {first last : Nat} (ordered : first ≤ last)
    (inside : last ≤ content.size) : Excerpt.Inside ⟨content, first, last, true⟩ :=
  ⟨Nat.le_trans ordered inside, inside, fun _ => ordered⟩

theorem inside_captured {text : Text} {first last : Nat} (inside : first ≤ text.size)
    (inside' : last ≤ text.size) : (Excerpt.captured text first last).Inside := by
  refine ⟨inside, inside', ?_⟩
  intro cuts
  cases cuts

theorem consumedBehind_eq (stop? : Option Nat)
    (inside : ∀ stop, stop? = some stop → stop ≤ attempt.range) :
    consumedBehind attempt point stop? =
      some (.consumed point.next (stop?.map (attempt.text.cursorBehind point.cursor))) := by
  cases stop? with
  | none => rfl
  | some stop =>
      have within := Nat.le_trans (inside stop rfl) attempt.range_le_size
      rw [consumedBehind, cursorBehind_eq point.cursor within]
      rfl

theorem oneChar_eq (accepts : Nat → Bool) :
    oneChar attempt point accepts = some (Plan.oneChar attempt point accepts) := by
  unfold oneChar Plan.oneChar
  rw [charAt_eq attempt.text _ attempt.range_le_size, Option.bind_eq_bind, Option.bind_some]
  dsimp only
  cases attempt.text.charAt? point.cursor.position attempt.range <;> rfl

theorem literal_eq (within : point.cursor.Fits attempt.range) {excerpt : Excerpt}
    (inside : excerpt.Inside) :
    literal attempt point excerpt = some (Plan.literal attempt point excerpt) := by
  rw [literal, matchExcerpt_eq attempt.range_le_size inside, Option.bind_eq_bind,
    Option.bind_some]
  exact consumedBehind_eq _ fun stop => Text.matchExcerpt?_le within.position

theorem literalByte_eq (value : UInt8) :
    literalByte attempt point value = some (Plan.literalByte attempt point value) := by
  have inside : (Excerpt.whole ⟨⟨#[value]⟩, attempt.program.encoding⟩).Inside :=
    inside_literal (Nat.zero_le _) (Nat.le_refl _)
  have same := @Attempt.matchByte?_literal attempt ⟨#[value]⟩ point.cursor.position rfl value rfl
  rw [literalByte, matchExcerpt_eq attempt.range_le_size inside, Option.bind_eq_bind,
    Option.bind_some, attempt.matchExcerpt?_whole _ _ attempt.range_le_size, ← same]
  rfl

theorem literalOf_eq {index offset length : Nat} (small : offset + length < 2 ^ 64) :
    literalOf attempt index offset length =
      some (attempt.program.literal? index offset length) := by
  unfold literalOf Program.literal?
  cases attempt.program.templates[index]? with
  | none => rfl
  | some template =>
      dsimp only
      rw [add, if_pos small]
      rfl

theorem foldedChars_eq (within : point.cursor.Fits attempt.range) (codes : List Nat) :
    foldedChars attempt point codes = some (Plan.foldedChars attempt point codes) := by
  rw [foldedChars, matchCodes_eq attempt.range_le_size, Option.bind_eq_bind, Option.bind_some]
  exact consumedBehind_eq _ fun stop => Text.matchCodes?_le within.position

theorem charClass_eq (operand : ClassOperand) :
    charClass attempt point operand = some (Plan.charClass attempt point operand) := by
  unfold charClass Plan.charClass
  rw [charAt_eq attempt.text _ attempt.range_le_size, Option.bind_eq_bind, Option.bind_some]
  dsimp only
  cases attempt.text.charAt? point.cursor.position attempt.range with
  | none => rfl
  | some character =>
      dsimp only
      cases operand.resolve? attempt.program.classes with
      | error index => rfl
      | ok members =>
          dsimp only
          rw [classContains_eq]
          rfl

theorem anyChar_eq (acrossLines : Bool) :
    anyChar attempt point acrossLines = some (Plan.anyChar attempt point acrossLines) := by
  unfold anyChar Plan.anyChar
  rw [charAt_eq attempt.text _ attempt.range_le_size, Option.bind_eq_bind, Option.bind_some]
  dsimp only
  cases here : attempt.text.charAt? point.cursor.position attempt.range with
  | none =>
      have nothing : attempt.text.hasChar point.cursor.position attempt.range = false := by
        rw [Bool.eq_false_iff]
        intro whole
        have there := Text.charAt?_eq_some_iff.2 ⟨Text.hasChar_iff.1 whole, rfl⟩
        rw [here] at there
        cases there
      rw [nothing]
      rfl
  | some character =>
      obtain ⟨whole, rfl⟩ := Text.charAt?_eq_some_iff.1 here
      rw [Text.hasChar_iff.2 whole, Bool.true_and, newlineAt_eq]
      dsimp only
      cases acrossLines || attempt.options.multiline with
      | true => rfl
      | false =>
          rw [Bool.false_or, if_neg Bool.false_ne_true, Option.bind_eq_bind, Option.bind_some]
          cases attempt.text.newlineAt point.cursor.position <;> rfl

theorem openGroup_eq (fits : store.Fits attempt) (group : Nat) (logged : Bool) :
    openGroup attempt point store group logged =
      some (Plan.openGroup attempt point store group logged) := by
  unfold openGroup Plan.openGroup
  split
  · next known =>
      rw [boundsOf_eq fits (Program.lt_regionSize_of_hasGroup known)]
      rfl
  · rfl

theorem closeGroup_eq (fits : store.Fits attempt) (group : Nat) (logged : Bool) :
    closeGroup attempt point store group logged =
      some (Plan.closeGroup attempt point store group logged) := by
  unfold closeGroup Plan.closeGroup
  split
  · next known =>
      rw [boundsOf_eq fits (Program.lt_regionSize_of_hasGroup known)]
      rfl
  · rfl

theorem regionSize_eq {program : Program} (small : program.regionSize < 2 ^ 64) :
    regionSize program = some program.regionSize :=
  if_pos small

theorem clearGroups_eq (small : attempt.program.regionSize < 2 ^ 64) (first stop : Nat) :
    clearGroups attempt point first stop = some (Plan.clearGroups attempt point first stop) := by
  unfold clearGroups Plan.clearGroups
  rw [regionSize_eq small, Option.bind_eq_bind, Option.bind_some, Program.regionSize]
  by_cases ordered : first = 0 ∨ stop < first
  · rw [if_pos ordered, if_pos (ordered.imp_right .inl)]
  · obtain ⟨positive, upward⟩ := not_or.1 ordered
    simp only [positive, upward, false_or, if_false]

/-! ### Back references -/

theorem matchCaptured_eq {first last : Nat} (starts : first ≤ attempt.range)
    (stops : last ≤ attempt.range) (position : Nat) (ignoreCase : Bool) :
    matchCaptured attempt first last position ignoreCase =
      some (attempt.matchCaptured? first last position ignoreCase) :=
  matchExcerpt_eq attempt.range_le_size
    (inside_captured (Nat.le_trans starts attempt.range_le_size)
      (Nat.le_trans stops attempt.range_le_size)) position ignoreCase

theorem repeatGroup_eq (fits : store.Fits attempt) (position group : Nat) (ignoreCase : Bool) :
    repeatGroup attempt store position group ignoreCase =
      some (attempt.repeatGroup? store position group ignoreCase) := by
  unfold repeatGroup Attempt.repeatGroup?
  split
  · next known =>
      rw [span_eq fits (Program.lt_regionSize_of_hasGroup known), Option.bind_eq_bind,
        Option.bind_some]
      cases found : store.span? group with
      | none => rfl
      | some span =>
          obtain ⟨starts, stops⟩ := fits.span? found
          dsimp only
          rw [matchCaptured_eq starts stops]
          rfl
  · rfl

theorem repeatAny_eq (fits : store.Fits attempt) (position : Nat) (ignoreCase : Bool)
    (groups : List Nat) :
    repeatAny attempt store position ignoreCase groups =
      some (attempt.repeatAny? store position ignoreCase groups) := by
  induction groups with
  | nil => rfl
  | cons group groups ih =>
      rw [repeatAny, Attempt.repeatAny?]
      split
      · next known =>
          rw [span_eq fits (Program.lt_regionSize_of_hasGroup known), Option.bind_eq_bind,
            Option.bind_some]
          cases found : store.span? group with
          | none => exact ih
          | some span =>
              obtain ⟨starts, stops⟩ := fits.span? found
              dsimp only
              rw [matchCaptured_eq starts stops, Option.bind_eq_bind, Option.bind_some]
              cases attempt.matchCaptured? span.1 span.2 position ignoreCase with
              | none => exact ih
              | some stop => rfl
      · rfl

theorem repeatAtLevel_eq (fits : store.Fits attempt) (shallow : store.depth < 2 ^ 31)
    (position : Nat) (ignoreCase : Bool) (level : Int) (groups : List Nat) :
    repeatAtLevel attempt store position ignoreCase level groups =
      some (attempt.repeatAtLevel? store position ignoreCase level groups) := by
  unfold repeatAtLevel Attempt.repeatAtLevel?
  cases groups.find? fun group => !attempt.program.hasGroup group with
  | some group => rfl
  | none =>
      dsimp only
      rw [spanAtLevel_eq shallow, Option.bind_eq_bind, Option.bind_some]
      cases found : store.stack.spanAtLevel? groups level with
      | none => rfl
      | some span =>
          obtain ⟨starts, stops⟩ := fits.spanAtLevel? found
          dsimp only
          rw [matchCaptured_eq starts stops]
          rfl

theorem repetition_eq (fits : store.Fits attempt) (shallow : store.depth < 2 ^ 31) (position : Nat)
    (reference : BackReference) :
    repetition attempt store position reference =
      some (reference.repeat? attempt store position) := by
  cases reference with
  | first | second | group number folded => exact repeatGroup_eq fits position _ _
  | anyOf numbers folded => exact repeatAny_eq fits position _ numbers
  | atLevel folded level numbers =>
      exact repeatAtLevel_eq fits shallow position folded level numbers

theorem backReference_eq (fits : store.Fits attempt) (within : point.cursor.Fits attempt.range)
    (shallow : store.depth < 2 ^ 31) (reference : BackReference) :
    backReference attempt point store reference =
      some (Plan.backReference attempt point store reference) := by
  unfold backReference Plan.backReference
  rw [repetition_eq fits shallow, Option.bind_eq_bind, Option.bind_some]
  cases repeated : reference.repeat? attempt store point.cursor.position with
  | error reason => rfl
  | ok stop? =>
      apply consumedBehind_eq
      rintro stop rfl
      exact BackReference.repeat?_le within.position repeated

/-! ### Loops, branches and lookbehinds -/

theorem branch_eq {offset : Int} {guarded : Nat → Option Plan} {plan : Nat → Plan}
    (same : ∀ target, guarded target = some (plan target)) :
    branch attempt point offset guarded = some (Plan.branch attempt point offset plan) := by
  unfold branch Plan.branch
  cases attempt.program.target? point.address offset with
  | none => rfl
  | some target => exact same target

theorem nextIs_eq (next : UInt8) :
    nextIs attempt point next = some (Plan.nextIs attempt point next) := by
  unfold nextIs Plan.nextIs
  split
  · next inside =>
      rw [byte_eq (Nat.lt_of_lt_of_le inside attempt.range_le_size), decide_eq_true inside,
        Bool.true_and]
      rfl
  · next beyond =>
      rw [decide_eq_false beyond]
      rfl

theorem emptyCheckEnd_eq (fits : store.Fits attempt) (id : Nat) (watched : Option (List Nat)) :
    emptyCheckEnd attempt point store id watched =
      some (Plan.emptyCheckEnd attempt point store id watched) := by
  unfold emptyCheckEnd Plan.emptyCheckEnd
  split
  · cases store.stack.emptyCheck? id with
    | none => rfl
    | some index =>
        dsimp only
        rw [iterationEmpty_eq fits, Option.bind_eq_bind, Option.bind_some]
        cases Plan.iterationEmpty point store index watched with
        | false => rfl
        | true =>
            rw [if_pos rfl, if_pos rfl]
  · rfl

theorem repeatNext_eq (fits : store.Fits attempt) (id : Nat) (greedy direct : Bool) :
    repeatNext attempt point store id greedy direct =
      some (Plan.repeatNext attempt point store id greedy direct) := by
  unfold repeatNext Plan.repeatNext
  cases found : attempt.program.repeatRanges[id]? with
  | none => rfl
  | some range =>
      obtain ⟨inside, _⟩ := Array.getElem?_eq_some_iff.1 found
      dsimp only
      rw [repeatOf_eq fits inside, Option.bind_eq_bind, Option.bind_some]
      cases (store.registers.repeatOf id).entry with
      | none => rfl
      | some index =>
          cases direct with
          | true => rfl
          | false =>
              dsimp only
              cases store.stack.entry? index <;> rfl

theorem stepBack_within (within : point.cursor.Fits attempt.range) (length : Nat) :
    stepBack attempt.text 0 length point.cursor.position =
      some (attempt.text.stepBack? 0 length point.cursor.position) :=
  stepBack_eq 0 length (Nat.le_trans within.position attempt.range_le_size)

theorem cursorAt_within (within : point.cursor.Fits attempt.range) {length position : Nat}
    (found : attempt.text.stepBack? 0 length point.cursor.position = some position) :
    cursorAt attempt.text position = some (attempt.text.cursorAt position) :=
  cursorAt_eq (Nat.le_trans (Text.stepBack?_le found)
    (Nat.le_trans within.position attempt.range_le_size))

theorem lookBehind_eq (within : point.cursor.Fits attempt.range) (length : Nat) :
    lookBehind attempt point length = some (Plan.lookBehind attempt point length) := by
  unfold lookBehind Plan.lookBehind
  rw [stepBack_within within, Option.bind_eq_bind, Option.bind_some]
  cases found : attempt.text.stepBack? 0 length point.cursor.position with
  | none => rfl
  | some position =>
      dsimp only
      rw [cursorAt_within within found]
      rfl

theorem lookBehindNotStart_eq (within : point.cursor.Fits attempt.range) (offset : Int)
    (length : Nat) :
    lookBehindNotStart attempt point offset length =
      some (Plan.lookBehindNotStart attempt point offset length) := by
  apply branch_eq
  intro target
  rw [stepBack_within within, Option.bind_eq_bind, Option.bind_some]
  cases found : attempt.text.stepBack? 0 length point.cursor.position with
  | none => rfl
  | some position =>
      dsimp only
      rw [cursorAt_within within found]
      rfl

/-- Where the literal of an instruction ends in its template, 0 if it takes none from there. -/
def templateEnd : Instruction → Nat
  | .template _ offset length => offset + length
  | _ => 0

/-- Whether the sums that are formed of a program's numbers are machine words: the number of slots
of a match's region, and where literals end in their templates. -/
structure Addressable (program : Program) : Prop where
  slots : program.regionSize < 2 ^ 64
  literals : ∀ instruction ∈ program.code, templateEnd instruction < 2 ^ 64

/-- What an instruction does within the span reads nothing outside. -/
theorem ofInstruction_eq (fits : store.Fits attempt) (within : point.cursor.Fits attempt.range)
    (shallow : store.depth < 2 ^ 31) {instruction : Instruction}
    (addressable : Addressable attempt.program) (mem : instruction ∈ attempt.program.code) :
    ofInstruction attempt point store instruction =
      some (Plan.ofInstruction attempt point store instruction) := by
  cases instruction with
  | byte value => exact literalByte_eq value
  | bytes content =>
      exact literal_eq within (inside_literal (Nat.zero_le _) (Nat.le_refl _))
  | template index offset length =>
      simp only [ofInstruction, Plan.ofInstruction]
      rw [literalOf_eq (addressable.literals _ mem), Option.bind_eq_bind, Option.bind_some]
      cases found : attempt.program.literal? index offset length with
      | none => rfl
      | some excerpt =>
          refine literal_eq within ?_
          unfold Program.literal? at found
          split at found
          · split at found
            · next reaches =>
                cases found
                exact inside_literal (Nat.le_add_right _ _) reaches
            · cases found
          · cases found
  | foldedChar code => exact oneChar_eq fun found => attempt.text.encoding.fold found == code
  | word wanted => exact oneChar_eq fun found => attempt.text.encoding.isWord found == wanted
  | foldedChars codes => exact foldedChars_eq within codes
  | charClass operand => exact charClass_eq operand
  | anyChar acrossLines => exact anyChar_eq acrossLines
  | assert assertion =>
      simp only [ofInstruction, Plan.ofInstruction]
      rw [holds_eq]
      rfl
  | openGroup group logged => exact openGroup_eq fits group logged
  | closeGroup group logged => exact closeGroup_eq fits group logged
  | clearGroups first stop => exact clearGroups_eq addressable.slots first stop
  | backReference reference => exact backReference_eq fits within shallow reference
  | emptyCheckEnd id watched => exact emptyCheckEnd_eq fits id watched
  | pushOrJump offset next | pushIfNext offset next =>
      apply branch_eq
      intro target
      rw [nextIs_eq]
      rfl
  | repeatNext id greedy direct => exact repeatNext_eq fits id greedy direct
  | lookBehind length => exact lookBehind_eq within length
  | lookBehindNotStart offset length => exact lookBehindNotStart_eq within offset length
  | _ => rfl

end

end Guarded

end PatternMachine
