import PatternMachine.Program
import PatternMachine.Text.Step
import Mathlib.Data.List.Basic
import Mathlib.Logic.Function.Basic

/-!
# Expressions and what they match

An expression is a pattern before it is assembled.  Its meaning is the list of all ways in which it
can match from where a match stands, the preferred way first; it says nothing of addresses, stacks
or undoing.  Whoever asks for one match takes the first way in the list.
-/

namespace PatternMachine

/-- A pattern. -/
inductive Expression where
  /-- Bytes that are taken as they stand, or character by character if case is ignored. -/
  | literal (bytes : ByteArray)
  /-- A character of a class. -/
  | charClass (operand : ClassOperand)
  /-- Any character, a line terminator only if `acrossLines` is set. -/
  | anyChar (acrossLines : Bool)
  /-- One after the other. -/
  | sequence (first second : Expression)
  /-- The one or the other, the left one preferred. -/
  | choice (left right : Expression)
  /-- What is matched is captured by a group. -/
  | capture (group : Nat) (body : Expression)
  /-- As many times as possible. -/
  | star (body : Expression)
  /-- The body matches here, but nothing is consumed. -/
  | look (body : Expression)
  /-- The body does not match here. -/
  | lookNot (body : Expression)
  /-- The body, in no other way than the preferred one. -/
  | atomic (body : Expression)

/-- What is matched against an expression: a text, up to a position, under options. -/
structure Subject where
  text : Text
  range : Nat
  ignoresCase : Bool
  multiline : Bool
  /-- The classes that operands refer to. -/
  classes : Array CharClass

/-- Where a match has come to: a position, and the start and the end of each group as far as they
are set. -/
@[ext] structure Standing where
  position : Nat
  captures : Nat → Option Nat × Option Nat

namespace Standing

/-- Goes on at another position. -/
def moveTo (standing : Standing) (position : Nat) : Standing :=
  { standing with position }

/-- Opens a group here.  It has no end any more. -/
def openGroup (standing : Standing) (group : Nat) : Standing :=
  { standing with
    captures := Function.update standing.captures group (some standing.position, none) }

/-- Closes a group here.  Its start stays. -/
def closeGroup (standing : Standing) (group : Nat) : Standing :=
  { standing with
    captures :=
      Function.update standing.captures group
        ((standing.captures group).1, some standing.position) }

end Standing

namespace Subject

variable (subject : Subject)

/-- The characters of a literal, folded. -/
def foldedCodes (literal : Text) (start : Nat) : List Nat :=
  (literal.charactersFrom start).map fun (_, code) => literal.encoding.fold code

/-- Where a literal ends that stands at a position. -/
def literalStop? (bytes : ByteArray) (position : Nat) : Option Nat :=
  let literal : Text := ⟨bytes, subject.text.encoding⟩
  if subject.ignoresCase then
    subject.text.matchCodes? position subject.range (foldedCodes literal 0)
  else if position + literal.size ≤ subject.range ∧
      ∀ offset < literal.size, subject.text.byte (position + offset) = literal.byte offset then
    some (position + literal.size)
  else
    none

/-- Where a character ends that stands at a position and belongs to a class. -/
def classStop? (operand : ClassOperand) (position : Nat) : Option Nat :=
  match subject.text.charAt? position subject.range, operand.resolve? subject.classes with
  | some character, .ok members =>
      if members.contains character.code then some (position + character.length) else none
  | _, _ => none

/-- Where a character ends that stands at a position, a line terminator only if allowed. -/
def anyStop? (acrossLines : Bool) (position : Nat) : Option Nat :=
  match subject.text.charAt? position subject.range with
  | some character =>
      if acrossLines || subject.multiline || subject.text.byte position != 0x0a then
        some (position + character.length)
      else
        none
  | none => none

/-- All ways to iterate a body, more iterations preferred.  A way on which the body consumes nothing
iterates no further.  What the body matches lies between where it starts and the range. -/
def iterate (body : Standing → List Standing) (standing : Standing) : List Standing :=
  ((body standing).flatMap fun next =>
    if next.position = standing.position then
      [next]
    else if _further : standing.position < next.position ∧ next.position ≤ subject.range then
      iterate body next
    else
      []) ++ [standing]
termination_by subject.range - standing.position

end Subject

namespace Expression

/-- All ways to match an expression, the preferred way first. -/
def successes (subject : Subject) : Expression → Standing → List Standing
  | literal bytes, standing =>
      (subject.literalStop? bytes standing.position).toList.map standing.moveTo
  | charClass operand, standing =>
      (subject.classStop? operand standing.position).toList.map standing.moveTo
  | anyChar acrossLines, standing =>
      (subject.anyStop? acrossLines standing.position).toList.map standing.moveTo
  | sequence first second, standing =>
      (first.successes subject standing).flatMap (second.successes subject)
  | choice left right, standing =>
      left.successes subject standing ++ right.successes subject standing
  | capture group body, standing =>
      (body.successes subject (standing.openGroup group)).map (·.closeGroup group)
  | star body, standing => subject.iterate (body.successes subject) standing
  | look body, standing =>
      ((body.successes subject standing).take 1).map (·.moveTo standing.position)
  | lookNot body, standing =>
      if (body.successes subject standing).isEmpty then [standing] else []
  | atomic body, standing => (body.successes subject standing).take 1

/-- Whether every group of an expression is among those declared, and every class in the table. -/
def Valid (groupCount : Nat) (classes : Array CharClass) : Expression → Prop
  | literal _ | anyChar _ => True
  | charClass operand => ∃ members, operand.resolve? classes = .ok members
  | sequence first second => first.Valid groupCount classes ∧ second.Valid groupCount classes
  | choice left right => left.Valid groupCount classes ∧ right.Valid groupCount classes
  | capture group body => (1 ≤ group ∧ group ≤ groupCount) ∧ body.Valid groupCount classes
  | star body | look body | lookNot body | atomic body => body.Valid groupCount classes

end Expression

/-! ### Matches go forward -/

namespace Subject

variable {subject : Subject} {position stop : Nat}

theorem matchCodes?_bounds {text : Text} {range : Nat} {codes : List Nat}
    (within : position ≤ range) (found : text.matchCodes? position range codes = some stop) :
    position ≤ stop ∧ stop ≤ range := by
  induction codes generalizing position with
  | nil =>
      cases found
      exact ⟨Nat.le_refl _, within⟩
  | cons code codes ih =>
      rw [Text.matchCodes?] at found
      split at found
      · next character charFound =>
          obtain ⟨⟨_, whole⟩, rfl⟩ := Text.charAt?_eq_some_iff.1 charFound
          split at found
          · obtain ⟨later, before⟩ := ih whole found
            exact ⟨Nat.le_trans (Nat.le_add_right _ _) later, before⟩
          · cases found
      · cases found

theorem literalStop?_bounds {bytes : ByteArray} (within : position ≤ subject.range)
    (found : subject.literalStop? bytes position = some stop) :
    position ≤ stop ∧ stop ≤ subject.range := by
  unfold literalStop? at found
  dsimp only at found
  split at found
  · exact matchCodes?_bounds within found
  split at found
  · next fits =>
      cases found
      exact ⟨Nat.le_add_right _ _, fits.1⟩
  · cases found

theorem classStop?_bounds {operand : ClassOperand}
    (found : subject.classStop? operand position = some stop) :
    position ≤ stop ∧ stop ≤ subject.range := by
  unfold classStop? at found
  split at found
  · next character members charFound _ =>
      obtain ⟨⟨_, whole⟩, rfl⟩ := Text.charAt?_eq_some_iff.1 charFound
      split at found
      · cases found
        exact ⟨Nat.le_add_right _ _, whole⟩
      · cases found
  · cases found

theorem anyStop?_bounds {acrossLines : Bool}
    (found : subject.anyStop? acrossLines position = some stop) :
    position ≤ stop ∧ stop ≤ subject.range := by
  unfold anyStop? at found
  split at found
  · next character charFound =>
      obtain ⟨⟨_, whole⟩, rfl⟩ := Text.charAt?_eq_some_iff.1 charFound
      split at found
      · cases found
        exact ⟨Nat.le_add_right _ _, whole⟩
      · cases found
  · cases found

/-- The results of one iteration after another lie where those of the body lie. -/
theorem iterate_bounds {body : Standing → List Standing} {standing next : Standing}
    (within : standing.position ≤ subject.range) (mem : next ∈ subject.iterate body standing) :
    standing.position ≤ next.position ∧ next.position ≤ subject.range := by
  fun_induction iterate subject body standing with
  | case1 standing ih =>
      rw [List.mem_append, List.mem_flatMap, List.mem_singleton] at mem
      rcases mem with ⟨middle, _, mem⟩ | rfl
      · split at mem
        · next stays =>
            obtain rfl := List.mem_singleton.1 mem
            exact ⟨Nat.le_of_eq stays.symm, stays ▸ within⟩
        split at mem
        · next further =>
            obtain ⟨later, before⟩ := ih middle further further.2 mem
            exact ⟨Nat.le_trans (Nat.le_of_lt further.1) later, before⟩
        · cases mem
      · exact ⟨Nat.le_refl _, within⟩

end Subject

namespace Expression

theorem mem_map_moveTo {stop? : Option Nat} {standing next : Standing}
    (mem : next ∈ stop?.toList.map standing.moveTo) :
    ∃ stop, stop? = some stop ∧ next = standing.moveTo stop := by
  obtain ⟨stop, stopMem, rfl⟩ := List.mem_map.1 mem
  exact ⟨stop, Option.mem_toList.1 stopMem, rfl⟩

/-- A match ends where it starts or later, and not beyond the range. -/
theorem successes_bounds {subject : Subject} (expression : Expression) {standing next : Standing}
    (within : standing.position ≤ subject.range)
    (mem : next ∈ expression.successes subject standing) :
    standing.position ≤ next.position ∧ next.position ≤ subject.range := by
  induction expression generalizing standing next with
  | literal bytes =>
      obtain ⟨stop, found, rfl⟩ := mem_map_moveTo mem
      exact Subject.literalStop?_bounds within found
  | charClass operand =>
      obtain ⟨stop, found, rfl⟩ := mem_map_moveTo mem
      exact Subject.classStop?_bounds found
  | anyChar acrossLines =>
      obtain ⟨stop, found, rfl⟩ := mem_map_moveTo mem
      exact Subject.anyStop?_bounds found
  | sequence first second firstIH secondIH =>
      obtain ⟨middle, middleMem, mem⟩ := List.mem_flatMap.1 mem
      obtain ⟨later, before⟩ := firstIH within middleMem
      obtain ⟨later', before'⟩ := secondIH before mem
      exact ⟨Nat.le_trans later later', before'⟩
  | choice left right leftIH rightIH =>
      rcases List.mem_append.1 mem with mem | mem
      · exact leftIH within mem
      · exact rightIH within mem
  | capture group body ih =>
      obtain ⟨inner, innerMem, rfl⟩ := List.mem_map.1 mem
      have bounds := @ih (standing.openGroup group) inner within innerMem
      exact bounds
  | star body ih => exact Subject.iterate_bounds within mem
  | look body ih =>
      obtain ⟨inner, innerMem, rfl⟩ := List.mem_map.1 mem
      exact ⟨Nat.le_refl _, within⟩
  | lookNot body ih =>
      rw [successes] at mem
      split at mem
      · obtain rfl := List.mem_singleton.1 mem
        exact ⟨Nat.le_refl _, within⟩
      · cases mem
  | atomic body ih => exact ih within (List.mem_of_mem_take mem)

/-- The equation of the star: for each way to match the body, that way alone if it consumes nothing,
and otherwise all ways to go on from there; and last the way without any iteration. -/
theorem successes_star {subject : Subject} (body : Expression) {standing : Standing}
    (within : standing.position ≤ subject.range) :
    (star body).successes subject standing =
      ((body.successes subject standing).flatMap fun next =>
        if next.position = standing.position then [next]
        else (star body).successes subject next) ++ [standing] := by
  rw [successes, Subject.iterate]
  congr 1
  apply List.flatMap_congr
  intro next mem
  obtain ⟨later, before⟩ := successes_bounds body within mem
  split
  · rfl
  · next moved => rw [dif_pos ⟨by omega, before⟩, successes]

end Expression

end PatternMachine
