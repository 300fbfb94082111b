import PatternMachine.Engine

/-!
# Assertions and the end of the span

Where consumption ends is not for an assertion to know: it looks at the whole text.  Two of the three
word assertions forget that in one place each.  A boundary at the start of the text, and the beginning
of a word anywhere, are found only if the span goes on behind the cursor.
`Attempt.assertions_see_whole_text` says that this is all.
-/

namespace PatternMachine

/-- Whether an assertion depends on the span going on behind a cursor.  It asks for that first, which
matters if a word character follows, and if nothing else decides. -/
def Assertion.dependsOnSpan (text : Text) (cursor : Cursor) : Assertion → Bool
  | .wordBoundary | .noWordBoundary => cursor.position == 0 && text.wordAt cursor.position
  | .wordBegin =>
      text.wordAt cursor.position && (cursor.position == 0 || !text.wordAt cursor.previous)
  | _ => false

variable {text : Text} {options : Options} {range range' searchStart searchStart' : Nat}
  {cursor : Cursor}

/-- A word boundary is the same for two spans, unless it depends on their ends. -/
theorem Text.wordBoundary_eq_iff :
    text.wordBoundary range' cursor = text.wordBoundary range cursor ↔
      ((cursor.position == 0 && text.wordAt cursor.position) = true →
        (cursor.position < range ↔ cursor.position < range')) := by
  unfold wordBoundary
  by_cases start : cursor.position = 0
  · rw [if_pos start, if_pos start, beq_iff_eq.2 start, Bool.true_and]
    cases text.wordAt cursor.position with
    | false => simp
    | true => simp [eq_comm]
  · rw [if_neg start, if_neg start, beq_eq_false_iff_ne.2 start]
    simp

/-- What an assertion answers is the same for two spans, unless it depends on their ends. -/
theorem Assertion.holds_eq_iff {assertion : Assertion} (other : assertion ≠ .searchBegin) :
    assertion.holds text options range' searchStart' cursor =
        assertion.holds text options range searchStart cursor ↔
      (assertion.dependsOnSpan text cursor = true →
        (cursor.position < range ↔ cursor.position < range')) := by
  cases assertion with
  | wordBoundary => exact Text.wordBoundary_eq_iff
  | noWordBoundary => exact Bool.not_inj_iff.trans Text.wordBoundary_eq_iff
  | wordBegin =>
      simp only [holds, dependsOnSpan, Bool.and_assoc]
      cases text.wordAt cursor.position && (cursor.position == 0 || !text.wordAt cursor.previous)
      · simp
      · simp [eq_comm]
  | searchBegin => exact absurd rfl other
  | wordEnd | textBegin | textEnd | lineBegin | lineEnd | textEndOrFinalNewline =>
      exact iff_of_true rfl nofun

theorem Plan.check_inj {address : Nat} {holds holds' : Bool} :
    Plan.check address cursor holds' = Plan.check address cursor holds ↔ holds' = holds := by
  cases holds <;> cases holds' <;> simp [check, goto, fail]

namespace Attempt

/-- Assertions see the whole text: for every text, encoding, options and cursor, and wherever the
span ends, an assertion is dispatched in the same way.  There is one exception, which is the same one
for a boundary of words at the start of the text and for the beginning of a word.  If a word character
follows the cursor, and in the latter case none precedes it, they fail exactly where the span ends at
the cursor, and the absence of a boundary is found there. -/
theorem assertions_see_whole_text {attempt attempt' : Attempt}
    (program : attempt'.program = attempt.program) (options : attempt'.options = attempt.options)
    (bytes : attempt'.input.bytes = attempt.input.bytes) (point : Point) (store : Store)
    {assertion : Assertion} (other : assertion ≠ .searchBegin) :
    Plan.ofInstruction attempt' point store (.assert assertion) =
        Plan.ofInstruction attempt point store (.assert assertion) ↔
      (assertion.dependsOnSpan attempt.text point.cursor = true →
        (point.cursor.position < attempt.range ↔ point.cursor.position < attempt'.range)) := by
  have text : attempt'.text = attempt.text := by rw [Attempt.text, program, bytes]; rfl
  simp only [Plan.ofInstruction, text, options]
  exact Plan.check_inj.trans (Assertion.holds_eq_iff other)

/-- The end of a line is found at the end of a span that ends within the text, and so is the boundary
behind a word. -/
theorem assertions_see_whole_text_behind_word :
    let program : Program :=
      { code := #[.assert .lineEnd, .assert .wordBoundary, .accept], templates := #[], classes := #[]
        repeatRanges := #[], groupCount := 0, emptyCheckCount := 0, loggedStarts := .empty
        loggedEnds := .empty, options := .none, encoding := .utf8 }
    let whole : Attempt := ⟨program, .none, .whole "a\nb".toUTF8⟩
    let short : Attempt := ⟨program, .none, (Input.whole "a\nb".toUTF8).span 0 1⟩
    let point : Point := ⟨0, ⟨1, 0⟩⟩
    let store := Store.blank 1 0
    short.input.bytes = whole.input.bytes ∧ short.range ≠ whole.range ∧
      ∀ assertion ∈ [Assertion.lineEnd, .wordBoundary],
        Plan.ofInstruction short point store (.assert assertion) =
          Plan.ofInstruction whole point store (.assert assertion) ∧
        Plan.ofInstruction whole point store (.assert assertion) = .goto 1 ⟨1, 0⟩ := by
  intro program whole short point store
  have bytes : short.input.bytes = whole.input.bytes := rfl
  refine ⟨bytes, by decide, fun assertion mem => ?_⟩
  have independent : assertion ≠ .searchBegin ∧
      assertion.dependsOnSpan whole.text point.cursor = false ∧
      Plan.ofInstruction whole point store (.assert assertion) = .goto 1 ⟨1, 0⟩ := by
    revert assertion
    decide +kernel
  have agree := @assertions_see_whole_text whole short rfl rfl bytes point store assertion
    independent.1
  refine ⟨agree.2 ?_, independent.2.2⟩
  rw [independent.2.1]
  exact nofun

end Attempt

namespace Engine

/-- A span that ends at the start of a word hides the word: the boundary of words at the start of the
text is not found, nor is the beginning of the word, and that there is no boundary is. -/
theorem assertions_stop_at_span :
    let program (assertion : Assertion) : Program :=
      { code := #[.assert assertion, .accept], templates := #[], classes := #[], repeatRanges := #[]
        groupCount := 0, emptyCheckCount := 0, loggedStarts := .empty, loggedEnds := .empty
        options := .none, encoding := .utf8 }
    let answer (assertion : Assertion) (text : String) (start range : Nat) : Option Outcome :=
      ((new (program assertion)).run? 2 ((Input.whole text.toUTF8).span start range)).map
        fun answer => answer.1.outcome
    answer .wordBoundary "a" 0 1 = some (.matched ⟨#[some 0], #[some 0]⟩) ∧
      answer .wordBoundary "a" 0 0 = some .unmatched ∧
      answer .noWordBoundary "a" 0 1 = some .unmatched ∧
      answer .noWordBoundary "a" 0 0 = some (.matched ⟨#[some 0], #[some 0]⟩) ∧
      answer .wordBegin " a" 1 2 = some (.matched ⟨#[some 1], #[some 1]⟩) ∧
      answer .wordBegin " a" 1 1 = some .unmatched := by
  decide +kernel

end Engine

end PatternMachine
