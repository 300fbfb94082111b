import PatternMachine.Search.BackReference

/-!
# What back references look at

A back reference looks at the captures of a store, at the text and at which groups a program has.
Where these are the same, it consumes the same.
-/

namespace PatternMachine

variable {attempt other : Attempt} {store changed : Store}

/-- The region of a match tells of a store where its groups lie. -/
theorem Store.region_congr (spans : ∀ group, changed.span? group = store.span? group)
    (slots start stop : Nat) : changed.region slots start stop = store.region slots start stop := by
  simp only [region, spans]

section

variable (texts : other.matchCaptured? = attempt.matchCaptured?)
  (known : ∀ group, other.program.hasGroup group = attempt.program.hasGroup group)
  (spans : ∀ group, changed.span? group = store.span? group)

include texts known spans

theorem Attempt.repeatAny?_congr (position : Nat) (ignoreCase : Bool) (groups : List Nat) :
    other.repeatAny? changed position ignoreCase groups =
      attempt.repeatAny? store position ignoreCase groups := by
  induction groups with
  | nil => rfl
  | cons group others ih => simp only [repeatAny?, known, spans, texts, ih]

/-- Where the groups, the text and the options are the same, a reference consumes the same. -/
theorem BackReference.repeat?_congr (ignores : other.ignoresCase = attempt.ignoresCase)
    (levels : ∀ groups wanted,
      changed.stack.spanAtLevel? groups wanted = store.stack.spanAtLevel? groups wanted)
    (position : Nat) (reference : BackReference) :
    reference.repeat? other changed position = reference.repeat? attempt store position := by
  cases reference with
  | first | second | group number folded =>
      simp only [repeat?, Attempt.repeatGroup?, known, spans, texts, ignores]
  | anyOf numbers folded =>
      simp only [repeat?, ignores]
      exact Attempt.repeatAny?_congr texts known spans ..
  | atLevel folded level numbers =>
      simp only [repeat?, Attempt.repeatAtLevel?, known, levels, texts]

end

end PatternMachine
