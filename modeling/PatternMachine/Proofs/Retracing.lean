import PatternMachine.Proofs.Stepping

/-!
# The way back

Going back over a text, one meets the characters again that one has met on the way forward, whatever
bytes the text is made of, if no character is broken off, and only then
(`Text.stepping_back_retraces_unbroken_characters`).  Where a character is broken off, the way back
stops at the byte that breaks it off.
-/

namespace PatternMachine

namespace Text

variable {text : Text} {origin head position other : Nat}

/-- Only continuation bytes are walked over on the way back to a first byte. -/
theorem isContinuation_of_skipBack {steps : Nat}
    (after : text.skipBack origin steps position < other) (upTo : other ≤ position) :
    isContinuation (text.byte other) = true := by
  induction steps generalizing position with
  | zero => exact absurd after (Nat.not_lt.2 upTo)
  | succ steps ih =>
      unfold skipBack at after
      split at after
      · next more =>
        rcases Nat.eq_or_lt_of_le upTo with rfl | before
        · exact (Bool.and_eq_true_iff.1 more).2
        · exact ih after (Nat.le_sub_one_of_lt before)
      · exact absurd after (Nat.not_lt.2 upTo)

/-- Between a byte and the start of its character stand only bytes that can stand nowhere else. -/
theorem follows_of_headAt (found : text.headAt origin position = head) (after : head < other)
    (upTo : other ≤ position) : text.follows other = true := by
  unfold headAt at found
  split at found
  · exact absurd after (Nat.not_lt.2 (found ▸ upTo))
  · next encoding =>
    rw [follows, encoding]
    split at found
    · exact absurd after (Nat.not_lt.2 (found ▸ upTo))
    · dsimp only at found
      split at found
      · exact isContinuation_of_skipBack (found ▸ after) upTo
      · exact absurd after (Nat.not_lt.2 (found ▸ upTo))

/-- If one steps back over each of the first characters to its start, then none of them is broken
off. -/
theorem unbroken_of_prevHead? {characters : Nat}
    (inside : text.stepForward 0 characters ≤ text.size)
    (back : ∀ count < characters,
      text.prevHead? 0 (text.stepForward 0 (count + 1)) = some (text.stepForward 0 count)) :
    text.Unbroken 0 (text.stepForward 0 characters) := by
  intro head other _ after within before
  obtain ⟨start, notAfter, ⟨count, rfl⟩, covers⟩ := text.exists_meets (Nat.zero_le head)
  have earlier : count < characters :=
    (text.stepForward_strictMono 0).lt_iff_lt.1 (Nat.lt_of_le_of_lt notAfter (after.trans before))
  have found := back count earlier
  rw [stepForward] at found
  generalize text.stepForward 0 count = start at notAfter covers found
  rw [prevHead?, if_neg (by omega)] at found
  have found := Option.some.inj found
  rcases Nat.eq_or_lt_of_le notAfter with rfl | inner
  · refine follows_of_headAt found after ?_
    rw [charLength, if_pos (by omega)]
    rw [announcedAt] at within
    omega
  · -- A byte inside of a character announces nothing but itself.
    rw [announcedAt_of_follows (follows_of_headAt found inner (by omega))] at within
    omega

/-- For all bytes: one gets back over the first characters of a text, and over the last of them to
its start, for each number of them, if and only if none is broken off.  Then one gets back over any
number of them to where the way forward has been that many characters before. -/
theorem stepping_back_retraces_unbroken_characters (text : Text) (characters : Nat)
    (inside : text.stepForward 0 characters ≤ text.size) :
    (text.Unbroken 0 (text.stepForward 0 characters) ↔
      ∀ count ≤ characters, text.stepBack? 0 count (text.stepForward 0 count) = some 0 ∧
        ∀ before, count = before + 1 →
          text.prevHead? 0 (text.stepForward 0 count) = some (text.stepForward 0 before)) ∧
    (text.Unbroken 0 (text.stepForward 0 characters) → ∀ count ≤ characters, ∀ back,
      text.stepBack? 0 back (text.stepForward 0 count) =
        if back ≤ count then some (text.stepForward 0 (count - back)) else none) := by
  have retraces : text.Unbroken 0 (text.stepForward 0 characters) → ∀ count ≤ characters, ∀ back,
      text.stepBack? 0 back (text.stepForward 0 count) =
        if back ≤ count then some (text.stepForward 0 (count - back)) else none :=
    fun unbroken count few back => unbroken.stepBack?_stepForward
      ((text.stepForward_strictMono 0).monotone few) back
  refine ⟨⟨fun unbroken count few => ⟨?_, ?_⟩, fun back => ?_⟩, retraces⟩
  · rw [retraces unbroken count few, if_pos (Nat.le_refl _), Nat.sub_self]
    rfl
  · rintro before rfl
    exact unbroken.prevHead?_step ⟨before, rfl⟩ ((text.stepForward_strictMono 0).monotone few)
  · exact unbroken_of_prevHead? inside fun count few => (back (count + 1) few).2 count rfl

/-- A byte stands alone that can only follow others, and the last character lacks a byte. -/
theorem stepping_back_retraces_unbroken_characters_of_stray_byte :
    let text : Text := ⟨⟨#[0xc3, 0xa9, 0xa9, 0x78, 0xe3, 0x81]⟩, .utf8⟩
    text.stepForward 0 4 ≤ text.size ∧ text.Unbroken 0 6 ∧ text.stepBack? 0 4 6 = some 0 ∧
      text.prevHead? 0 6 = some 4 ∧ text.stepBack? 0 2 4 = some 2 := by
  intro text
  have four : text.stepForward 0 4 = 6 := by decide +kernel
  have three : text.stepForward 0 3 = 4 := by decide +kernel
  have one : text.stepForward 0 1 = 2 := by decide +kernel
  have inside : text.stepForward 0 4 ≤ text.size := by decide +kernel
  have unbroken : text.Unbroken 0 (text.stepForward 0 4) := by
    have table : ∀ other < 6, ∀ head < other, other < head + text.announcedAt head →
        text.follows other = true := by decide +kernel
    rw [four]
    exact fun head other _ after within inside => table other inside head after within
  obtain ⟨retraces, back⟩ := stepping_back_retraces_unbroken_characters text 4 inside
  obtain ⟨all, last⟩ := retraces.1 unbroken 4 (Nat.le_refl 4)
  have two := back unbroken 3 (by decide) 2
  rw [if_pos (by decide), three, one] at two
  rw [four] at unbroken all last
  exact ⟨inside, unbroken, all, (last 3 rfl).trans (congrArg some three), two⟩

/-- A first byte announces three bytes, but two characters of ASCII follow.  Forward they belong to
it, and on the way back the last one stands alone. -/
theorem stepping_back_enters_broken_characters :
    let text : Text := ⟨⟨#[0xe3, 0x61, 0x62]⟩, .utf8⟩
    text.stepForward 0 1 = 3 ∧ 3 ≤ text.size ∧
      text.stepBack? 0 1 3 = some 2 ∧ text.prevHead? 0 3 = some 2 := by
  decide +kernel

end Text

end PatternMachine
