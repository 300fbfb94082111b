import Mathlib.Order.Monotone.Basic
import PatternMachine.Proofs.WellFormed

/-!
# Characters on the way

Going forward, the length of a character is known from its first byte.  Going back, the first byte is
looked for.  Both agree about where characters lie as long as none is broken off, that is, as long as
the bytes that one announces can stand nowhere else (`Text.Unbroken`).  Bytes that can stand nowhere
else may still stand alone, and a character may lack bytes at the end.
-/

namespace PatternMachine

namespace Text

/-- The position a number of characters behind an origin. -/
def stepForward (text : Text) (origin : Nat) : (characters : Nat) → Nat
  | 0 => origin
  | characters + 1 =>
    let head := text.stepForward origin characters
    head + text.charLength head

/-- Whether a position is met on the way from an origin, character by character. -/
def Meets (text : Text) (origin position : Nat) : Prop :=
  ∃ characters, text.stepForward origin characters = position

/-- Whether no character behind an origin and before a position is broken off by another one. -/
def Unbroken (text : Text) (origin range : Nat) : Prop :=
  ∀ head other, origin ≤ head → head < other → other < head + text.announcedAt head →
    other < range → text.follows other = true

theorem stepForward_strictMono (text : Text) (origin : Nat) :
    StrictMono (text.stepForward origin) :=
  strictMono_nat_of_lt_succ fun _ => Nat.lt_add_of_pos_right (text.charLength_pos _)

theorem announcedAt_of_size_le {text : Text} {position : Nat} (outside : text.size ≤ position) :
    text.announcedAt position = 1 := by
  have zero : text.byte position = 0 := dif_neg (Nat.not_lt.2 outside)
  rw [announcedAt, zero]
  cases text.encoding <;> rfl

/-- A character is not longer than its first byte announces. -/
theorem charLength_le_announcedAt (text : Text) (position : Nat) :
    text.charLength position ≤ text.announcedAt position := by
  rw [charLength]
  split
  · exact Nat.min_le_left _ _
  · exact text.encoding.announced_pos _

/-- In a well-formed text no character is broken off. -/
theorem WellFormed.unbroken {text : Text} (wellFormed : text.WellFormed) (origin range : Nat) :
    text.Unbroken origin range := by
  intro head other _ after within _
  rcases Nat.lt_or_ge head text.size with inside | outside
  · cases leads : text.follows head with
    | false => exact (wellFormed.standsAt inside leads).follow other after within
    | true =>
        rw [announcedAt_of_follows leads] at within
        omega
  · rw [announcedAt_of_size_le outside] at within
    omega

/-- From the inside of a character one gets back to its first byte. -/
theorem skipBack_of_follow {text : Text} {origin head position steps : Nat}
    (onward : origin ≤ head) (notBefore : head ≤ position)
    (leads : isContinuation (text.byte head) = false)
    (follow : ∀ other, head < other → other ≤ position →
      isContinuation (text.byte other) = true)
    (enough : position - head ≤ steps) : text.skipBack origin steps position = head := by
  induction steps generalizing position with
  | zero => exact Nat.le_antisymm (Nat.le_of_sub_eq_zero (Nat.le_zero.1 enough)) notBefore
  | succ steps ih =>
      rcases Nat.eq_or_lt_of_le notBefore with rfl | after
      · rw [skipBack, leads, Bool.and_false, if_neg Bool.noConfusion]
      · have below : origin < position := Nat.lt_of_le_of_lt onward after
        rw [skipBack, follow position after (Nat.le_refl _), Bool.and_true,
          if_pos (decide_eq_true below)]
        refine ih (by omega) (fun other after upTo => follow other after (by omega)) (by omega)

variable {text : Text} {origin head position range : Nat}

namespace Meets

theorem refl (text : Text) (origin : Nat) : text.Meets origin origin :=
  ⟨0, rfl⟩

/-- The character behind one on the way is on the way. -/
theorem step (meets : text.Meets origin head) :
    text.Meets origin (head + text.charLength head) := by
  obtain ⟨characters, rfl⟩ := meets
  exact ⟨characters + 1, rfl⟩

theorem onward (meets : text.Meets origin position) : origin ≤ position := by
  obtain ⟨characters, rfl⟩ := meets
  exact (text.stepForward_strictMono origin).monotone (Nat.zero_le characters)

/-- Characters on the way do not overlap. -/
theorem le_of_lt (meets : text.Meets origin head) (meets' : text.Meets origin position)
    (after : head < position) : head + text.charLength head ≤ position := by
  obtain ⟨few, rfl⟩ := meets
  obtain ⟨many, rfl⟩ := meets'
  have more : few < many := (text.stepForward_strictMono origin).lt_iff_lt.1 after
  exact (text.stepForward_strictMono origin).monotone (Nat.succ_le_of_lt more)

/-- What is met on the way from a position on the way is on the way. -/
theorem trans (meets : text.Meets origin head) (meets' : text.Meets head position) :
    text.Meets origin position := by
  obtain ⟨characters, rfl⟩ := meets'
  induction characters with
  | zero => exact meets
  | succ characters ih => exact ih.step

/-- Of two positions on the way, the later one is met on the way from the earlier one. -/
theorem between (meets : text.Meets origin head) (meets' : text.Meets origin position)
    (onward : head ≤ position) : text.Meets head position := by
  obtain ⟨few, rfl⟩ := meets
  obtain ⟨many, rfl⟩ := meets'
  have fewer : few ≤ many := (text.stepForward_strictMono origin).le_iff_le.1 onward
  clear onward
  induction fewer with
  | refl => exact .refl ..
  | step _ ih => exact ih.step

/-- Behind the start of the way there is a last character. -/
theorem exists_last (meets : text.Meets origin position) (behind : origin < position) :
    ∃ head, text.Meets origin head ∧ head + text.charLength head = position := by
  obtain ⟨characters, rfl⟩ := meets
  cases characters with
  | zero => exact absurd behind (Nat.lt_irrefl origin)
  | succ characters => exact ⟨_, ⟨characters, rfl⟩, rfl⟩

end Meets

/-- Every position lies in some character on the way. -/
theorem exists_meets (text : Text) (onward : origin ≤ position) :
    ∃ head ≤ position, text.Meets origin head ∧ position < head + text.charLength head := by
  induction onward with
  | refl => exact ⟨origin, Nat.le_refl _, .refl text origin,
      Nat.lt_add_of_pos_right (text.charLength_pos origin)⟩
  | @step position _ ih =>
      obtain ⟨head, before, meets, within⟩ := ih
      rcases Nat.lt_or_eq_of_le (Nat.succ_le_of_lt within) with inner | isEnd
      · exact ⟨head, Nat.le_succ_of_le before, meets, inner⟩
      · refine ⟨position.succ, Nat.le_refl _, isEnd ▸ meets.step, ?_⟩
        exact Nat.lt_add_of_pos_right (text.charLength_pos _)

namespace Unbroken

variable (unbroken : text.Unbroken origin range)

include unbroken

/-- Only bytes that can stand nowhere else are inside of a character. -/
theorem follow (onward : origin ≤ head) (after : head < position)
    (within : position < head + text.charLength head) (inside : position < range) :
    text.follows position = true :=
  unbroken head position onward after
    (Nat.lt_of_lt_of_le within (Nat.add_le_add_left (text.charLength_le_announcedAt head) head))
    inside

/-- A byte that may stand at the start of a character is at the start of one on the way. -/
theorem meets_of_leads (onward : origin ≤ position) (inside : position < range)
    (leads : text.follows position = false) : text.Meets origin position := by
  obtain ⟨head, before, meets, within⟩ := text.exists_meets onward
  rcases Nat.eq_or_lt_of_le before with rfl | after
  · exact meets
  · rw [unbroken.follow meets.onward after within inside] at leads
    cases leads

/-- A byte on the way that cannot stand at the start of a character stands alone: no character before it
reaches so far. -/
theorem announced_le_of_follows (meets : text.Meets origin position) (inside : position < range)
    (follows : text.follows position = true) (onward : origin ≤ head) (before : head ≤ position)
    (leads : text.follows head = false) : head + text.announcedAt head ≤ position := by
  have earlier : head < position := by
    refine Nat.lt_of_le_of_ne before ?_
    rintro rfl
    rw [leads] at follows
    cases follows
  have met := unbroken.meets_of_leads onward (Nat.lt_trans earlier inside) leads
  have apart := met.le_of_lt meets earlier
  have inText := lt_size_of_follows follows
  rw [charLength, if_pos (Nat.lt_trans earlier inText)] at apart
  rw [announcedAt]
  omega

/-- One finds a character again when one looks back for it from one of its bytes. -/
theorem headAt (meets : text.Meets origin head) (notBefore : head ≤ position)
    (within : position < head + text.charLength head) (inside : position < range) :
    text.headAt origin position = head := by
  have onward := meets.onward
  have announced : position < head + text.announcedAt head :=
    Nat.lt_of_lt_of_le within (Nat.add_le_add_left (text.charLength_le_announcedAt head) head)
  unfold Text.headAt
  split
  · next oneByte =>
    rw [announcedAt, oneByte, Encoding.announced_ascii] at announced
    omega
  · next encoding =>
    have continues : ∀ other, text.follows other = isContinuation (text.byte other) := by
      intro other
      rw [Text.follows, encoding]
    split
    · omega
    · cases leads : text.follows head with
      | false =>
          have few := text.encoding.announced_le (text.byte head)
          rw [announcedAt] at announced
          have found : text.skipBack origin 3 position = head := by
            refine skipBack_of_follow onward notBefore (by rw [← continues, leads]) ?_ (by omega)
            intro other after upTo
            rw [← continues]
            exact unbroken.follow onward after (Nat.lt_of_le_of_lt upTo within)
              (Nat.lt_of_le_of_lt upTo inside)
          rw [continues] at leads
          simp only [found, leads, Bool.not_false, Bool.true_and, decide_eq_true_eq]
          exact if_pos announced
      | true =>
          rw [announcedAt_of_follows leads] at announced
          obtain rfl : position = head := by omega
          have alone := unbroken.announced_le_of_follows meets inside leads
            (text.le_skipBack 3 onward) (text.skipBack_le origin 3 position)
          dsimp only
          split
          · next owned =>
            rw [Bool.and_eq_true, Bool.not_eq_true', ← continues, decide_eq_true_eq] at owned
            exact absurd owned.2 (Nat.not_lt.2 (alone owned.1))
          · rfl

theorem lastHead (meets : text.Meets origin head) (fits : head + text.charLength head ≤ range)
    (previous : Nat) :
    text.lastHead origin (head + text.charLength head) previous = head := by
  have positive := text.charLength_pos head
  have onward := meets.onward
  rw [Text.lastHead, if_pos (by omega)]
  exact unbroken.headAt meets (by omega) (by omega) (by omega)

/-- One steps back over a character on the way to its start. -/
theorem prevHead?_step (meets : text.Meets origin head)
    (fits : head + text.charLength head ≤ range) :
    text.prevHead? origin (head + text.charLength head) = some head := by
  have positive := text.charLength_pos head
  have onward := meets.onward
  rw [prevHead?, if_neg (by omega)]
  exact congrArg some (unbroken.headAt meets (by omega) (by omega) (by omega))

/-- One steps back over as many characters as there are on the way. -/
theorem stepBack?_stepForward {characters : Nat} (fits : text.stepForward origin characters ≤ range)
    (back : Nat) :
    text.stepBack? origin back (text.stepForward origin characters) =
      if back ≤ characters then some (text.stepForward origin (characters - back)) else none := by
  induction back generalizing characters with
  | zero => rfl
  | succ back ih =>
      cases characters with
      | zero =>
          rw [stepBack?, stepForward, prevHead?, if_pos (Nat.le_refl origin)]
          rfl
      | succ characters =>
          have fewer := (text.stepForward_strictMono origin) (Nat.lt_succ_self characters)
          have before := unbroken.prevHead?_step ⟨characters, rfl⟩ fits
          rw [stepBack?, stepForward, before]
          dsimp only
          rw [ih (Nat.le_trans (Nat.le_of_lt fewer) fits), Nat.succ_sub_succ]
          simp only [Nat.succ_le_succ_iff]

/-- A character that a range cuts is where the last whole one ends. -/
theorem fittingEnd_of_done (meets : text.Meets origin head) (within : head ≤ range)
    (done : text.hasChar head range = false) : text.fittingEnd origin range = head := by
  have onward := meets.onward
  unfold fittingEnd
  split
  · omega
  · next filled =>
    obtain ⟨last, before, meets', covers⟩ :=
      text.exists_meets (show origin ≤ range - 1 by omega)
    rw [unbroken.headAt meets' before covers (by omega)]
    dsimp only
    rw [Bool.eq_false_iff, ne_eq, hasChar_iff] at done
    rcases Nat.lt_trichotomy last head with earlier | rfl | later
    · -- The last character ends where the range does.
      have apart := meets'.le_of_lt meets earlier
      rw [if_pos (by omega)]
      omega
    · rw [if_neg (by omega)]
    · have apart := meets.le_of_lt meets' later
      omega

/-- The end of what fits is on the way. -/
theorem meets_fittingEnd : text.Meets origin (text.fittingEnd origin range) := by
  unfold fittingEnd
  split
  · exact .refl text origin
  · next filled =>
    obtain ⟨last, before, meets, covers⟩ := text.exists_meets (show origin ≤ range - 1 by omega)
    rw [unbroken.headAt meets before covers (by omega)]
    dsimp only
    split
    · next fits =>
      obtain rfl : range = last + text.charLength last := by omega
      exact meets.step
    · exact meets

/-- Nothing on the way and in the range is behind the end of what fits there. -/
theorem le_fittingEnd (meets : text.Meets origin head) (within : head ≤ range) :
    head ≤ text.fittingEnd origin range := by
  have onward := meets.onward
  unfold fittingEnd
  split
  · omega
  · next filled =>
    obtain ⟨last, before, meets', covers⟩ :=
      text.exists_meets (show origin ≤ range - 1 by omega)
    rw [unbroken.headAt meets' before covers (by omega)]
    dsimp only
    split
    · exact within
    · refine Nat.le_of_not_lt fun after => ?_
      have apart := meets'.le_of_lt meets after
      omega

end Unbroken

end Text

end PatternMachine
