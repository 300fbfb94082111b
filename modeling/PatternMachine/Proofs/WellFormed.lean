import PatternMachine.Search.Star

/-!
# Well-formed texts

In a well-formed text every byte belongs to a whole character: the encoding of a string is one
(`Text.wellFormed_of_string`), and so are any bytes of which each is a character.
-/

namespace PatternMachine

namespace Text

/-- Whether the byte at a position can only stand behind the first byte of a character. -/
def follows (text : Text) (position : Nat) : Bool :=
  match text.encoding with
  | .ascii => false
  | .utf8 => isContinuation (text.byte position)

/-- The number of bytes that the byte at a position announces. -/
def announcedAt (text : Text) (position : Nat) : Nat :=
  text.encoding.announced (text.byte position)

/-- Whether a character starts at a position and is there with all its bytes. -/
structure StandsAt (text : Text) (head : Nat) : Prop where
  leads : text.follows head = false
  fits : head + text.announcedAt head ≤ text.size
  follow : ∀ position, head < position → position < head + text.announcedAt head →
    text.follows position = true

/-- Whether every byte belongs to a whole character. -/
def WellFormed (text : Text) : Prop :=
  ∀ position < text.size, ∃ head ≤ position,
    text.StandsAt head ∧ position < head + text.announcedAt head

theorem isContinuation_iff {byte : UInt8} :
    isContinuation byte = true ↔ 0x80 ≤ byte.toNat ∧ byte.toNat < 0xc0 := by
  simp [isContinuation, UInt8.le_iff_toNat_le, UInt8.lt_iff_toNat_lt]

/-! ### Encoded strings -/

/-- The first byte of an encoded character announces the others, which cannot stand at the start of
one. -/
theorem exists_utf8EncodeChar (character : Char) : ∃ lead tail,
    String.utf8EncodeChar character = lead :: tail ∧ isContinuation lead = false ∧
      Encoding.utf8.announced lead = tail.length + 1 ∧ ∀ byte ∈ tail, isContinuation byte = true := by
  have scalar : character.val.toNat < 0x110000 := by
    rcases character.valid with below | above
    · exact Nat.lt_trans below (by decide)
    · exact above.2
  have payload : ∀ bits < 64, isContinuation (UInt8.ofNat (bits + 128)) = true := by
    intro bits few
    rw [isContinuation_iff, UInt8.toNat_ofNat']
    omega
  have noContinuation : ∀ number, number < 0x80 ∨ 0xc0 ≤ number ∧ number < 0x100 →
      isContinuation (UInt8.ofNat number) = false := by
    intro number outside
    rw [Bool.eq_false_iff, ne_eq, isContinuation_iff, UInt8.toNat_ofNat']
    omega
  unfold String.utf8EncodeChar
  dsimp only
  generalize character.val.toNat = code at scalar
  split
  · refine ⟨_, _, rfl, noContinuation _ (by omega), ?_, nofun⟩
    simp [Encoding.announced, UInt8.lt_iff_toNat_lt]
    omega
  split
  · refine ⟨_, _, rfl, noContinuation _ (by omega), ?_, ?_⟩
    · simp [Encoding.announced, UInt8.lt_iff_toNat_lt]
      grind
    · simp only [List.forall_mem_cons]
      exact ⟨payload _ (Nat.mod_lt _ (by decide)), nofun⟩
  split
  · refine ⟨_, _, rfl, noContinuation _ (by omega), ?_, ?_⟩
    · simp [Encoding.announced, UInt8.lt_iff_toNat_lt]
      grind
    · simp only [List.forall_mem_cons]
      exact ⟨payload _ (Nat.mod_lt _ (by decide)), payload _ (Nat.mod_lt _ (by decide)), nofun⟩
  · refine ⟨_, _, rfl, noContinuation _ (by omega), ?_, ?_⟩
    · simp [Encoding.announced, UInt8.lt_iff_toNat_lt]
      grind
    · simp only [List.forall_mem_cons]
      exact ⟨payload _ (Nat.mod_lt _ (by decide)), payload _ (Nat.mod_lt _ (by decide)),
        payload _ (Nat.mod_lt _ (by decide)), nofun⟩

/-- The text of a list of bytes. -/
def ofList (bytes : List UInt8) : Text :=
  ⟨bytes.toByteArray, .utf8⟩

theorem size_ofList (bytes : List UInt8) : (ofList bytes).size = bytes.length :=
  List.size_toByteArray

theorem byte_ofList (bytes : List UInt8) (position : Nat) :
    (ofList bytes).byte position = bytes.getD position 0 := by
  simp [byte, ofList, List.getElem_toByteArray, List.getD_eq_getElem?_getD]
  grind

theorem byte_ofList_append (before bytes : List UInt8) (position : Nat) :
    (ofList (before ++ bytes)).byte (before.length + position) = (ofList bytes).byte position := by
  rw [byte_ofList, byte_ofList, List.getD_eq_getElem?_getD, List.getD_eq_getElem?_getD,
    List.getElem?_append_right (Nat.le_add_right _ _), Nat.add_sub_cancel_left]

/-- A character stands as it stood when something comes before the text. -/
theorem StandsAt.behind {bytes : List UInt8} {head : Nat} (stands : (ofList bytes).StandsAt head)
    (before : List UInt8) : (ofList (before ++ bytes)).StandsAt (before.length + head) := by
  have announced : (ofList (before ++ bytes)).announcedAt (before.length + head) =
      (ofList bytes).announcedAt head :=
    congrArg Encoding.utf8.announced (byte_ofList_append ..)
  have follows : ∀ position, (ofList (before ++ bytes)).follows (before.length + position) =
      (ofList bytes).follows position :=
    fun position => congrArg isContinuation (byte_ofList_append ..)
  refine ⟨?_, ?_, ?_⟩
  · rw [follows, stands.leads]
  · have fits := stands.fits
    rw [size_ofList] at fits ⊢
    rw [announced, List.length_append]
    omega
  · intro position after inside
    rw [announced] at inside
    obtain ⟨offset, rfl⟩ := Nat.exists_eq_add_of_le (Nat.le_of_lt (Nat.lt_of_le_of_lt
      (Nat.le_add_right before.length head) after))
    rw [follows]
    exact stands.follow offset (by omega) (by omega)

theorem wellFormed_of_characters (characters : List Char) :
    (ofList (characters.flatMap String.utf8EncodeChar)).WellFormed := by
  induction characters with
  | nil => exact fun position inside => absurd inside (Nat.not_lt_zero position)
  | cons character characters ih =>
      obtain ⟨lead, tail, encoded, leads, announced, continues⟩ := exists_utf8EncodeChar character
      intro position inside
      rw [List.flatMap_cons]
      by_cases first : position < (lead :: tail).length
      · have announcedAt : (ofList (String.utf8EncodeChar character ++
            characters.flatMap String.utf8EncodeChar)).announcedAt 0 = (lead :: tail).length := by
          rw [announcedAt, byte_ofList, encoded]
          exact announced
        refine ⟨0, Nat.zero_le _, ⟨?_, ?_, ?_⟩, ?_⟩
        · rw [follows, byte_ofList, encoded]
          exact leads
        · rw [announcedAt, size_ofList, List.length_append, encoded, Nat.zero_add]
          exact Nat.le_add_right _ _
        · intro other after within
          rw [announcedAt, Nat.zero_add] at within
          obtain ⟨index, rfl⟩ := Nat.exists_eq_succ_of_ne_zero (Nat.ne_of_gt after)
          have short : index < tail.length := Nat.lt_of_succ_lt_succ within
          have read : (lead :: tail ++ characters.flatMap String.utf8EncodeChar).getD
              (index + 1) 0 = tail[index] := by
            simp [List.getD_eq_getElem?_getD, List.getElem?_append_left short, short]
          show isContinuation ((ofList _).byte (index + 1)) = true
          rw [byte_ofList, encoded, read]
          exact continues _ (List.getElem_mem short)
        · rw [announcedAt, Nat.zero_add]
          exact first
      · rw [Nat.not_lt, ← encoded] at first
        obtain ⟨offset, rfl⟩ := Nat.exists_eq_add_of_le first
        rw [size_ofList, List.flatMap_cons, List.length_append] at inside
        obtain ⟨head, before, stands, within⟩ := ih offset (by rw [size_ofList]; omega)
        refine ⟨_, Nat.add_le_add_left before _, stands.behind _, ?_⟩
        rw [announcedAt, byte_ofList_append, Nat.add_assoc]
        exact Nat.add_lt_add_left within _

/-- Where one byte is one character, every text is well-formed. -/
theorem wellFormed_of_ascii {text : Text} (oneByte : text.encoding = .ascii) : text.WellFormed := by
  have announced : ∀ position, text.announcedAt position = 1 := by
    intro position
    rw [announcedAt, oneByte]
    rfl
  intro position inside
  refine ⟨position, Nat.le_refl _, ⟨?_, ?_, ?_⟩, ?_⟩
  · rw [follows, oneByte]
  · rw [announced]
    exact inside
  · intro other after before
    rw [announced] at before
    omega
  · rw [announced]
    exact Nat.lt_succ_self position

/-- The encoding of a string is well-formed. -/
theorem wellFormed_of_string {text : Text} {string : String}
    (encodes : text.bytes = string.toUTF8) : text.WellFormed := by
  obtain ⟨bytes, encoding⟩ := text
  obtain rfl : bytes = string.toUTF8 := encodes
  cases encoding with
  | ascii => exact wellFormed_of_ascii rfl
  | utf8 =>
      obtain ⟨characters, isEncoded⟩ := string.isValidUTF8
      rw [String.toUTF8, isEncoded]
      exact wellFormed_of_characters characters

/-! ### Single bytes -/

variable {text : Text} {position : Nat}

theorem announcedAt_of_follows (follows : text.follows position = true) :
    text.announcedAt position = 1 := by
  unfold Text.follows at follows
  cases encoding : text.encoding with
  | ascii =>
      rw [announcedAt, encoding]
      rfl
  | utf8 =>
      rw [encoding] at follows
      have inside := (isContinuation_iff.1 follows).2
      rw [announcedAt, encoding]
      refine if_pos (UInt8.lt_iff_toNat_lt.2 (Nat.lt_trans inside (by decide)))

theorem lt_size_of_follows (follows : text.follows position = true) : position < text.size := by
  refine Nat.lt_of_not_le fun outside => ?_
  have zero : text.byte position = 0 := dif_neg (Nat.not_lt.2 outside)
  unfold Text.follows at follows
  rw [zero] at follows
  cases encoding : text.encoding <;> rw [encoding] at follows <;> cases follows

/-- A byte of ASCII is a character of its own. -/
theorem follows_of_ascii (plain : text.byte position < 0x80) : text.follows position = false := by
  unfold Text.follows
  cases text.encoding with
  | ascii => rfl
  | utf8 =>
      rw [Bool.eq_false_iff, ne_eq, isContinuation_iff]
      intro isContinuation
      exact Nat.not_lt.2 isContinuation.1 (UInt8.lt_iff_toNat_lt.1 plain)

theorem announcedAt_of_ascii (plain : text.byte position < 0x80) : text.announcedAt position = 1 := by
  rw [announcedAt]
  cases text.encoding with
  | ascii => rfl
  | utf8 => exact if_pos (UInt8.lt_trans plain (by decide))

namespace WellFormed

variable (wellFormed : text.WellFormed)

include wellFormed

theorem standsAt (inside : position < text.size) (leads : text.follows position = false) :
    text.StandsAt position := by
  obtain ⟨head, before, stands, within⟩ := wellFormed position inside
  rcases Nat.eq_or_lt_of_le before with rfl | after
  · exact stands
  · rw [stands.follow position after within] at leads
    cases leads

theorem charLength_eq (inside : position < text.size) :
    text.charLength position = text.announcedAt position := by
  have fits : position + text.announcedAt position ≤ text.size := by
    cases leads : text.follows position with
    | false => exact (wellFormed.standsAt inside leads).fits
    | true =>
        rw [announcedAt_of_follows leads]
        exact inside
  rw [charLength, if_pos inside]
  exact Nat.min_eq_left (Nat.le_sub_of_add_le' fits)

end WellFormed

end Text

end PatternMachine
