import PatternMachine.Proofs.Stepping

/-!
# Reading encoded characters

Stepping and decoding read from an encoded list of characters what was encoded, in both directions
(`Text.reading_inverts_encoding`).
-/

namespace PatternMachine

namespace Text

/-- The text that a list of characters is encoded to. -/
def encoded (characters : List Char) : Text :=
  ⟨(String.ofList characters).toUTF8, .utf8⟩

/-- Where the character at an index of a list starts when the list is encoded, or where the text ends
if the list is no longer. -/
def boundary (characters : List Char) (index : Nat) : Nat :=
  ((characters.take index).flatMap String.utf8EncodeChar).length

/-! ### One character -/

/-- The code point of a character is made of the payloads of its bytes. -/
theorem payload_utf8EncodeChar {character : Char} {lead : UInt8} {tail : List UInt8}
    (bytes : String.utf8EncodeChar character = lead :: tail) :
    (if 1 < tail.length + 1 then
        tail.foldl appendPayload (lead.toNat % (0x80 >>> (tail.length + 1)))
      else lead.toNat) = character.toNat := by
  have scalar : character.val.toNat < 0x110000 := by
    rcases character.valid with below | above
    · exact Nat.lt_trans below (by decide)
    · exact above.2
  unfold Char.toNat
  unfold String.utf8EncodeChar at bytes
  dsimp only at bytes
  generalize character.val.toNat = code at scalar bytes
  split at bytes
  · cases bytes
    simp [UInt8.toNat_ofNat']
    omega
  split at bytes
  · cases bytes
    simp [UInt8.toNat_ofNat', appendPayload]
    omega
  split at bytes
  · cases bytes
    simp [UInt8.toNat_ofNat', appendPayload]
    omega
  · cases bytes
    simp [UInt8.toNat_ofNat', appendPayload]
    omega

theorem appendPayloads_of_bytes {text : Text} {bytes : List UInt8} (code position : Nat)
    (reads : ∀ index (inside : index < bytes.length), text.byte (position + index) = bytes[index]) :
    text.appendPayloads code position bytes.length = bytes.foldl appendPayload code := by
  induction bytes generalizing code position with
  | nil => rfl
  | cons byte bytes ih =>
      rw [List.length_cons, appendPayloads, List.foldl_cons]
      rw [show text.byte position = byte from reads 0 (Nat.zero_lt_succ _)]
      refine ih _ _ fun index inside => ?_
      rw [show position + 1 + index = position + (index + 1) by omega]
      exact reads (index + 1) (Nat.succ_lt_succ inside)

/-- A character is decoded where all its bytes stand. -/
theorem decode_of_bytes {text : Text} {character : Char} {position stop : Nat}
    (isUtf8 : text.encoding = .utf8)
    (reads : ∀ index (inside : index < (String.utf8EncodeChar character).length),
      text.byte (position + index) = (String.utf8EncodeChar character)[index])
    (fits : position + (String.utf8EncodeChar character).length ≤ stop) :
    text.decode position stop = character.toNat := by
  obtain ⟨lead, tail, bytes, _, announced, _⟩ := exists_utf8EncodeChar character
  simp only [bytes] at reads fits
  rw [List.length_cons] at fits
  have first : text.byte position = lead := reads 0 (Nat.zero_lt_succ _)
  have length : min (text.encoding.announced lead) (stop - position) = tail.length + 1 := by
    rw [isUtf8, announced]
    omega
  rw [← payload_utf8EncodeChar bytes, decode]
  simp only [first, length, Nat.add_sub_cancel]
  rw [appendPayloads_of_bytes]
  intro index inside
  rw [show position + 1 + index = position + (index + 1) by omega]
  exact reads (index + 1) (Nat.succ_lt_succ inside)

/-! ### All characters -/

section

variable {characters : List Char} {index : Nat}

theorem encoded_wellFormed (characters : List Char) : (encoded characters).WellFormed :=
  wellFormed_of_string rfl

theorem size_encoded (characters : List Char) :
    (encoded characters).size = boundary characters characters.length := by
  rw [boundary, List.take_length]
  exact size_ofList _

theorem boundary_succ (inside : index < characters.length) :
    boundary characters (index + 1) =
      boundary characters index + (String.utf8EncodeChar characters[index]).length := by
  rw [boundary, boundary, List.take_succ_eq_append_getElem inside, List.flatMap_append,
    List.length_append, List.flatMap_singleton]

/-- What is encoded before and after a character. -/
theorem flatMap_utf8EncodeChar (inside : index < characters.length) :
    characters.flatMap String.utf8EncodeChar =
      (characters.take index).flatMap String.utf8EncodeChar ++
        (String.utf8EncodeChar characters[index] ++
          (characters.drop (index + 1)).flatMap String.utf8EncodeChar) := by
  rw [← List.flatMap_cons, ← List.drop_eq_getElem_cons inside, ← List.flatMap_append,
    List.take_append_drop]

/-- The bytes of a character stand where it starts. -/
theorem byte_encoded (inside : index < characters.length) (offset : Nat)
    (within : offset < (String.utf8EncodeChar characters[index]).length) :
    (encoded characters).byte (boundary characters index + offset) =
      (String.utf8EncodeChar characters[index])[offset] := by
  have text : encoded characters = ofList (characters.flatMap String.utf8EncodeChar) := rfl
  rw [text, flatMap_utf8EncodeChar inside, boundary, byte_ofList_append, byte_ofList,
    List.getD_eq_getElem?_getD, List.getElem?_append_left within, List.getElem?_eq_getElem within,
    Option.getD_some]

theorem boundary_lt_size (inside : index < characters.length) :
    boundary characters index < (encoded characters).size := by
  have text : encoded characters = ofList (characters.flatMap String.utf8EncodeChar) := rfl
  have positive := characters[index].utf8Size_pos
  rw [← String.length_utf8EncodeChar] at positive
  rw [text, size_ofList, flatMap_utf8EncodeChar inside, List.length_append, List.length_append,
    boundary]
  omega

theorem charLength_encoded (inside : index < characters.length) :
    (encoded characters).charLength (boundary characters index) =
      (String.utf8EncodeChar characters[index]).length := by
  obtain ⟨lead, tail, bytes, _, announced, _⟩ := exists_utf8EncodeChar characters[index]
  have first := byte_encoded inside 0 (by rw [bytes]; exact Nat.zero_lt_succ _)
  rw [(encoded_wellFormed characters).charLength_eq (boundary_lt_size inside), announcedAt]
  simp only [Nat.add_zero, bytes, List.getElem_cons_zero] at first
  rw [first, bytes]
  exact announced

theorem stepForward_encoded (inside : index ≤ characters.length) :
    (encoded characters).stepForward 0 index = boundary characters index := by
  induction index with
  | zero => rfl
  | succ index ih =>
      rw [stepForward, ih (Nat.le_of_succ_le inside), charLength_encoded inside,
        boundary_succ inside]

theorem meets_boundary (inside : index ≤ characters.length) :
    (encoded characters).Meets 0 (boundary characters index) :=
  ⟨index, stepForward_encoded inside⟩

/-- Every byte belongs to a character, whose start is found from it. -/
theorem exists_headAt_encoded {position : Nat} (inside : position < (encoded characters).size) :
    ∃ index < characters.length, boundary characters index ≤ position ∧
      position < boundary characters (index + 1) ∧
      (encoded characters).headAt 0 position = boundary characters index := by
  obtain ⟨head, before, meets, within⟩ :=
    (encoded characters).exists_meets (Nat.zero_le position)
  have found := ((encoded_wellFormed characters).unbroken 0 _).headAt meets before within
    (Nat.lt_succ_self position)
  obtain ⟨index, rfl⟩ := meets
  have few : index < characters.length := by
    rw [← ((encoded characters).stepForward_strictMono 0).lt_iff_lt,
      stepForward_encoded (Nat.le_refl _), ← size_encoded]
    exact Nat.lt_of_le_of_lt before inside
  rw [stepForward_encoded (Nat.le_of_lt few)] at before within found
  rw [charLength_encoded few, ← boundary_succ few] at within
  exact ⟨index, few, before, within, found⟩

theorem prevHead?_encoded (inside : index < characters.length) :
    (encoded characters).prevHead? 0 (boundary characters (index + 1)) =
      some (boundary characters index) := by
  rw [boundary_succ inside, ← charLength_encoded inside]
  exact ((encoded_wellFormed characters).unbroken 0 _).prevHead?_step
    (meets_boundary (Nat.le_of_lt inside)) (Nat.le_refl _)

theorem stepBack?_encoded (inside : index ≤ characters.length) (count : Nat) :
    (encoded characters).stepBack? 0 count (boundary characters index) =
      if count ≤ index then some (boundary characters (index - count)) else none := by
  rw [← stepForward_encoded inside, ← stepForward_encoded (Nat.le_trans (Nat.sub_le ..) inside)]
  exact ((encoded_wellFormed characters).unbroken 0 _).stepBack?_stepForward (Nat.le_refl _) count

theorem headsBefore_encoded (inside : index ≤ characters.length) :
    (encoded characters).headsBefore (boundary characters index) =
      ((List.range index).map (boundary characters)).reverse := by
  induction index with
  | zero =>
      rw [headsBefore]
      rfl
  | succ index ih =>
      have before := prevHead?_encoded inside
      rw [List.range_succ, List.map_append, List.reverse_append, ← ih (Nat.le_of_succ_le inside),
        headsBefore]
      split
      · next head found =>
          rw [before] at found
          cases found
          rfl
      · next none_found =>
          rw [before] at none_found
          cases none_found

theorem codeAt_encoded (inside : index < characters.length) :
    (encoded characters).codeAt (boundary characters index) (encoded characters).size =
      characters[index].toNat := by
  have length := charLength_encoded inside
  have fits := add_charLength_le (boundary_lt_size inside)
  exact decode_of_bytes rfl (fun offset within => byte_encoded inside offset within) (by omega)

theorem charactersFrom_encoded (inside : index ≤ characters.length) :
    (encoded characters).charactersFrom (boundary characters index) =
      (characters.mapIdx fun index character =>
        (boundary characters index, character.toNat)).drop index := by
  induction inside using Nat.decreasingInduction with
  | self =>
      rw [charactersFrom, ← size_encoded, if_neg (Nat.lt_irrefl _), List.drop_eq_nil_of_le]
      rw [List.length_mapIdx]
  | of_succ index inside ih =>
      rw [charactersFrom, if_pos (boundary_lt_size inside), codeAt_encoded inside,
        charLength_encoded inside, ← boundary_succ inside, ih,
        @List.drop_eq_getElem_cons _ index _ (by rwa [List.length_mapIdx]), List.getElem_mapIdx]

end

/-- For every list of characters and the text that it is encoded to: stepping forward visits where the
characters start, and ends where the text does; decoding yields the characters, wherever behind a
character the reading stops; stepping back from where a character starts, or from the end, visits the
same positions in reverse, and finds as many characters as there are before; and from every byte one
finds the start of the character that it belongs to. -/
theorem reading_inverts_encoding (characters : List Char) :
    let text : Text := ⟨(String.ofList characters).toUTF8, .utf8⟩
    let boundary := boundary characters
    (∀ index ≤ characters.length, text.stepForward 0 index = boundary index) ∧
      boundary characters.length = text.size ∧
      text.charactersFrom 0 =
        (characters.mapIdx fun index character => (boundary index, character.toNat)) ∧
      (∀ index (_ : index < characters.length) stop, boundary (index + 1) ≤ stop →
        text.decode (boundary index) stop = characters[index].toNat) ∧
      text.headsBefore text.size =
        ((List.range characters.length).map boundary).reverse ∧
      (∀ index ≤ characters.length, ∀ count, text.stepBack? 0 count (boundary index) =
        if count ≤ index then some (boundary (index - count)) else none) ∧
      ∀ position < text.size, ∃ index < characters.length,
        boundary index ≤ position ∧ position < boundary (index + 1) ∧
          text.headAt 0 position = boundary index := by
  refine ⟨fun index inside => stepForward_encoded inside, (size_encoded characters).symm,
    charactersFrom_encoded (Nat.zero_le _), fun index inside stop fits => ?_, ?_,
    fun index inside count => stepBack?_encoded inside count,
    fun position inside => exists_headAt_encoded inside⟩
  · exact decode_of_bytes rfl (fun offset within => byte_encoded inside offset within)
      (by rwa [← boundary_succ inside])
  · have heads := headsBefore_encoded (Nat.le_refl characters.length)
    rwa [← size_encoded] at heads

/-- Characters of one to four bytes. -/
theorem reading_inverts_encoding_of_all_lengths :
    let text : Text := ⟨"aé€😀".toUTF8, .utf8⟩
    text.stepForward 0 3 = 6 ∧ text.charactersFrom 0 = [(0, 97), (1, 233), (3, 8364), (6, 128512)] ∧
      text.decode 3 8 = 8364 ∧ text.headsBefore 10 = [6, 3, 1, 0] ∧
      text.stepBack? 0 2 6 = some 1 ∧ text.stepBack? 0 4 6 = none ∧ text.headAt 0 9 = 6 := by
  obtain ⟨forward, isEnd, characters, decodes, heads, back, owner⟩ :=
    reading_inverts_encoding ['a', 'é', '€', '😀']
  refine ⟨?_, ?_, ?_, ?_, ?_, ?_, ?_⟩
  · exact forward 3 (by decide)
  · exact characters
  · exact decodes 2 (by decide) 8 (by decide)
  · exact heads
  · exact back 3 (by decide) 2
  · exact back 3 (by decide) 4
  · obtain ⟨index, inside, after, before, found⟩ := owner 9 (by decide)
    have last : ∀ index < 4, 9 < boundary ['a', 'é', '€', '😀'] (index + 1) → index = 3 := by decide
    obtain rfl := last index inside before
    exact found

end Text

end PatternMachine
