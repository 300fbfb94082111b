import PatternMachine.Proofs.Dispatch
import PatternMachine.Proofs.Frames
import PatternMachine.Proofs.Trail

/-!
# Where instructions leave the cursor

An instruction leaves the cursor where it is, behind what it consumes, which lies before the end of
the span, some characters to the left, or where a lookahead has started.  `Attempt.Lands` lists
these.  So whatever holds of a cursor at the start of a run and survives each of them holds of every
cursor that the run ever has, at its point or in a frame.
-/

namespace PatternMachine

namespace Text

variable {text : Text} {range position stop : Nat}

theorem matchBytes?_le {excerpt : Excerpt}
    (found : text.matchBytes? position range excerpt = some stop) : stop ≤ range := by
  simp only [matchBytes?] at found
  split at found
  · next agrees =>
      cases found
      exact of_decide_eq_true (Bool.and_eq_true_iff.1 agrees).1
  · cases found

theorem charAt?_le {character : Character} (found : text.charAt? position range = some character) :
    position + character.length ≤ range := by
  obtain ⟨⟨_, whole⟩, rfl⟩ := charAt?_eq_some_iff.1 found
  exact whole

theorem matchFoldedFrom?_le {excerpt : Excerpt} {start : Nat} (inside : position ≤ range)
    (found : text.matchFoldedFrom? range excerpt start position = some stop) : stop ≤ range := by
  fun_induction text.matchFoldedFrom? range excerpt start position with
  | case1 start position _ wanted _ character here _ ih => exact ih (charAt?_le here) found
  | case2 | case3 | case4 => cases found
  | case5 =>
      cases found
      exact inside

theorem matchCodes?_le {codes : List Nat} (inside : position ≤ range)
    (found : text.matchCodes? position range codes = some stop) : stop ≤ range := by
  induction codes generalizing position with
  | nil =>
      cases found
      exact inside
  | cons code codes ih =>
      rw [matchCodes?] at found
      split at found
      · next character here =>
          split at found
          · exact ih (charAt?_le here) found
          · cases found
      · cases found

theorem matchExcerpt?_le {excerpt : Excerpt} {ignoreCase : Bool} (inside : position ≤ range)
    (found : text.matchExcerpt? position range excerpt ignoreCase = some stop) : stop ≤ range := by
  unfold matchExcerpt? at found
  split at found
  · exact matchFoldedFrom?_le inside found
  · exact matchBytes?_le found

theorem matchByte?_le {value : UInt8} {ignoreCase : Bool} (inside : position ≤ range)
    (found : text.matchByte? position range value ignoreCase = some stop) : stop ≤ range := by
  unfold matchByte? at found
  split at found
  · exact matchCodes?_le inside found
  split at found
  · next here =>
      cases found
      exact of_decide_eq_true (Bool.and_eq_true_iff.1 here).1
  · cases found

theorem stepBack?_le {start characters : Nat}
    (found : text.stepBack? start characters position = some stop) : stop ≤ position := by
  induction characters generalizing position with
  | zero =>
      cases found
      exact Nat.le_refl _
  | succ characters ih =>
      rw [stepBack?] at found
      split at found
      · next head before =>
          exact Nat.le_trans (ih found) (Nat.le_of_lt (prevHead?_lt before))
      · cases found

theorem fittingEnd_le (inside : position ≤ range) : text.fittingEnd position range ≤ range := by
  unfold fittingEnd
  split
  · exact inside
  · have := text.headAt_le position (range - 1)
    dsimp only
    split <;> omega

/-! Nothing is consumed backwards. -/

theorem le_matchBytes? {excerpt : Excerpt}
    (found : text.matchBytes? position range excerpt = some stop) : position ≤ stop := by
  simp only [matchBytes?] at found
  split at found
  · cases found
    exact Nat.le_add_right _ _
  · cases found

theorem le_matchFoldedFrom? {excerpt : Excerpt} {start : Nat}
    (found : text.matchFoldedFrom? range excerpt start position = some stop) :
    position ≤ stop := by
  fun_induction text.matchFoldedFrom? range excerpt start position with
  | case1 start position _ wanted _ character _ _ ih =>
      exact Nat.le_trans (Nat.le_add_right _ _) (ih found)
  | case2 | case3 | case4 => cases found
  | case5 =>
      cases found
      exact Nat.le_refl _

theorem le_matchCodes? {codes : List Nat}
    (found : text.matchCodes? position range codes = some stop) : position ≤ stop := by
  induction codes generalizing position with
  | nil =>
      cases found
      exact Nat.le_refl _
  | cons code codes ih =>
      rw [matchCodes?] at found
      split at found
      · split at found
        · exact Nat.le_trans (Nat.le_add_right _ _) (ih found)
        · cases found
      · cases found

theorem le_matchExcerpt? {excerpt : Excerpt} {ignoreCase : Bool}
    (found : text.matchExcerpt? position range excerpt ignoreCase = some stop) :
    position ≤ stop := by
  unfold matchExcerpt? at found
  split at found
  · exact le_matchFoldedFrom? found
  · exact le_matchBytes? found

theorem le_matchByte? {value : UInt8} {ignoreCase : Bool}
    (found : text.matchByte? position range value ignoreCase = some stop) : position ≤ stop := by
  unfold matchByte? at found
  split at found
  · exact le_matchCodes? found
  split at found
  · cases found
    exact Nat.le_succ _
  · cases found

theorem le_fittingEnd (text : Text) (position range : Nat) :
    position ≤ text.fittingEnd position range := by
  unfold fittingEnd
  split
  · exact Nat.le_refl _
  · have := text.le_headAt (show position ≤ range - 1 by omega)
    dsimp only
    split <;> omega

/-- A byte is consumed only before the end of the span. -/
theorem lt_of_matchByte? {value : UInt8} {ignoreCase : Bool}
    (found : text.matchByte? position range value ignoreCase = some stop) : position < range := by
  unfold matchByte? at found
  split at found
  · rw [matchCodes?] at found
    split at found
    · next character here => exact (charAt?_eq_some_iff.1 here).1.1
    · cases found
  split at found
  · next here => exact of_decide_eq_true (Bool.and_eq_true_iff.1 here).1
  · cases found

end Text

namespace BackReference

open Attempt

/-- Where a reference may leave off: it consumes nothing, or a repetition of what a group has
captured. -/
inductive Repeats (attempt : Attempt) (store : Store) (position : Nat) : Nat → Prop
  | nothing : Repeats attempt store position position
  | group {number first last stop : Nat} {ignoreCase : Bool}
      (span : store.span? number = some (first, last))
      (found : attempt.matchCaptured? first last position ignoreCase = some stop) :
      Repeats attempt store position stop
  | atLevel {groups : List Nat} {level : Int} {first last stop : Nat} {ignoreCase : Bool}
      (span : store.stack.spanAtLevel? groups level = some (first, last))
      (found : attempt.matchCaptured? first last position ignoreCase = some stop) :
      Repeats attempt store position stop

variable {attempt : Attempt} {store : Store} {position stop : Nat}

theorem repeats_of_repeatGroup? {group : Nat} {ignoreCase : Bool}
    (found : repeatGroup? attempt store position group ignoreCase = .ok (some stop)) :
    Repeats attempt store position stop := by
  unfold repeatGroup? at found
  split at found
  · split at found
    · next span => exact .group span (Except.ok.inj found)
    · cases found
      exact .nothing
  · cases found

theorem repeats_of_repeatAny? {ignoreCase : Bool} {groups : List Nat}
    (found : repeatAny? attempt store position ignoreCase groups = .ok (some stop)) :
    Repeats attempt store position stop := by
  induction groups with
  | nil => cases found
  | cons group groups ih =>
      rw [repeatAny?] at found
      split at found
      · split at found
        · next span =>
            split at found
            · next stop' here =>
                cases found
                exact .group span here
            · exact ih found
        · exact ih found
      · cases found

theorem repeats_of_repeat? {reference : BackReference}
    (found : reference.repeat? attempt store position = .ok (some stop)) :
    Repeats attempt store position stop := by
  cases reference with
  | first | second | group number folded => exact repeats_of_repeatGroup? found
  | anyOf numbers folded => exact repeats_of_repeatAny? found
  | atLevel folded level numbers =>
      simp only [repeat?, repeatAtLevel?] at found
      split at found
      · cases found
      · obtain ⟨⟨first, last⟩, span, here⟩ := Option.bind_eq_some_iff.1 (Except.ok.inj found)
        exact .atLevel span here

theorem repeat?_le {reference : BackReference} (inside : position ≤ attempt.range)
    (found : reference.repeat? attempt store position = .ok (some stop)) :
    stop ≤ attempt.range := by
  cases repeats_of_repeat? found with
  | nothing => exact inside
  | group _ here | atLevel _ here => exact Text.matchExcerpt?_le inside here

theorem le_repeat? {reference : BackReference}
    (found : reference.repeat? attempt store position = .ok (some stop)) : position ≤ stop := by
  cases repeats_of_repeat? found with
  | nothing => exact Nat.le_refl _
  | group _ here | atLevel _ here => exact Text.le_matchExcerpt? here

end BackReference

/-- The cursor at the start of a lookahead stands in a frame. -/
theorem Stack.exists_of_lookCursor? {stack : Stack} {cursor : Cursor}
    (found : stack.lookCursor? = some cursor) :
    ∃ index : Nat, stack.get? index = some (.look cursor) := by
  induction stack using push_induction with
  | empty => cases found
  | push stack frame ih =>
      rw [lookCursor?_push] at found
      split at found
      · cases found
        exact ⟨stack.depth, stack.get?_depth_push _⟩
      · obtain ⟨index, read⟩ := ih found
        exact ⟨index, (stack.get?_push_of_lt _ (lt_depth_of_get? read)).trans read⟩

/-! ### Where an instruction may leave it -/

/-- Whether an instruction may go back in the text, some characters or to the start of a
lookahead. -/
def Instruction.goesBack : Instruction → Bool
  | .lookBehind _ | .lookBehindNotStart .. | .lookEnd => true
  | _ => false

/-- Whether an instruction may go on at another cursor than where it started. -/
def Instruction.movesCursor : Instruction → Bool
  | .byte _ | .bytes _ | .template .. | .foldedChar _ | .foldedChars _ | .charClass _ | .anyChar _
  | .word _ | .backReference _ | .lookEnd | .lookBehind _ | .lookBehindNotStart .. => true
  | _ => false

/-- The cursors at which an instruction may go on. -/
inductive Attempt.Lands (attempt : Attempt) (point : Point) (store : Store)
    (instruction : Instruction) : Cursor → Prop
  /-- Nothing is consumed. -/
  | stay : Lands attempt point store instruction point.cursor
  /-- One character is consumed. -/
  | char {stop : Nat} (before : point.cursor.position < attempt.range)
      (onward : point.cursor.position ≤ stop) (inside : stop ≤ attempt.range) :
      Lands attempt point store instruction ⟨stop, point.cursor.position⟩
  /-- Several characters are consumed. -/
  | behind {stop : Nat} (onward : point.cursor.position ≤ stop) (inside : stop ≤ attempt.range) :
      Lands attempt point store instruction (attempt.text.cursorBehind point.cursor stop)
  /-- The search goes back in the text. -/
  | back {position : Nat} (may : instruction.goesBack = true)
      (left : position ≤ point.cursor.position) :
      Lands attempt point store instruction (attempt.text.cursorAt position)
  /-- The search goes back to the start of a lookahead. -/
  | look {index : Nat} {cursor : Cursor} (may : instruction.goesBack = true)
      (read : store.stack.get? index = some (.look cursor)) :
      Lands attempt point store instruction cursor

/-- Whether an exit that goes on does so at a good cursor, and one that looks for a byte looks for one
of ASCII. -/
def Exit.Goes (Good : Cursor → Prop) : Exit → Prop
  | .goto point => Good point.cursor
  | .leap _ byte => byte < 0x80
  | _ => True

theorem Exit.Goes.mono {Good Better : Cursor → Prop} {exit : Exit} (goes : exit.Goes Good)
    (better : ∀ cursor, Good cursor → Better cursor) : exit.Goes Better := by
  cases exit with
  | goto point => exact better _ goes
  | leap star byte => exact goes
  | _ => exact trivial

namespace Plan

variable {attempt : Attempt} {point : Point} {store : Store} {Good : Cursor → Prop}
  {instruction : Instruction}

/-- Behind what was consumed up to some position. -/
theorem goes_consumed {address : Nat} {stop? : Option Nat} (behind : Nat → Cursor)
    (good : ∀ stop, stop? = some stop → Good (behind stop)) :
    (consumed address (stop?.map behind)).exit.Goes Good := by
  cases stop? with
  | none => exact trivial
  | some stop => exact good stop rfl

theorem goes_check {address : Nat} {cursor : Cursor} (good : Good cursor) (holds : Bool) :
    (check address cursor holds).exit.Goes Good := by
  cases holds
  · exact trivial
  · exact good

theorem goes_branch {offset : Int} {plan : Nat → Plan}
    (goes : ∀ target, (plan target).exit.Goes Good) :
    (branch attempt point offset plan).exit.Goes Good := by
  unfold branch
  split
  · exact goes _
  · exact trivial

theorem goes_afterIteration (good : Good point.cursor) (range : RepeatRange) (count body : Nat)
    (greedy : Bool) (record : Effect) :
    (afterIteration point range count body greedy record).exit.Goes Good := by
  unfold afterIteration
  repeat' split
  all_goals exact good

theorem goes_repeatNext (good : Good point.cursor) (id : Nat) (greedy direct : Bool) :
    (repeatNext attempt point store id greedy direct).exit.Goes Good := by
  unfold repeatNext
  dsimp only
  repeat' split
  all_goals first | exact trivial | exact goes_afterIteration good _ _ _ _ _

theorem goes_repeatStart (good : Good point.cursor) (id : Nat) (offset : Int) (greedy : Bool) :
    (repeatStart attempt point id offset greedy).exit.Goes Good := by
  unfold repeatStart
  split
  · exact trivial
  · apply goes_branch
    intro target
    dsimp only
    repeat' split
    all_goals exact good

theorem goes_emptyCheckEnd (good : Good point.cursor) (id : Nat) (watched : Option (List Nat)) :
    (emptyCheckEnd attempt point store id watched).exit.Goes Good := by
  unfold emptyCheckEnd
  dsimp only
  repeat' split
  all_goals first | exact trivial | exact good

section

variable (char : attempt.text.hasChar point.cursor.position attempt.range = true →
  Good (point.cursor.step (attempt.text.charLength point.cursor.position)))

include char

/-- Behind the one character that an instruction consumes. -/
theorem goes_oneChar (accepts : Nat → Bool) : (oneChar attempt point accepts).exit.Goes Good := by
  unfold oneChar
  dsimp only
  split
  · next character here =>
      obtain ⟨whole, rfl⟩ := Text.charAt?_eq_some_iff.1 here
      split
      · exact char (Text.hasChar_iff.2 whole)
      · exact trivial
  · exact trivial

theorem goes_charClass (operand : ClassOperand) :
    (charClass attempt point operand).exit.Goes Good := by
  unfold charClass
  dsimp only
  split
  · exact trivial
  · next character here =>
      obtain ⟨whole, rfl⟩ := Text.charAt?_eq_some_iff.1 here
      split
      · split
        · exact char (Text.hasChar_iff.2 whole)
        · exact trivial
      · exact trivial

theorem goes_anyChar (acrossLines : Bool) : (anyChar attempt point acrossLines).exit.Goes Good := by
  unfold anyChar
  dsimp only
  split
  · next taken => exact char (Bool.and_eq_true_iff.1 taken).1
  · exact trivial

end

theorem goes_anyCharStar (acrossLines : Bool) (peeked : Option UInt8) :
    (anyCharStar attempt point acrossLines peeked).exit.Goes Good := by
  unfold anyCharStar
  dsimp only
  split
  · split
    · next plain => exact plain
    · exact trivial
  · exact trivial

/-- An instruction that does not move the cursor goes on at it. -/
theorem goes_of_not_movesCursor (good : Good point.cursor)
    (stays : instruction.movesCursor = false) :
    (ofInstruction attempt point store instruction).exit.Goes Good := by
  cases instruction with
  | byte | bytes | template | foldedChar | foldedChars | charClass | anyChar | word | backReference
  | lookEnd | lookBehind | lookBehindNotStart => cases stays
  | accept | finish | fail => exact trivial
  | anyCharStar acrossLines peeked => exact goes_anyCharStar acrossLines peeked
  | assert assertion => exact goes_check good _
  | openGroup group logged =>
      simp only [ofInstruction, openGroup]
      split
      · exact good
      · exact trivial
  | closeGroup group logged =>
      simp only [ofInstruction, closeGroup]
      split
      · exact good
      · exact trivial
  | clearGroups first stop =>
      simp only [ofInstruction, clearGroups]
      split
      · exact trivial
      · exact good
  | emptyCheckStart id =>
      simp only [ofInstruction, emptyCheckStart]
      split
      · exact good
      · exact trivial
  | emptyCheckEnd id watched => exact goes_emptyCheckEnd good id watched
  | jump offset | push offset | pushIfNext offset next | lookNotStart offset =>
      exact goes_branch fun target => good
  | pop =>
      simp only [ofInstruction, pop]
      split
      · exact trivial
      · exact good
  | pushOrJump offset next =>
      apply goes_branch
      intro target
      split <;> exact good
  | repeatStart id offset greedy => exact goes_repeatStart good id offset greedy
  | repeatNext id greedy direct => exact goes_repeatNext good id greedy direct
  | lookStart | atomicStart => exact good
  | lookNotFail | lookBehindNotFail =>
      simp only [ofInstruction, excluded]
      split <;> exact trivial
  | atomicEnd =>
      simp only [ofInstruction, atomicEnd]
      split
      · exact good
      · exact trivial
  | call target =>
      simp only [ofInstruction, call]
      split
      · exact good
      · exact trivial
  | callReturn =>
      simp only [ofInstruction, callReturn]
      split
      · exact good
      · exact trivial

/-- Every instruction goes on, if it does, where it may leave the cursor. -/
theorem lands_ofInstruction (within : point.cursor.position ≤ attempt.range)
    (instruction : Instruction) :
    (ofInstruction attempt point store instruction).exit.Goes
      (attempt.Lands point store instruction) := by
  have stays : instruction.movesCursor = false →
      (ofInstruction attempt point store instruction).exit.Goes
        (attempt.Lands point store instruction) :=
    goes_of_not_movesCursor .stay
  have char : attempt.text.hasChar point.cursor.position attempt.range = true →
      attempt.Lands point store instruction
        (point.cursor.step (attempt.text.charLength point.cursor.position)) := by
    intro whole
    obtain ⟨before, inside⟩ := Text.hasChar_iff.1 whole
    exact .char before (Nat.le_add_right _ _) inside
  cases instruction with
  | byte value =>
      exact goes_consumed _ fun stop here => .char (Text.lt_of_matchByte? here)
        (Text.le_matchByte? here) (Text.matchByte?_le within here)
  | bytes content =>
      exact goes_consumed _ fun stop here => .behind (Text.le_matchExcerpt? here)
        (Text.matchExcerpt?_le within here)
  | template index offset length =>
      simp only [ofInstruction]
      split
      · exact goes_consumed _ fun stop here => .behind (Text.le_matchExcerpt? here)
          (Text.matchExcerpt?_le within here)
      · exact trivial
  | foldedChar code | word wanted => exact goes_oneChar char _
  | foldedChars codes =>
      exact goes_consumed _ fun stop here => .behind (Text.le_matchCodes? here)
        (Text.matchCodes?_le within here)
  | charClass operand => exact goes_charClass char operand
  | anyChar acrossLines => exact goes_anyChar char acrossLines
  | backReference reference =>
      simp only [ofInstruction, backReference]
      split
      · next stop? repeated =>
          refine goes_consumed _ fun stop isStop => ?_
          rw [isStop] at repeated
          exact .behind (BackReference.le_repeat? repeated)
            (BackReference.repeat?_le within repeated)
      · exact trivial
  | lookEnd =>
      simp only [ofInstruction, lookEnd]
      split
      · next cursor found =>
          obtain ⟨index, read⟩ := Stack.exists_of_lookCursor? found
          exact .look rfl read
      · exact trivial
  | lookBehind length =>
      simp only [ofInstruction, lookBehind]
      split
      · next position found => exact .back rfl (Text.stepBack?_le found)
      · exact trivial
  | lookBehindNotStart offset length =>
      apply goes_branch
      intro target
      split
      · next position found => exact .back rfl (Text.stepBack?_le found)
      · exact .stay
  | _ => exact stays rfl

end Plan

/-! ### What holds of all cursors -/

/-- Whether the cursor in a frame is good, if there is one. -/
def Frame.Stands (Good : Cursor → Prop) : Frame → Prop
  | .choice point | .lookNot point | .behindNot point => Good point.cursor
  | .look cursor => Good cursor
  | _ => True

/-- Whether an effect stores only good cursors. -/
def Effect.Stands (Good : Cursor → Prop) : Effect → Prop
  | .push frame => frame.Stands Good
  | _ => True

/-- Whether a move takes the search to a good cursor, and stores only good ones. -/
def Move.Stands (Good : Cursor → Prop) : Move → Prop
  | .perform effect => effect.Stands Good
  | .goto point => Good point.cursor
  | _ => True

/-- Whether all cursors in a store are good. -/
def Store.Stands (Good : Cursor → Prop) (store : Store) : Prop :=
  store.stack.All (Frame.Stands Good)

/-- Whether all cursors of a search are good. -/
structure Search.Stands (Good : Cursor → Prop) (search : Search) : Prop where
  cursor : Good search.point.cursor
  store : search.store.Stands Good

/-- Whether a property of cursors holds wherever consuming something leaves a cursor of which it
holds. -/
structure Attempt.CarriesOnward (attempt : Attempt) (Good : Cursor → Prop) : Prop where
  char : ∀ cursor stop, Good cursor → cursor.position < attempt.range → cursor.position ≤ stop →
    stop ≤ attempt.range → Good ⟨stop, cursor.position⟩
  behind : ∀ cursor stop, Good cursor → cursor.position ≤ stop → stop ≤ attempt.range →
    Good (attempt.text.cursorBehind cursor stop)

/-- Whether a cursor lies between two positions. -/
def Cursor.Between (first last : Nat) (cursor : Cursor) : Prop :=
  first ≤ cursor.position ∧ cursor.position ≤ last

/-- What is consumed lies between where the search stands and the end of the span. -/
theorem Attempt.carriesOnward_between (attempt : Attempt) (first : Nat) :
    attempt.CarriesOnward (Cursor.Between first attempt.range) where
  char := fun _ _ between _ onward inside => ⟨Nat.le_trans between.1 onward, inside⟩
  behind := fun _ _ between onward inside => ⟨Nat.le_trans between.1 onward, inside⟩

/-- Whether a property of cursors holds of all those to which a star comes from a cursor, be it that it
takes one character after the other or that it looks for a byte of ASCII. -/
structure Attempt.CarriesStars (attempt : Attempt) (Good : Cursor → Prop) (origin : Cursor) :
    Prop where
  start : Good origin
  char : ∀ cursor, Good cursor → attempt.text.hasChar cursor.position attempt.range = true →
    Good (cursor.step (attempt.text.charLength cursor.position))
  hit : ∀ hit, origin.position ≤ hit →
    hit < attempt.text.fittingEnd origin.position attempt.range → attempt.text.byte hit < 0x80 →
      Good (attempt.text.cursorBehind origin hit)
  stop : Good (attempt.text.cursorBehind origin
    (attempt.text.fittingEnd origin.position attempt.range))

/-- Whether a property of cursors holds wherever an instruction may leave a cursor of which it
holds. -/
structure Attempt.Carries (attempt : Attempt) (Good : Cursor → Prop) : Prop
    extends attempt.CarriesOnward Good where
  back : ∀ position, position ≤ attempt.range → Good (attempt.text.cursorAt position)

namespace Store.Stands

variable {Good : Cursor → Prop} {store : Store}

theorem lower (store : Store) (frame : Frame) (stands : (store.push frame).Stands Good) :
    store.Stands Good :=
  Stack.All.lower stands

theorem setEntryCount (stands : store.Stands Good) (index count : Nat) :
    { store with stack := store.stack.setEntryCount index count : Store }.Stands Good := by
  refine Stack.All.setEntryCount stands (fun frame count good => ?_) index count
  cases frame <;> exact good

theorem restore (store : Store) (frame : Frame) (stands : (store.push frame).Stands Good) :
    (store.restore frame).Stands Good := by
  have below := stands.lower
  cases frame with
  | entryCount index savedCount => exact below.setEntryCount index savedCount
  | _ => exact below

theorem unwind (stands : store.Stands Good) (test : Frame → Bool) :
    (store.unwind test).2.Stands Good :=
  unwind_invariant test (fun store frame _ => lower store frame) restore stands

theorem onStore (stands : store.Stands Good) {effect : Effect} (own : effect.Stands Good) :
    (effect.onStore store).Stands Good := by
  cases effect with
  | note event | setGroup group bounds => exact stands
  | push frame => exact stands.push own
  | openGroup group position | closeGroup group position | clearGroup group
  | enterRepeat id body | countInRegister id => exact Stack.All.push stands trivial
  | countInEntry index => exact Stack.All.push (stands.setEntryCount index _) trivial
  | discard => exact discard_invariant lower stands
  | commit mark =>
      refine Stack.All.commit stands (fun frame good => ?_) trivial mark
      cases frame <;> first | exact good | exact trivial
  | unwindTo mark => exact stands.unwind _

/-- The search goes back to a good cursor. -/
theorem backtrack (stands : store.Stands Good) {point : Point}
    (resumed : store.backtrack.1 = some point) : Good point.cursor := by
  obtain ⟨frame, found, resumes⟩ := Option.bind_eq_some_iff.1 resumed
  have top : ∀ (store : Store) (frame : Frame), (store.push frame).Stands Good →
      frame.Stands Good := fun _ _ stands => Stack.All.top stands
  have own : frame.Stands Good := unwind_found top restore stands found
  cases frame with
  | choice point' | lookNot point' | behindNot point' =>
      cases resumes
      exact own
  | _ => cases resumes

end Store.Stands

namespace Attempt

variable {attempt : Attempt} {point : Point} {store : Store} {Good : Cursor → Prop} {move : Move}

theorem Lands.good (carries : attempt.Carries Good) (stands : store.Stands Good)
    (within : point.cursor.position ≤ attempt.range) (start : Good point.cursor)
    {instruction : Instruction} {cursor : Cursor}
    (lands : attempt.Lands point store instruction cursor) : Good cursor := by
  cases lands with
  | stay => exact start
  | char before onward inside => exact carries.char _ _ start before onward inside
  | behind onward inside => exact carries.behind _ _ start onward inside
  | back _ left => exact carries.back _ (Nat.le_trans left within)
  | look _ read => exact stands _ _ read

/-- An instruction that does not go back leaves the cursor where consuming something may. -/
theorem Lands.good_onward (carries : attempt.CarriesOnward Good) (start : Good point.cursor)
    {instruction : Instruction} (stays : instruction.goesBack = false) {cursor : Cursor}
    (lands : attempt.Lands point store instruction cursor) : Good cursor := by
  cases lands with
  | stay => exact start
  | char before onward inside => exact carries.char _ _ start before onward inside
  | behind onward inside => exact carries.behind _ _ start onward inside
  | back may | look may =>
      rw [stays] at may
      cases may

/-- The frames that instructions push hold the cursor at which they stand. -/
theorem Causes.stands (start : Good point.cursor) {instruction : Instruction} {effect : Effect}
    (causes : attempt.Causes point store instruction effect) : effect.Stands Good := by
  cases causes with
  | choice | look | lookNot | behindNot => exact start
  | _ => exact trivial

theorem CarriesOnward.stars (carries : attempt.CarriesOnward Good)
    (within : point.cursor.position ≤ attempt.range) (start : Good point.cursor) :
    attempt.CarriesStars Good point.cursor where
  start := start
  char := by
    intro cursor good whole
    obtain ⟨before, inside⟩ := Text.hasChar_iff.1 whole
    exact carries.char cursor _ good before (Nat.le_add_right _ _) inside
  hit := by
    intro hit after before _
    have stops := attempt.text.fittingEnd_le within
    exact carries.behind _ hit start after (Nat.le_trans (Nat.le_of_lt before) stops)
  stop := carries.behind _ _ start (attempt.text.le_fittingEnd _ _)
    (attempt.text.fittingEnd_le within)

theorem stands_of_makes {star : Star} (makes : star.Makes Good move) : move.Stands Good := by
  cases makes with
  | choice good | goto good => exact good
  | work | fail | backtrack => exact trivial

theorem stands_of_mem_failing (mem : move ∈ Move.failing) : move.Stands Good := by
  simp only [Move.failing, List.mem_cons, List.not_mem_nil, or_false] at mem
  rcases mem with rfl | rfl <;> exact trivial

/-- The end of a candidate does not move the cursor. -/
theorem stands_of_mem_acceptMoves {position : Nat} (mem : move ∈ attempt.acceptMoves position) :
    move.Stands Good := by
  unfold acceptMoves at mem
  split at mem
  · obtain rfl := List.mem_singleton.1 mem
    exact trivial
  split at mem
  · exact stands_of_mem_failing mem
  split at mem
  · rcases List.mem_cons.1 mem with rfl | mem
    · exact trivial
    · exact stands_of_mem_failing mem
  · rcases List.mem_cons.1 mem with rfl | mem
    · exact trivial
    · obtain rfl := List.mem_singleton.1 mem
      exact trivial

/-- On the way out of an instruction the search comes only to good cursors. -/
theorem stands_of_mem_exitMoves (carries : attempt.CarriesStars Good point.cursor) {exit : Exit}
    (goes : exit.Goes Good) (mem : move ∈ attempt.exitMoves point exit) : move.Stands Good := by
  cases exit with
  | goto next =>
      obtain rfl := List.mem_singleton.1 mem
      exact goes
  | fail => exact stands_of_mem_failing mem
  | sweep star =>
      exact stands_of_makes (Star.makes_of_mem_sweepMoves carries.start carries.char mem)
  | leap star byte =>
      have plain : byte < 0x80 := goes
      refine stands_of_makes (Star.makes_of_mem_leapMoves ?_ carries.stop mem)
      intro hit after before isByte
      exact carries.hit hit after before (by rwa [isByte])
  | accept => exact stands_of_mem_acceptMoves mem
  | finish =>
      obtain rfl := List.mem_singleton.1 mem
      exact trivial
  | corrupt reason =>
      obtain rfl := List.mem_singleton.1 mem
      exact trivial

/-- All moves of a dispatch keep to good cursors if its instruction goes on at one. -/
theorem stands_of_mem_moves_of_goes (carries : attempt.CarriesStars Good point.cursor)
    (goes : ∀ instruction, attempt.program.code[point.address]? = some instruction →
      (Plan.ofInstruction attempt point store instruction).exit.Goes Good)
    (mem : move ∈ attempt.moves point store) : move.Stands Good := by
  rcases of_mem_moves mem with rfl | ⟨instruction, fetched, made⟩
  · trivial
  rcases made with rfl | ⟨event, rfl⟩ | ⟨effect, effectMem, rfl⟩ | exitMem
  · trivial
  · trivial
  · exact (causes_of_mem_effects effectMem).stands carries.start
  · exact stands_of_mem_exitMoves carries (goes instruction fetched) exitMem

/-- All moves of a dispatch keep to good cursors. -/
theorem stands_of_mem_moves (carries : attempt.Carries Good) (stands : store.Stands Good)
    (within : point.cursor.position ≤ attempt.range) (start : Good point.cursor)
    (mem : move ∈ attempt.moves point store) : move.Stands Good := by
  refine stands_of_mem_moves_of_goes (carries.toCarriesOnward.stars within start) ?_ mem
  intro instruction _
  exact (Plan.lands_ofInstruction within instruction).mono fun _ =>
    Lands.good carries stands within start

end Attempt

namespace Search

variable {setting : Setting} {search next : Search} {Good : Cursor → Prop}

/-- A move that does not go back to a choice leads from a good cursor to a good one. -/
theorem stands_of_attempt (start : Good search.point.cursor) {move : Move} (own : move.Stands Good)
    (onward : move ≠ .backtrack) (attempted : move.attempt setting search = .ok next) :
    Good next.point.cursor := by
  obtain rfl := Move.eq_onSearch attempted
  cases move with
  | perform effect =>
      cases effect with
      | note event =>
          rw [Move.onSearch, note_eq]
          exact start
      | _ => exact start
  | backtrack => exact absurd rfl onward
  | goto point => exact own
  | consider =>
      rw [Move.onSearch, consider_eq]
      exact start
  | work | fail | matched | conclude | reject reason => exact start

theorem Stands.of_attempt (stands : search.Stands Good) {move : Move} (own : move.Stands Good)
    (attempted : move.attempt setting search = .ok next) : next.Stands Good := by
  have store : next.store.Stands Good := by
    rw [Move.store_of_attempt attempted]
    cases move with
    | perform effect => exact stands.store.onStore own
    | backtrack => exact stands.store.unwind _
    | _ => exact stands.store
  refine ⟨?_, store⟩
  by_cases back : move = .backtrack
  · subst back
    rw [Move.eq_onSearch attempted, Move.onSearch]
    cases resumed : search.store.backtrack.1 with
    | none => exact stands.cursor
    | some point => exact stands.store.backtrack resumed
  · exact stands_of_attempt stands.cursor own back attempted

/-- A dispatch keeps all cursors good if its moves do. -/
theorem Stands.step_of_moves (stands : search.Stands Good)
    (own : ∀ move ∈ setting.moves search.point search.store, move.Stands Good)
    (stepped : search.step setting = .ok next) : next.Stands Good := by
  have results : Results (Search.Stands Good) (fun _ => True) (search.step setting) := by
    rw [step_eq_play]
    refine Move.play_results ?_ stands own
    intro search move stands own
    cases attempted : move.attempt setting search with
    | ok next => exact stands.of_attempt own attempted
    | error ending => exact trivial
  rw [stepped] at results
  exact results

/-- A dispatch keeps all cursors good. -/
theorem Stands.step (carries : setting.toAttempt.Carries Good) (stands : search.Stands Good)
    (within : search.point.cursor.position ≤ setting.range)
    (stepped : search.step setting = .ok next) : next.Stands Good :=
  stands.step_of_moves
    (fun _ => Attempt.stands_of_mem_moves carries stands.store within stands.cursor) stepped

end Search

end PatternMachine
