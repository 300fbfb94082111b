import PatternMachine.Proofs.Trail

/-!
# What a search finds

A search that is made to fail whenever it comes to an address finds one state after the other there
(`Search.tries`), until all choices above some depth were tried.  A bounded part of such a search
has found the first of them, and knows whether it was cut short.
-/

namespace PatternMachine

/-- Whether a run has ended without an answer. -/
def Ending.isStopped (ending : Ending) : Bool :=
  match ending.outcome with
  | .stopped _ => true
  | _ => false

/-- What was found, in order, and whether everything was tried. -/
structure Findings (α : Type) where
  found : List α
  whole : Bool
  deriving DecidableEq, Repr

namespace Findings

variable {α β : Type}

/-- Nothing was found so far. -/
def cut : Findings α :=
  ⟨[], false⟩

/-- There is nothing to find. -/
def none : Findings α :=
  ⟨[], true⟩

/-- There is one thing to find. -/
def one (value : α) : Findings α :=
  ⟨[value], true⟩

/-- What is found first, and then the rest, if the first part was not cut short. -/
def append (first rest : Findings α) : Findings α :=
  if first.whole then ⟨first.found ++ rest.found, rest.whole⟩ else first

/-- What is found from one thing after the other. -/
def flatMap (findings : Findings α) (next : α → Findings β) : Findings β :=
  findings.found.foldr (fun value rest => (next value).append rest) ⟨[], findings.whole⟩

/-- What is seen of the things that were found. -/
def map (see : α → β) (findings : Findings α) : Findings β :=
  ⟨findings.found.map see, findings.whole⟩

@[simp] theorem none_append (rest : Findings α) : none.append rest = rest := rfl

@[simp] theorem append_none (first : Findings α) : first.append none = first := by
  obtain ⟨found, whole⟩ := first
  cases whole with
  | true => simp [append, none]
  | false => rfl

theorem append_assoc (first second third : Findings α) :
    (first.append second).append third = first.append (second.append third) := by
  obtain ⟨found, whole⟩ := first
  obtain ⟨found', whole'⟩ := second
  cases whole <;> cases whole' <;> simp [append]

/-- Things that were found one after the other lead on one after the other. -/
theorem flatMap_append (first rest : Findings α) (next : α → Findings β) :
    (first.append rest).flatMap next = (first.flatMap next).append (rest.flatMap next) := by
  obtain ⟨found, whole⟩ := first
  cases whole with
  | true =>
      induction found with
      | nil => rfl
      | cons value found ih =>
          have step : ∀ others : Findings α,
              (append ⟨value :: found, true⟩ others).flatMap next =
                (next value).append ((append ⟨found, true⟩ others).flatMap next) := fun _ => rfl
          rw [step, ih, ← append_assoc]
          rfl
  | false =>
      induction found with
      | nil => rfl
      | cons value found ih =>
          have whole : (append ⟨found, false⟩ rest) = ⟨found, false⟩ := rfl
          rw [whole] at ih
          have step : (⟨value :: found, false⟩ : Findings α).flatMap next =
              (next value).append ((⟨found, false⟩ : Findings α).flatMap next) := rfl
          have kept : append ⟨value :: found, false⟩ rest = ⟨value :: found, false⟩ := rfl
          rw [kept, step, append_assoc, ← ih]

theorem map_append (see : α → β) (first rest : Findings α) :
    (first.append rest).map see = (first.map see).append (rest.map see) := by
  obtain ⟨found, whole⟩ := first
  cases whole <;> simp [append, map]

theorem flatMap_one (value : α) (next : α → Findings β) :
    (one value).flatMap next = next value :=
  append_none _

/-- Whether findings are the first of others, and all of them if nothing was left to try. -/
structure Begins (first later : Findings α) : Prop where
  found : first.found <+: later.found
  all : first.whole = true → later = first

namespace Begins

variable {first later : Findings α}

theorem cut : Begins .cut later :=
  ⟨List.nil_prefix, nofun⟩

theorem refl (findings : Findings α) : findings.Begins findings :=
  ⟨List.prefix_refl _, fun _ => rfl⟩

theorem append (begins : first.Begins later) (before : Findings α) :
    (before.append first).Begins (before.append later) := by
  unfold Findings.append
  split
  · exact ⟨(List.prefix_append_right_inj _).2 begins.found,
      fun whole => by rw [begins.all whole]⟩
  · exact .refl _

end Begins

/-- What one result of a search leads to, if it is not below a depth. -/
def onward (floor : Nat) (goOn : Search → Findings α) : Except Ending Search → Findings α
  | .ok next => if floor ≤ next.store.depth then goOn next else none
  | .error ending => ⟨[], !ending.isStopped⟩

theorem Begins.onward {floor : Nat} {goOn goOn' : Search → Findings α}
    (begins : ∀ next, (goOn next).Begins (goOn' next)) (result : Except Ending Search) :
    (Findings.onward floor goOn result).Begins (Findings.onward floor goOn' result) := by
  cases result with
  | error ending => exact .refl _
  | ok next =>
      simp only [Findings.onward]
      split
      · exact begins next
      · exact .refl _

end Findings

/-- The states in which a search comes to an address and fails there, one after the other, as long
as there are choices above a depth and fuel is left. -/
def Search.tries (setting : Setting) (stop floor : Nat) : (fuel : Nat) → Search → Findings Search
  | 0, _ => .cut
  | fuel + 1, search =>
      if search.point.address = stop then
        (Findings.one search).append (.onward floor (tries setting stop floor fuel)
          (search.fail setting))
      else
        .onward floor (tries setting stop floor fuel) (search.step setting)

/-- A search that is followed further finds the same, and then what else there is. -/
theorem Search.tries_begins {setting : Setting} {stop floor few many : Nat} (more : few ≤ many)
    (search : Search) :
    (search.tries setting stop floor few).Begins (search.tries setting stop floor many) := by
  induction few generalizing many search with
  | zero => exact .cut
  | succ few ih =>
      obtain ⟨extra, rfl⟩ := Nat.exists_eq_add_of_lt more
      have begins := fun next => ih (Nat.le_of_succ_le_succ more) next
      unfold tries
      split
      · exact (Findings.Begins.onward begins _).append _
      · exact .onward begins _

/-- A search that has tried everything and found nothing finds nothing when it is followed
further. -/
theorem Search.found_eq_nil_of_whole {setting : Setting} {stop floor fuel : Nat} {search : Search}
    (nothing : (search.tries setting stop floor fuel).found = [])
    (whole : (search.tries setting stop floor fuel).whole = true) (many : Nat) :
    (search.tries setting stop floor many).found = [] := by
  rcases Nat.le_total many fuel with fewer | more
  · exact List.prefix_nil.1 (nothing ▸ (search.tries_begins fewer).found)
  · rw [(search.tries_begins more).all whole]
    exact nothing

end PatternMachine
