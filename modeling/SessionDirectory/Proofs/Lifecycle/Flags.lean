import SessionDirectory.Lifecycle.Pacer

/-!
# Tokens and their flags

A token keeps its place among the flags, whatever is done with other tokens. Flags are told by their
places here, so what is said of a flag is said of all the tokens that share it.

## Main definitions

* `CancelFlags.shares`: two tokens share a flag
* `CancelFlags.IsSet`: the flag at a place is set
* `CancelFlags.InPlace`: every token has a flag

## Main results

* `CancelFlags.isCancelled_iff`: a token is cancelled if its flag is set
* `CancelFlags.isSet_cancel`, `CancelFlags.isCancelled_cancel_eq`: what a cancel sets, and which
  tokens it cancels
* `CancelFlags.cancel_of_isSet`: a second cancel changes nothing
-/

set_option autoImplicit false

namespace SessionDirectory

namespace CancelFlags

variable {s : CancelFlags} {token token' place : Nat}

/-- Whether two tokens share a flag. -/
def shares (s : CancelFlags) (token token' : Nat) : Bool :=
  match s.tokens[token]? with
  | some place => s.tokens[token']? = some place
  | none => false

/-- The flag at a place is set. -/
def IsSet (s : CancelFlags) (place : Nat) : Prop := s.flags[place]? = some true

/-- Every token has a flag. -/
def InPlace (s : CancelFlags) : Prop := ∀ place ∈ s.tokens, place < s.flags.length

theorem shares_iff : s.shares token token' = true ↔
    ∃ place, s.tokens[token]? = some place ∧ s.tokens[token']? = some place := by
  unfold shares
  cases s.tokens[token]? <;> simp

theorem isCancelled_iff : s.isCancelled token = true ↔
    ∃ place, s.tokens[token]? = some place ∧ s.IsSet place := by
  unfold isCancelled IsSet
  cases s.tokens[token]? with
  | none => simp
  | some place => cases at_place : s.flags[place]? <;> simp [at_place]

/-- A token that is not cancelled has no flag that is set. -/
theorem not_isSet_of_not_cancelled (clear : s.isCancelled token = false)
    (at_token : s.tokens[token]? = some place) : ¬ s.IsSet place := by
  intro set
  rw [isCancelled_iff.mpr ⟨place, at_token, set⟩] at clear
  cases clear

theorem tokens_cancel (s : CancelFlags) (token : Nat) : (s.cancel token).tokens = s.tokens := by
  unfold cancel
  split <;> rfl

theorem flags_clone (s : CancelFlags) (token : Nat) : (s.clone token).flags = s.flags := by
  unfold clone
  split <;> rfl

/-- **To cancel a token sets its flag**, and leaves the others. -/
theorem isSet_cancel (inPlace : s.InPlace) :
    (s.cancel token).IsSet place ↔ s.IsSet place ∨ s.tokens[token]? = some place := by
  unfold cancel
  cases at_token : s.tokens[token]? with
  | none => simp
  | some place' =>
    have bound := inPlace place' (List.mem_of_getElem? at_token)
    by_cases same : place' = place
    · subst same
      simp [IsSet, List.getElem?_set_self bound]
    · simp [IsSet, List.getElem?_set_ne same, same]

/-- To cancel a token whose flag is set changes nothing. -/
theorem cancel_of_isSet (at_token : s.tokens[token]? = some place) (set : s.IsSet place) :
    s.cancel token = s := by
  obtain ⟨bound, at_place⟩ := List.getElem?_eq_some_iff.mp set
  have same : s.flags.set place true = s.flags := by rw [← at_place, List.set_getElem_self]
  simp [cancel, at_token, same]

/-- A token that is cancelled stays what it is when it is cancelled again. -/
theorem cancel_of_isCancelled (cancelled : s.isCancelled token = true) : s.cancel token = s := by
  obtain ⟨place, at_token, set⟩ := isCancelled_iff.mp cancelled
  exact cancel_of_isSet at_token set

/-- **To cancel a token cancels those that share its flag**, and leaves the others. -/
theorem isCancelled_cancel_eq (inPlace : s.InPlace) (token token' : Nat) :
    (s.cancel token).isCancelled token' = (s.isCancelled token' || s.shares token token') := by
  rw [Bool.eq_iff_iff, Bool.or_eq_true]
  simp only [isCancelled_iff, shares_iff, tokens_cancel, isSet_cancel inPlace]
  constructor
  · rintro ⟨place, at_token', set | at_token⟩
    · exact .inl ⟨place, at_token', set⟩
    · exact .inr ⟨place, at_token, at_token'⟩
  · rintro (⟨place, at_token', set⟩ | ⟨place, at_token, at_token'⟩)
    · exact ⟨place, at_token', .inl set⟩
    · exact ⟨place, at_token', .inr at_token⟩

/-- What a cancel does to the flags of all tokens. -/
theorem all_cancel (inPlace : s.InPlace) (token : Nat) : (s.cancel token).all =
    (List.range s.tokens.length).map fun token' => s.isCancelled token' || s.shares token token' := by
  rw [all, tokens_cancel]
  exact List.map_congr_left fun token' _ => isCancelled_cancel_eq inPlace token token'

/-- A token that exists is cancelled after it was cancelled. -/
theorem isCancelled_cancel_self (inPlace : s.InPlace) (held : token < s.tokens.length) :
    (s.cancel token).isCancelled token = true := by
  have at_token := List.getElem?_eq_getElem held
  rw [isCancelled_cancel_eq inPlace, shares_iff.mpr ⟨_, at_token, at_token⟩, Bool.or_true]

/-- A new flag is not set. -/
theorem isSet_create : s.create.IsSet place ↔ s.IsSet place := by
  unfold IsSet create
  rcases Nat.lt_or_ge place s.flags.length with lt | ge
  · rw [List.getElem?_append_left lt]
  · rw [List.getElem?_append_right ge, List.getElem?_eq_none ge]
    cases place - s.flags.length <;> simp

/-- A clone leaves the other tokens where they are. -/
theorem getElem?_tokens_clone (at_token : s.tokens[token]? = some place) (original : Nat) :
    (s.clone original).tokens[token]? = some place := by
  unfold clone
  split
  · rw [List.getElem?_append_left (List.getElem?_eq_some_iff.mp at_token).1, at_token]
  · exact at_token

/-- A new token leaves the others where they are. -/
theorem getElem?_tokens_create (at_token : s.tokens[token]? = some place) :
    s.create.tokens[token]? = some place := by
  rw [create, List.getElem?_append_left (List.getElem?_eq_some_iff.mp at_token).1, at_token]

theorem inPlace_one : one.InPlace := by simp [InPlace, one]

theorem InPlace.cancel (inPlace : s.InPlace) (token : Nat) : (s.cancel token).InPlace := by
  unfold CancelFlags.cancel
  split
  · intro place mem
    rw [List.length_set]
    exact inPlace place mem
  · exact inPlace

theorem InPlace.clone (inPlace : s.InPlace) (token : Nat) : (s.clone token).InPlace := by
  unfold CancelFlags.clone
  split
  next place at_token =>
    intro place' mem
    rcases List.mem_append.mp mem with mem | mem
    · exact inPlace place' mem
    · rw [List.mem_singleton.mp mem]
      exact inPlace place (List.mem_of_getElem? at_token)
  next => exact inPlace

theorem InPlace.create (inPlace : s.InPlace) : s.create.InPlace := by
  intro place mem
  rw [CancelFlags.create, List.length_append, List.length_singleton]
  rcases List.mem_append.mp mem with mem | mem
  · exact Nat.lt_succ_of_lt (inPlace place mem)
  · rw [List.mem_singleton.mp mem]
    exact Nat.lt_succ_self _

end CancelFlags

end SessionDirectory
