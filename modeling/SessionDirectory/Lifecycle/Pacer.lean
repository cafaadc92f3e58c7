import SessionDirectory.Duration

/-!
# Pauses

The keep-alive loop pauses between refreshes. A pause ends because its time has passed or because
the loop is cancelled.

## Main definitions

* `WaitOutcome`: how a pause ended
* `Pacer`: how the pauses of a run end
* `CancelFlags`: flags shared by clones of tokens, any of which cancels the pauses of all
-/

set_option autoImplicit false

namespace SessionDirectory

/-- How a pause ended. -/
inductive WaitOutcome where
  | elapsed
  | cancelled
  deriving DecidableEq, Repr

/-- How pauses end, from the number of pauses before and the length of the pause. -/
abbrev Pacer := Nat → Duration → WaitOutcome

/-- The pacer whose first pauses elapse and whose later ones are cancelled. -/
def Pacer.elapsing (count : Nat) : Pacer := fun before _ =>
  if before < count then .elapsed else .cancelled

/-- Cancellation tokens: each has a flag, and clones share one. -/
structure CancelFlags where
  /-- The flags, set when cancelled. -/
  flags : List Bool
  /-- The flag of each token, by its place among the flags. -/
  tokens : List Nat
  deriving DecidableEq, Repr

namespace CancelFlags

/-- One token that is not cancelled. -/
def one : CancelFlags := ⟨[false], [0]⟩

/-- Whether a token is cancelled. -/
def isCancelled (s : CancelFlags) (token : Nat) : Bool :=
  match s.tokens[token]? with
  | some place => (s.flags[place]?).getD false
  | none => false

/-- Adds a token with a flag of its own. -/
def create (s : CancelFlags) : CancelFlags :=
  ⟨s.flags ++ [false], s.tokens ++ [s.flags.length]⟩

/-- Adds a token that shares the flag of another. -/
def clone (s : CancelFlags) (token : Nat) : CancelFlags :=
  match s.tokens[token]? with
  | some place => { s with tokens := s.tokens ++ [place] }
  | none => s

/-- Cancels a token and all that share its flag. -/
def cancel (s : CancelFlags) (token : Nat) : CancelFlags :=
  match s.tokens[token]? with
  | some place => { s with flags := s.flags.set place true }
  | none => s

/-- How a pause on a token ends when nobody cancels it meanwhile and its time can be told. -/
def pause (s : CancelFlags) (token : Nat) : WaitOutcome :=
  if s.isCancelled token then .cancelled else .elapsed

/-- A pause without end: it ends when the token is cancelled, at once or later. -/
def pauseUntilCancelled (s : CancelFlags) (token : Nat) : WaitOutcome × CancelFlags :=
  (.cancelled, s.cancel token)

/-- The flag of every token. -/
def all (s : CancelFlags) : List Bool := (List.range s.tokens.length).map s.isCancelled

end CancelFlags

end SessionDirectory
