import SessionDirectory.Directory.Basic
import SessionDirectory.Lifecycle.State

/-!
# Lifecycle errors

How the life of a listing can go wrong.

## Main definitions

* `LifecycleError`: the faults, each with the state in which it happened
* `FaultKind`: their kinds
-/

set_option autoImplicit false

namespace SessionDirectory

/-- What is wrong with the body of an accepted announcement. -/
inductive ReplyFault where
  | unparseable (cause : Json.Error)
  | missingId
  | missingKey
  deriving DecidableEq, Repr

/-- What is wrong, in words. -/
def ReplyFault.message : ReplyFault → String
  | .unparseable cause => "unparseable body: " ++ cause.message
  | .missingId => "missing id"
  | .missingKey => "missing key"

/-- The kinds of faults. -/
inductive FaultKind where
  | transport
  | protocol
  | malformedResponse
  | invalidTransition
  deriving DecidableEq, Repr

/-- A fault in the life of a listing. -/
inductive LifecycleError where
  | transport (state : LifecycleState) (cause : DirectoryError)
  | rejected (state : LifecycleState) (response : Response)
  | malformed (state : LifecycleState) (response : Response) (fault : ReplyFault)
  | invalidTransition (state next : LifecycleState)
  deriving DecidableEq

namespace LifecycleError

/-- The kind of the fault. -/
def kind : LifecycleError → FaultKind
  | .transport _ _ => .transport
  | .rejected _ _ => .protocol
  | .malformed _ _ _ => .malformedResponse
  | .invalidTransition _ _ => .invalidTransition

/-- The state in which the fault happened. -/
def state : LifecycleError → LifecycleState
  | .transport state _ => state
  | .rejected state _ => state
  | .malformed state _ _ => state
  | .invalidTransition state _ => state

/-- The body that the server sent, if it sent one. -/
def body? : LifecycleError → Option String
  | .rejected _ response => some response.body
  | .malformed _ response _ => some response.body
  | _ => none

/-- What went wrong, in words. -/
def message : LifecycleError → String
  | .transport state _ => state.name ++ ": could not reach list server"
  | .rejected state response =>
    state.name ++ ": list server returned HTTP " ++ Decimal.text response.status.toNat
  | .malformed state _ fault =>
    state.name ++ ": invalid reply from list server (" ++ fault.message ++ ")"
  | .invalidTransition state next =>
    "invalid lifecycle transition: " ++ state.name ++ " -> " ++ next.name

/-- The chain of causes. -/
def causes (e : LifecycleError) : List Cause :=
  .text e.message :: match e with
    | .transport _ cause => cause.causes
    | _ => []

end LifecycleError

/-- The next state, if the move to it is allowed. -/
def LifecycleState.tryTransition (state next : LifecycleState) :
    Except LifecycleError LifecycleState :=
  if state.canTransitionTo next then .ok next else .error (.invalidTransition state next)

theorem LifecycleState.tryTransition_eq_ok_iff {state next moved : LifecycleState} :
    state.tryTransition next = .ok moved ↔ state.canTransitionTo next = true ∧ next = moved := by
  rw [tryTransition]
  split <;> simp [*]

end SessionDirectory
