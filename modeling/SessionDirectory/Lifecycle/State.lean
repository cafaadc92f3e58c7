/-!
# Lifecycle states

Where a listing is between its announcement and its removal.

## Main definitions

* `LifecycleState`: the states
* `LifecycleState.canTransitionTo`: the moves allowed
* `LifecycleState.next`: the states other than itself that a state can move to

## Main results

* `LifecycleState.ofName?_eq_some_iff`: the state of a name is the one that has it
* `LifecycleState.mem_next_iff`: the next states are the ones that the moves allowed lead to
-/

set_option autoImplicit false

namespace SessionDirectory

/-- Where a listing is in its life. -/
inductive LifecycleState where
  | unannounced
  | announced
  | refreshing
  | unlisting
  | terminated
  | error
  deriving DecidableEq, Repr

namespace LifecycleState

/-- The name of the state. -/
def name : LifecycleState → String
  | .unannounced => "Unannounced"
  | .announced => "Announced"
  | .refreshing => "Refreshing"
  | .unlisting => "Unlisting"
  | .terminated => "Terminated"
  | .error => "Error"

/-- All states, in the order of a listing's life. -/
def all : List LifecycleState :=
  [.unannounced, .announced, .refreshing, .unlisting, .terminated, .error]

/-- The state of a name. -/
def ofName? (s : String) : Option LifecycleState := all.find? fun state => state.name = s

theorem ofName?_name (state : LifecycleState) : ofName? state.name = some state := by
  cases state <;> rfl

/-- The names tell the states apart, so the state of a name is the one that has it. -/
theorem ofName?_eq_some_iff {s : String} {state : LifecycleState} :
    ofName? s = some state ↔ state.name = s := by
  constructor
  · intro found
    have named := List.find?_some found
    exact of_decide_eq_true named
  · rintro rfl
    exact ofName?_name state

/-- Whether the listing's life has ended. -/
def isTerminal : LifecycleState → Bool
  | .terminated | .error => true
  | _ => false

/-- Whether a state follows directly on another in a life without faults. -/
def precedes : LifecycleState → LifecycleState → Bool
  | .unannounced, .announced => true
  | .announced, .refreshing => true
  | .refreshing, .unlisting => true
  | .unlisting, .terminated => true
  | _, _ => false

/-- Whether a move is allowed: to stay, to go one step on, or to fail before the end. -/
def canTransitionTo (state next : LifecycleState) : Bool :=
  state = next || (!state.isTerminal && next = .error) || state.precedes next

/-- The states other than itself that a state can move to. -/
def next : LifecycleState → List LifecycleState
  | .unannounced => [.announced, .error]
  | .announced => [.refreshing, .error]
  | .refreshing => [.unlisting, .error]
  | .unlisting => [.terminated, .error]
  | .terminated => []
  | .error => []

/-- The next states are the ones that the moves allowed lead to. -/
theorem mem_next_iff {state other : LifecycleState} :
    other ∈ state.next ↔ state.canTransitionTo other = true ∧ other ≠ state := by
  cases state <;> cases other <;> decide

/-- A life has ended where no move leads on. -/
theorem isTerminal_iff_next_eq_nil {state : LifecycleState} :
    state.isTerminal = true ↔ state.next = [] := by
  cases state <;> decide

end LifecycleState

end SessionDirectory
