import Mathlib.Data.List.Chain
import SessionDirectory.Proofs.Lifecycle.CallOrder
import SessionDirectory.Proofs.Lifecycle.Tally

/-!
# The life of a controller

A controller may be run again and again, each time with a session, a server and a pacer of its own.
Only its first run does anything: that run leaves the listing terminated or in the error state, and
nothing may be announced from there.

## Main definitions

* `Onward states`: the states only move on, and none is returned to
* `Life config runs left c`: the runs of a controller that have returned and the states it has left
* `LifeRules`: what holds of a controller whatever it is run with next

## Main results

* `History.onward`: the states of a keeper only move on
* `Controller.run?_of_ended`: a controller that has ended makes empty runs
* `Life.new_or_spent`: a controller has never been run, or it is spent
* `Life.transitions`: every move of a controller is a transition that is tried and succeeds
* `lifeRules_of_life`: the rules hold throughout the life of a controller
-/

set_option autoImplicit false

namespace SessionDirectory

/-- **The states, newest first, only move on**: every move is an allowed one, and no state is
returned to. -/
structure Onward (states : List LifecycleState) : Prop where
  allowed : states.IsChain fun newer older => older.canTransitionTo newer = true
  nodup : states.Nodup

/-- Every move is one that is tried and succeeds. -/
theorem Onward.transitions {states : List LifecycleState} (onward : Onward states) :
    states.IsChain fun newer older => older.tryTransition newer = .ok newer :=
  onward.allowed.imp fun _ _ allowed => LifecycleState.tryTransition_eq_ok_iff.mpr ⟨allowed, rfl⟩

instance (states : List LifecycleState) : Decidable (Onward states) :=
  decidable_of_iff
    (states.IsChain (fun newer older => older.canTransitionTo newer = true) ∧ states.Nodup)
    ⟨fun h => ⟨h.1, h.2⟩, fun h => ⟨h.allowed, h.nodup⟩⟩

/-- The announcements among calls. -/
def announcesOf (calls : List Call) : List Call := calls.filter (·.operation = .announce)

@[simp] theorem announcesOf_append (calls calls' : List Call) :
    announcesOf (calls ++ calls') = announcesOf calls ++ announcesOf calls' :=
  List.filter_append ..

/-- **The life of a controller**: the runs that have returned, the states that have been left, newest
first, and what has become of the controller. -/
inductive Life (config : LifecycleConfig) : List Run → List LifecycleState → Controller → Prop where
  | new : Life config [] [] { config := config }
  | again {runs : List Run} {left : List LifecycleState} {c c' : Controller} {d : Directory}
      {p : Pacer} {session : Announcement} {steps : Nat} {r : Run} (life : Life config runs left c)
      (returned : c.run? d p session steps = some (r, c')) :
      Life config (runs ++ [r]) (((c.start session).run d p steps).past ++ left) c'

/-- **What holds of a controller** that has made some runs and left some states, whatever it is run
with next and however far that run has got. -/
structure LifeRules (runs : List Run) (left : List LifecycleState) (c : Controller) (d : Directory)
    (p : Pacer) (session : Announcement) (steps : Nat) : Prop where
  /-- The states of all runs, and those of the run under way, only move on. -/
  onward : Onward (((c.start session).run d p steps).state ::
    (((c.start session).run d p steps).past ++ left))
  /-- A run that returns leaves the controller in one of the last two states. -/
  ended : ∀ r c', c.run? d p session steps = some (r, c') →
    r.state = c'.state ∧ (c'.state = .terminated ∨ c'.state = .error)
  /-- A run after the first one returns at once with a fault. It does nothing, and changes nothing. -/
  later : runs ≠ [] →
    (c.state = .terminated ∨ c.state = .error) ∧
      c.run? d p session steps =
        some (⟨[], .error (.invalidTransition c.state .announced), c.state⟩, c)
  /-- No more than one listing is ever created. -/
  once : (announcesOf (runs.flatMap Run.calls ++ ((c.start session).run d p steps).calls)).length ≤ 1

variable {config : LifecycleConfig} {session : Announcement} {turns : List Turn} {k : Keeper}
  {d : Directory} {p : Pacer} {steps : Nat} {runs : List Run} {left : List LifecycleState}
  {c c' : Controller} {r : Run}

theorem Controller.finished_of_run? (returned : c.run? d p session steps = some (r, c')) :
    ((c.start session).run d p steps).phase = .finished r.result ∧
      r.log = ((c.start session).run d p steps).log ∧
      r.state = ((c.start session).run d p steps).state ∧
      c' = { c with state := ((c.start session).run d p steps).state } := by
  simp only [Controller.run?, Option.map_eq_some_iff, Prod.mk.injEq] at returned
  obtain ⟨result, ended, rfl, rfl⟩ := returned
  refine ⟨?_, rfl, rfl, rfl⟩
  -- The result is read off the phase.
  unfold Keeper.result? at ended
  split at ended
  next phase => simpa [phase] using ended
  next => simp at ended

/-! ## The first run -/

/-- **The states of a keeper only move on.** -/
theorem History.onward (history : History config session turns k) : Onward (k.state :: k.past) := by
  -- The forms of a history differ in how far the keeper has got and in where it left the way.
  cases history with
  | fresh =>
    show Onward [.unannounced]
    decide
  | refused =>
    show Onward [.error, .unannounced]
    decide
  | waiting | due =>
    show Onward [.refreshing, .announced, .unannounced]
    decide
  | failed | cleaning | cleaned =>
    show Onward [.error, .refreshing, .announced, .unannounced]
    decide
  | leaving =>
    show Onward [.unlisting, .refreshing, .announced, .unannounced]
    decide
  | removed =>
    show Onward [.terminated, .unlisting, .refreshing, .announced, .unannounced]
    decide
  | unremoved =>
    show Onward [.error, .unlisting, .refreshing, .announced, .unannounced]
    decide

/-- A keeper that is over has terminated the listing or is in the error state. -/
theorem History.ended {result : Except LifecycleError Outcome}
    (history : History config session turns k) (phase : k.phase = .finished result) :
    k.state = .terminated ∨ k.state = .error := by
  cases history with
  | fresh | waiting | due | cleaning | leaving => simp at phase
  | refused | failed | cleaned | unremoved => exact .inr rfl
  | removed => exact .inl rfl

theorem History.announces_le_one (history : History config session turns k) :
    (announcesOf k.calls).length ≤ 1 := by
  rw [history.calls_eq]
  cases history with
  | fresh | refused => simp [announcesOf, Call.operation]
  | waiting kept | due kept | failed kept | cleaning kept | cleaned kept | leaving kept
  | removed kept | unremoved kept =>
    simp [kept.callsOf_eq, announcesOf, Call.operation, Credential.heartbeat, Credential.removal]

/-! ## Later runs -/

theorem not_canTransitionTo_announced {state : LifecycleState}
    (ended : state = .terminated ∨ state = .error) : state.canTransitionTo .announced = false := by
  rcases ended with rfl | rfl <;> rfl

/-- The keeper of a controller that has ended is over before its first step. -/
theorem Controller.start_of_ended (ended : c.state = .terminated ∨ c.state = .error)
    (session : Announcement) :
    c.start session = ⟨c.config, c.state, [], [],
      .finished (.error (.invalidTransition c.state .announced))⟩ := by
  simp [Controller.start, Keeper.start, LifecycleState.tryTransition,
    not_canTransitionTo_announced ended]

theorem Keeper.run_of_finished {result : Except LifecycleError Outcome}
    (phase : k.phase = .finished result) (steps : Nat) : k.run d p steps = k := by
  cases steps <;> simp [Keeper.run, phase]

theorem Controller.run_start_of_ended (ended : c.state = .terminated ∨ c.state = .error)
    (session : Announcement) (steps : Nat) :
    (c.start session).run d p steps = ⟨c.config, c.state, [], [],
      .finished (.error (.invalidTransition c.state .announced))⟩ := by
  rw [Controller.start_of_ended ended]
  exact Keeper.run_of_finished rfl steps

/-- **A controller that has ended makes empty runs**: they return with a fault, and leave it as it
is. -/
theorem Controller.run?_of_ended (ended : c.state = .terminated ∨ c.state = .error)
    (d : Directory) (p : Pacer) (session : Announcement) (steps : Nat) :
    c.run? d p session steps =
      some (⟨[], .error (.invalidTransition c.state .announced), c.state⟩, c) := by
  simp only [Controller.run?, Controller.run_start_of_ended ended]
  rfl

/-! ## The whole life -/

/-- What is known of a controller that has been run before. -/
structure Spent (runs : List Run) (left : List LifecycleState) (c : Controller) : Prop where
  ended : c.state = .terminated ∨ c.state = .error
  onward : Onward (c.state :: left)
  once : (announcesOf (runs.flatMap Run.calls)).length ≤ 1

theorem spent_of_first (returned : Controller.run? { config := config } d p session steps =
    some (r, c')) :
    Spent [r] (Keeper.run d p steps (Controller.start { config := config } session)).past c' := by
  obtain ⟨turns, history, -, -⟩ := exists_history_of_start config session d p steps
  obtain ⟨phase, log, -, rfl⟩ := Controller.finished_of_run? returned
  refine ⟨history.ended phase, history.onward, ?_⟩
  have calls : r.calls = (Keeper.run d p steps (Controller.start { config := config } session)).calls :=
    congrArg (List.filterMap LogEntry.call?) log
  simpa [calls] using history.announces_le_one

theorem Spent.again (spent : Spent runs left c)
    (returned : c.run? d p session steps = some (r, c')) :
    Spent (runs ++ [r]) (((c.start session).run d p steps).past ++ left) c' := by
  rw [Controller.run?_of_ended spent.ended] at returned
  obtain ⟨rfl, rfl⟩ := by simpa using returned
  rw [Controller.run_start_of_ended spent.ended]
  refine ⟨spent.ended, spent.onward, ?_⟩
  simpa [Run.calls] using spent.once

/-- **A controller has never been run, or it is spent.** -/
theorem Life.new_or_spent (life : Life config runs left c) :
    (runs = [] ∧ left = [] ∧ c = { config := config }) ∨ Spent runs left c := by
  induction life with
  | new => exact .inl ⟨rfl, rfl, rfl⟩
  | again life returned ih =>
    -- After a run the controller is spent, whether it was the first one or not.
    right
    rcases ih with ⟨rfl, rfl, rfl⟩ | spent
    · rw [List.nil_append, List.append_nil]
      exact spent_of_first returned
    · exact spent.again returned

/-- The states of all runs, and those of the run under way, only move on. -/
theorem Life.onward (life : Life config runs left c) (d : Directory) (p : Pacer)
    (session : Announcement) (steps : Nat) :
    Onward (((c.start session).run d p steps).state ::
      (((c.start session).run d p steps).past ++ left)) := by
  rcases life.new_or_spent with ⟨rfl, rfl, rfl⟩ | spent
  · obtain ⟨turns, history, -, -⟩ := exists_history_of_start config session d p steps
    rw [List.append_nil]
    exact history.onward
  · rw [Controller.run_start_of_ended spent.ended]
    exact spent.onward

/-- **No move of a controller is refused**: each of them is the transition that is tried there. -/
theorem Life.transitions (life : Life config runs left c) (d : Directory) (p : Pacer)
    (session : Announcement) (steps : Nat) :
    (((c.start session).run d p steps).state ::
      (((c.start session).run d p steps).past ++ left)).IsChain
        fun newer older => older.tryTransition newer = .ok newer :=
  (life.onward d p session steps).transitions

/-- **The rules hold throughout the life of a controller**: its states only move on, its first run
ends for good, and it announces no more than once. -/
theorem lifeRules_of_life (life : Life config runs left c) (d : Directory) (p : Pacer)
    (session : Announcement) (steps : Nat) : LifeRules runs left c d p session steps := by
  rcases life.new_or_spent with ⟨rfl, rfl, rfl⟩ | spent
  · -- All that has happened is the first run, as far as it has got.
    obtain ⟨turns, history, -, -⟩ := exists_history_of_start config session d p steps
    constructor
    · exact life.onward d p session steps
    · intro r c' returned
      have spent := spent_of_first returned
      obtain ⟨-, -, state, rfl⟩ := Controller.finished_of_run? returned
      exact ⟨state, spent.ended⟩
    · intro ran
      exact absurd rfl ran
    · simpa using history.announces_le_one
  · -- A spent controller only makes empty runs, so that nothing is added to what it has done.
    have empty := Controller.run?_of_ended spent.ended d p session steps
    have start := Controller.run_start_of_ended (d := d) (p := p) spent.ended session steps
    constructor
    · exact life.onward d p session steps
    · intro r c' returned
      rw [empty] at returned
      obtain ⟨rfl, rfl⟩ := by simpa using returned
      exact ⟨rfl, spent.ended⟩
    · intro _
      exact ⟨spent.ended, empty⟩
    · rw [start]
      simpa [Keeper.calls] using spent.once

/-- After a run with a server that is tired after two refreshes, the rules hold of a run with one
that never is: it is empty. -/
theorem lifeRules_of_tired :
    ∃ r left c, Life {} [r] left c ∧ r.calls.length = 4 ∧
      LifeRules [r] left c (tiringServer 9) (.elapsing 2) (.ofDefaults {} "t") 20 ∧
      c.run? (tiringServer 9) (.elapsing 2) (.ofDefaults {} "t") 20 =
        some (⟨[], .error (.invalidTransition .error .announced), .error⟩, c) := by
  obtain ⟨r, c, returned, calls, state⟩ : ∃ r c, Controller.run? { config := {} } (tiringServer 3)
      (.elapsing 9) (.ofDefaults {} "s") 20 = some (r, c) ∧ r.calls.length = 4 ∧ c.state = .error :=
    ⟨_, _, rfl, rfl, rfl⟩
  have life := Life.again .new returned
  have rules := lifeRules_of_life life (tiringServer 9) (.elapsing 2) (.ofDefaults {} "t") 20
  refine ⟨r, _, c, life, calls, rules, ?_⟩
  rw [(rules.later (by simp)).2, state]

end SessionDirectory
