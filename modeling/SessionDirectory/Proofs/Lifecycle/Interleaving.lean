import SessionDirectory.Proofs.Lifecycle.Flags
import SessionDirectory.Proofs.Lifecycle.History

/-!
# A keeper among other threads

A keeper runs in one thread and pauses on a cancellation token; other threads hold clones of the
token, make more of them and cancel them. A scene is the keeper, the tokens and the spot at which
the keeper's thread stands, and a scene goes on by a move of either side. Whatever is not decided
by the keeper is left open: the answers of the server, whether the time of a pause has passed when
it looks, when a sleeping pause is woken without need, and what the other threads do in between.

A pause looks at the flag and decides, or goes to sleep, in one move, since it does so under the
lock of the flag. A cancel sets the flag and wakes a pause that sleeps on it.

## Main definitions

* `Spot`, `Scene`, `Move`: the keeper's thread, the whole, and what can happen
* `Scene.Step`, `Scene.Runs`: one move, and several
* `startsOf`, `pauseStartsOf`, `turnsOf`: the calls and pauses that moves start, and the turns that
  they complete

## Main results

* `Scene.Runs.aligned`: the keeper of every scene that is reached has the history of the turns
  completed, and the calls and pauses started are those of the turns and the one under way
* `Scene.Runs.flagged`: the flag stays set, no pause sleeps while it is set, and no pause is
  cancelled before
-/

set_option autoImplicit false

namespace SessionDirectory

/-! ## The first token and its flag -/

namespace CancelFlags

variable {s : CancelFlags}

/-- The first token has the first flag. -/
structure Owns (s : CancelFlags) : Prop where
  token : s.tokens[0]? = some 0
  flag : 0 < s.flags.length

/-- A token is a clone of the first one, or that one itself. -/
def isClone (s : CancelFlags) (token : Nat) : Bool := s.tokens[token]? = some 0

theorem one_owns : one.Owns := ⟨rfl, by decide⟩

theorem Owns.isCancelled_eq (owns : s.Owns) : s.isCancelled 0 = s.flags[0]?.getD false := by
  simp [isCancelled, owns.token]

theorem Owns.create (owns : s.Owns) : s.create.Owns where
  token := getElem?_tokens_create owns.token
  flag := by simp [CancelFlags.create]

theorem Owns.isCancelled_create (owns : s.Owns) :
    s.create.isCancelled 0 = s.isCancelled 0 := by
  rw [owns.create.isCancelled_eq, owns.isCancelled_eq, CancelFlags.create,
    List.getElem?_append_left owns.flag]

theorem Owns.clone (owns : s.Owns) (token : Nat) : (s.clone token).Owns where
  token := getElem?_tokens_clone owns.token token
  flag := by
    rw [flags_clone]
    exact owns.flag

theorem Owns.isCancelled_clone (owns : s.Owns) (token : Nat) :
    (s.clone token).isCancelled 0 = s.isCancelled 0 := by
  rw [(owns.clone token).isCancelled_eq, owns.isCancelled_eq, flags_clone]

theorem Owns.cancel (owns : s.Owns) (token : Nat) : (s.cancel token).Owns := by
  unfold CancelFlags.cancel
  split
  · exact ⟨owns.token, by simpa using owns.flag⟩
  · exact owns

/-- To cancel a clone of the first token sets its flag, and to cancel another token does not. -/
theorem Owns.isCancelled_cancel (owns : s.Owns) (token : Nat) :
    (s.cancel token).isCancelled 0 = (s.isCancelled 0 || s.isClone token) := by
  rw [(owns.cancel token).isCancelled_eq, owns.isCancelled_eq]
  cases at_token : s.tokens[token]? with
  | none => simp [CancelFlags.cancel, isClone, at_token]
  | some place =>
    rcases Nat.eq_zero_or_pos place with rfl | pos
    · simp [CancelFlags.cancel, isClone, at_token, List.getElem?_set_self owns.flag]
    · simp [CancelFlags.cancel, isClone, at_token, List.getElem?_set_ne (Nat.ne_of_gt pos),
        Nat.ne_of_gt pos]

/-- To cancel a clone of a token that is cancelled changes nothing. -/
theorem Owns.cancel_of_isCancelled (owns : s.Owns) (cancelled : s.isCancelled 0 = true)
    {token : Nat} (clone : s.isClone token = true) : s.cancel token = s := by
  obtain ⟨place, at_first, set⟩ := isCancelled_iff.mp cancelled
  obtain rfl := Option.some.inj (owns.token.symm.trans at_first)
  have at_token : s.tokens[token]? = some 0 := by simpa [isClone] using clone
  exact cancel_of_isSet at_token set

end CancelFlags

/-! ## Scenes and moves -/

/-- Where the thread of a keeper stands. -/
inductive Spot where
  /-- About to ask for the next thing. -/
  | ready
  /-- A call is in flight. -/
  | calling (call : Call)
  /-- A pause is about to look at the flag. -/
  | checking (length : Duration)
  /-- A pause sleeps. -/
  | asleep (length : Duration)
  /-- A pause has decided how it ends, and has not returned. -/
  | decided (length : Duration) (outcome : WaitOutcome)
  /-- The keeper has gone on, and its observer has not returned. -/
  | reporting

/-- The spot after all that sleep on the flag are woken. -/
def Spot.woken : Spot → Spot
  | .asleep length => .checking length
  | spot => spot

theorem Spot.woken_ne_asleep (spot : Spot) (length : Duration) : spot.woken ≠ .asleep length := by
  cases spot <;> simp [woken]

/-- Nothing is changed by a waking after which no pause is about to look at the flag. -/
theorem Spot.woken_eq_self {spot : Spot} (h : ∀ length, spot.woken ≠ .checking length) :
    spot.woken = spot := by
  cases spot with
  | asleep length => exact absurd rfl (h length)
  | ready | calling | checking | decided | reporting => rfl

/-- A keeper in its thread, and the tokens that it shares with other threads. The keeper pauses on
the first token. -/
structure Scene where
  keeper : Keeper
  tokens : CancelFlags
  spot : Spot

namespace Scene

/-- A fresh controller that is about to run, with one token that nobody has cancelled. -/
def initial (config : LifecycleConfig) (session : Announcement) : Scene :=
  ⟨Controller.start { config := config } session, .one, .ready⟩

/-- Whether the flag on which the keeper pauses is set. -/
def raised (s : Scene) : Bool := s.tokens.isCancelled 0

/-- Whether the keeper has returned from its run. -/
def Over (s : Scene) : Prop := s.spot = .ready ∧ ∃ result, s.keeper.phase = .finished result

end Scene

/-- What can happen in a scene. -/
inductive Move where
  /-- The keeper starts a call. -/
  | start (call : Call)
  /-- The call is answered and the keeper goes on. -/
  | answer (call : Call) (answer : Answer)
  /-- The observer has been told and returns. -/
  | told
  /-- The keeper starts a pause. -/
  | pause (length : Duration)
  /-- The pause looks at the flag and the clock, and decides how it ends. -/
  | decide (outcome : WaitOutcome)
  /-- The pause looks at the flag and the clock, and goes to sleep. -/
  | sleep
  /-- The pause wakes up because its time has passed, or without need. -/
  | wake
  /-- The pause returns and the keeper goes on. -/
  | resume (length : Duration) (outcome : WaitOutcome)
  /-- Another thread, or the observer, cancels a token. -/
  | cancel (token : Nat)
  /-- Another thread makes a clone of a token. -/
  | clone (token : Nat)
  /-- Another thread makes a token of its own. -/
  | create

/-- Whether a move is one of the keeper's thread. -/
def Move.isOwn : Move → Bool
  | .cancel _ | .clone _ | .create => false
  | _ => true

namespace Scene

/-- Whether a move cancels the token on which the keeper pauses, or a clone of it. -/
def raisedBy (s : Scene) : Move → Bool
  | .cancel token => s.tokens.isClone token
  | _ => false

/-- **One move of a scene.** -/
inductive Step (s : Scene) : Move → Scene → Prop where
  -- The thread of the keeper.
  | start {call : Call} (spot : s.spot = .ready) (asked : s.keeper.next = .call call) :
      Step s (.start call) { s with spot := .calling call }
  | answer {call : Call} (spot : s.spot = .calling call) (answer : Answer) :
      Step s (.answer call answer)
        { s with keeper := s.keeper.answered call answer, spot := .reporting }
  | told (spot : s.spot = .reporting) : Step s .told { s with spot := .ready }
  | pause {length : Duration} (spot : s.spot = .ready) (asked : s.keeper.next = .pause length) :
      Step s (.pause length) { s with spot := .checking length }
  | elapse {length : Duration} (spot : s.spot = .checking length) (clear : s.raised = false) :
      Step s (.decide .elapsed) { s with spot := .decided length .elapsed }
  | notice {length : Duration} (spot : s.spot = .checking length) (raised : s.raised = true) :
      Step s (.decide .cancelled) { s with spot := .decided length .cancelled }
  | sleep {length : Duration} (spot : s.spot = .checking length) (clear : s.raised = false) :
      Step s .sleep { s with spot := .asleep length }
  | wake {length : Duration} (spot : s.spot = .asleep length) :
      Step s .wake { s with spot := .checking length }
  | resume {length : Duration} {outcome : WaitOutcome} (spot : s.spot = .decided length outcome) :
      Step s (.resume length outcome)
        { s with keeper := s.keeper.paused length outcome, spot := .reporting }
  -- Any other thread, and the observer, at any spot of the keeper's thread.
  | cancel (token : Nat) :
      Step s (.cancel token)
        { s with
          tokens := s.tokens.cancel token
          spot := if s.tokens.isClone token then s.spot.woken else s.spot }
  | clone (token : Nat) : Step s (.clone token) { s with tokens := s.tokens.clone token }
  | create : Step s .create { s with tokens := s.tokens.create }

/-- A pause decides as the state of its token says at that moment. -/
theorem eq_pause_of_decide {s t : Scene} {outcome : WaitOutcome}
    (step : s.Step (.decide outcome) t) : outcome = s.tokens.pause 0 := by
  cases step with
  | elapse _ clear =>
    rw [raised] at clear
    simp [CancelFlags.pause, clear]
  | notice _ set =>
    rw [raised] at set
    simp [CancelFlags.pause, set]

/-- Several moves of a scene. -/
inductive Runs (s : Scene) : List Move → Scene → Prop where
  | nil : Runs s [] s
  | snoc {moves : List Move} {move : Move} {t u : Scene} (runs : Runs s moves t)
      (step : t.Step move u) : Runs s (moves ++ [move]) u

variable {s t u : Scene} {moves moves' : List Move} {move : Move}

theorem Runs.append (runs : s.Runs moves t) (runs' : t.Runs moves' u) :
    s.Runs (moves ++ moves') u := by
  induction runs' with
  | nil => simpa using runs
  | snoc _ step ih =>
    rw [← List.append_assoc]
    exact ih.snoc step

theorem Runs.cons (step : s.Step move t) (runs : t.Runs moves u) : s.Runs (move :: moves) u :=
  (Runs.nil.snoc step).append runs

/-- What every move keeps, several moves keep. -/
theorem Runs.keeps {P : Scene → Prop} (keeps : ∀ {s t move}, s.Step move t → P s → P t)
    (runs : s.Runs moves t) (start : P s) : P t := by
  induction runs with
  | nil => exact start
  | snoc _ step ih => exact keeps step ih

end Scene

/-! ## What moves start and complete -/

/-- The call that a move starts. -/
def Move.start? : Move → Option Call
  | .start call => some call
  | _ => none

/-- The pause that a move starts. -/
def Move.pause? : Move → Option Duration
  | .pause length => some length
  | _ => none

/-- The turn of the keeper that a move completes. -/
def Move.turn? : Move → Option Turn
  | .answer c a => some (.call c a)
  | .resume length outcome => some (.pause length outcome)
  | _ => none

/-- The calls that moves start, in order. -/
def startsOf (moves : List Move) : List Call := moves.filterMap Move.start?

/-- The pauses that moves start, in order. -/
def pauseStartsOf (moves : List Move) : List Duration := moves.filterMap Move.pause?

/-- The turns of the keeper that moves complete, in order. -/
def turnsOf (moves : List Move) : List Turn := moves.filterMap Move.turn?

section Moves

variable (moves moves' : List Move) (move : Move)

@[simp] theorem startsOf_append : startsOf (moves ++ moves') = startsOf moves ++ startsOf moves' :=
  List.filterMap_append

@[simp] theorem startsOf_singleton : startsOf [move] = move.start?.toList := by
  cases h : move.start? <;> simp [startsOf, h]

@[simp] theorem startsOf_cancel (token : Nat) :
    startsOf (.cancel token :: moves) = startsOf moves := rfl

@[simp] theorem pauseStartsOf_append :
    pauseStartsOf (moves ++ moves') = pauseStartsOf moves ++ pauseStartsOf moves' :=
  List.filterMap_append

@[simp] theorem pauseStartsOf_singleton : pauseStartsOf [move] = move.pause?.toList := by
  cases h : move.pause? <;> simp [pauseStartsOf, h]

@[simp] theorem turnsOf_append : turnsOf (moves ++ moves') = turnsOf moves ++ turnsOf moves' :=
  List.filterMap_append

@[simp] theorem turnsOf_cancel (token : Nat) : turnsOf (.cancel token :: moves) = turnsOf moves :=
  rfl

@[simp] theorem turnsOf_singleton : turnsOf [move] = move.turn?.toList := by
  cases h : move.turn? <;> simp [turnsOf, h]

end Moves

/-- The call in flight. -/
def Spot.call? : Spot → Option Call
  | .calling call => some call
  | _ => none

/-- The pause that has not returned. -/
def Spot.pause? : Spot → Option Duration
  | .checking length | .asleep length | .decided length _ => some length
  | _ => none

theorem Spot.call?_woken (spot : Spot) : spot.woken.call? = spot.call? := by
  cases spot <;> rfl

theorem Spot.pause?_woken (spot : Spot) : spot.woken.pause? = spot.pause? := by
  cases spot <;> rfl

/-- The keeper has asked for what is under way. -/
def Spot.AskedBy (k : Keeper) : Spot → Prop
  | .calling call => k.next = .call call
  | .checking length | .asleep length | .decided length _ => k.next = .pause length
  | .ready | .reporting => True

theorem Spot.askedBy_woken {k : Keeper} {spot : Spot} (asked : spot.AskedBy k) :
    spot.woken.AskedBy k := by
  cases spot <;> exact asked

/-! ## Invariants -/

namespace Scene

variable {config : LifecycleConfig} {session : Announcement} {s t : Scene} {moves : List Move}
  {move : Move}

/-- **The keeper's side of a scene**: its history is that of the turns completed, and what has been
started is what was completed and what is under way. -/
structure Aligned (config : LifecycleConfig) (session : Announcement) (moves : List Move)
    (s : Scene) : Prop where
  history : History config session (turnsOf moves) s.keeper
  asked : s.spot.AskedBy s.keeper
  starts : startsOf moves = callsOf (turnsOf moves) ++ s.spot.call?.toList
  pauses : pauseStartsOf moves = pausesOf (turnsOf moves) ++ s.spot.pause?.toList

/-- A move keeps the keeper's side aligned. -/
theorem Aligned.step (aligned : Aligned config session moves s) (step : s.Step move t) :
    Aligned config session (moves ++ [move]) t := by
  obtain ⟨history, asked, starts, pauses⟩ := aligned
  -- Only an answer and the end of a pause complete a turn; what was under way is completed then.
  cases step with
  | @start call spot next =>
    refine ⟨by simpa [Move.turn?] using history, next, ?_, ?_⟩
    · simp [starts, spot, Move.start?, Move.turn?, Spot.call?]
    · simp [pauses, spot, Move.pause?, Move.turn?, Spot.pause?]
  | @answer call spot a =>
    rw [spot] at asked starts pauses
    refine ⟨by simpa [Move.turn?] using history.answered asked a, trivial, ?_, ?_⟩
    · simp [starts, Move.start?, Move.turn?, Spot.call?]
    · simp [pauses, Move.pause?, Move.turn?, Spot.pause?]
  | told spot | sleep spot | wake spot | elapse spot | notice spot =>
    rw [spot] at asked starts pauses
    refine ⟨by simpa [Move.turn?] using history, asked, ?_, ?_⟩
    · simp [starts, Move.start?, Move.turn?, Spot.call?]
    · simp [pauses, Move.pause?, Move.turn?, Spot.pause?]
  | @pause length spot next =>
    refine ⟨by simpa [Move.turn?] using history, next, ?_, ?_⟩
    · simp [starts, spot, Move.start?, Move.turn?, Spot.call?]
    · simp [pauses, spot, Move.pause?, Move.turn?, Spot.pause?]
  | @resume length outcome spot =>
    rw [spot] at asked starts pauses
    refine ⟨by simpa [Move.turn?] using history.paused asked outcome, trivial, ?_, ?_⟩
    · simp [starts, Move.start?, Move.turn?, Spot.call?]
    · simp [pauses, Move.pause?, Move.turn?, Spot.pause?]
  | cancel token =>
    -- A pause that is woken is still under way.
    refine ⟨by simpa [Move.turn?] using history, ?_, ?_, ?_⟩
    · dsimp only
      split
      · exact Spot.askedBy_woken asked
      · exact asked
    · simp only [startsOf_append, starts, turnsOf_append]
      split <;> simp [Spot.call?_woken, Move.start?, Move.turn?]
    · simp only [pauseStartsOf_append, pauses, turnsOf_append]
      split <;> simp [Spot.pause?_woken, Move.pause?, Move.turn?]
  | clone | create =>
    refine ⟨by simpa [Move.turn?] using history, asked, ?_, ?_⟩
    · simp [starts, Move.start?, Move.turn?]
    · simp [pauses, Move.pause?, Move.turn?]

/-- **The keeper's side of every scene that is reached is aligned.** -/
theorem Runs.aligned (runs : (initial config session).Runs moves s) :
    Aligned config session moves s := by
  induction runs with
  | nil => exact ⟨history_start config session, trivial, rfl, rfl⟩
  | snoc _ step ih => exact ih.step step

/-- **The flag's side of a scene**: no pause sleeps while the flag is set, and no pause is cancelled
while it is clear. -/
structure Flagged (moves : List Move) (s : Scene) : Prop where
  owns : s.tokens.Owns
  asleep : ∀ length, s.spot = .asleep length → s.raised = false
  decided : ∀ length, s.spot = .decided length .cancelled → s.raised = true
  cancelled : ∀ length, .pause length .cancelled ∈ turnsOf moves → s.raised = true

/-- Every move leaves the keeper its token. -/
theorem owns_of_step (owns : s.tokens.Owns) (step : s.Step move t) : t.tokens.Owns := by
  cases step with
  | start | answer | told | pause | elapse | notice | sleep | wake | resume => exact owns
  | cancel token => exact owns.cancel token
  | clone token => exact owns.clone token
  | create => exact owns.create

/-- Only to cancel a clone of the keeper's token sets the flag, and nothing clears it. -/
theorem raised_of_step (owns : s.tokens.Owns) (step : s.Step move t) :
    t.raised = (s.raised || s.raisedBy move) := by
  cases step with
  | start | answer | told | pause | elapse | notice | sleep | wake | resume =>
    exact (Bool.or_false _).symm
  | cancel token => exact owns.isCancelled_cancel token
  | clone token => exact (owns.isCancelled_clone token).trans (Bool.or_false _).symm
  | create => exact owns.isCancelled_create.trans (Bool.or_false _).symm

/-- The flag stays set. -/
theorem stays_raised_of_step (owns : s.tokens.Owns) (step : s.Step move t)
    (raised : s.raised = true) : t.raised = true := by
  rw [raised_of_step owns step, raised, Bool.true_or]

theorem Runs.stays_raised (owns : s.tokens.Owns) (runs : s.Runs moves t)
    (raised : s.raised = true) : t.raised = true := by
  have both : t.tokens.Owns ∧ t.raised = true := by
    refine runs.keeps (P := fun s => s.tokens.Owns ∧ s.raised = true) ?_ ⟨owns, raised⟩
    intro s t move step ⟨owns, raised⟩
    exact ⟨owns_of_step owns step, stays_raised_of_step owns step raised⟩
  exact both.2

/-- A move keeps the flag's side as it should be. -/
theorem Flagged.step (flagged : Flagged moves s) (step : s.Step move t) :
    Flagged (moves ++ [move]) t := by
  obtain ⟨owns, asleep, decided, cancelled⟩ := flagged
  have stays := stays_raised_of_step owns step
  have owns' := owns_of_step owns step
  -- What was cancelled before was so with the flag set, and the flag is set still.
  have earlier : ∀ length, move.turn? ≠ some (.pause length .cancelled) →
      .pause length .cancelled ∈ turnsOf (moves ++ [move]) → t.raised = true := by
    intro length other mem
    rw [turnsOf_append, turnsOf_singleton, List.mem_append] at mem
    rcases mem with mem | mem
    · exact stays (cancelled length mem)
    · exact absurd (Option.mem_toList.mp mem) other
  cases step with
  | start | answer | told | pause | wake | elapse =>
    exact ⟨owns', by simp, by simp, fun length => earlier length (by simp [Move.turn?])⟩
  | notice spot raised => exact ⟨owns', by simp, fun _ _ => raised, fun _ _ => raised⟩
  | sleep spot clear =>
    -- The flag is looked at and the pause goes to sleep in one move, so no cancel comes in between.
    exact ⟨owns', fun _ _ => clear, by simp, fun length => earlier length (by simp [Move.turn?])⟩
  | @resume length outcome spot =>
    refine ⟨owns', by simp, by simp, ?_⟩
    intro length'
    by_cases same : outcome = .cancelled ∧ length = length'
    · -- The pause that returns has decided to be cancelled, so the flag was set then.
      obtain ⟨rfl, rfl⟩ := same
      exact fun _ => stays (decided length spot)
    · apply earlier length'
      intro returned
      simp only [Move.turn?, Option.some.injEq, Turn.pause.injEq] at returned
      exact same returned.symm
  | cancel token =>
    refine ⟨owns', ?_, ?_, fun length => earlier length (by simp [Move.turn?])⟩
    · -- A clone of the token wakes all that sleep, and another token leaves the flag alone.
      intro length spot
      by_cases clone : s.tokens.isClone token = true
      · rw [if_pos clone] at spot
        exact absurd spot (s.spot.woken_ne_asleep length)
      · rw [if_neg clone] at spot
        rw [raised_of_step owns (.cancel token), asleep length spot, Bool.false_or]
        simpa [raisedBy] using clone
    · intro length spot
      apply stays
      dsimp only at spot
      split at spot
      · rw [Spot.woken_eq_self (by simp [spot])] at spot
        exact decided length spot
      · exact decided length spot
  | clone token =>
    refine ⟨owns', ?_, fun length spot => stays (decided length spot),
      fun length => earlier length (by simp [Move.turn?])⟩
    intro length spot
    simp [raised_of_step owns (.clone token), asleep length spot, raisedBy]
  | create =>
    refine ⟨owns', ?_, fun length spot => stays (decided length spot),
      fun length => earlier length (by simp [Move.turn?])⟩
    intro length spot
    simp [raised_of_step owns .create, asleep length spot, raisedBy]

/-- **The flag's side of every scene that is reached is as it should be.** -/
theorem Runs.flagged (runs : (initial config session).Runs moves s) : Flagged moves s := by
  induction runs with
  | nil => exact ⟨CancelFlags.one_owns, by simp [initial], by simp [initial], by simp [turnsOf]⟩
  | snoc _ step ih => exact ih.step step

end Scene

end SessionDirectory
