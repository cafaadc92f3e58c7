import SessionDirectory.Proofs.Lifecycle.Interleaving
import SessionDirectory.Proofs.Lifecycle.Tally

/-!
# What becomes of a run that is cancelled

Another thread may cancel the token of a keeper at any moment: before the run, while a call is in
flight, while the observer is told, while a pause waits, or after a pause has decided that its time
is over. Only in the last case does a refresh still start, and only one, since every pause that
looks at the flag afterwards is cancelled.

A keeper is armed from that decision to the start of the refresh. To start the refresh disarms it,
and while the flag is set nothing arms it again.

## Main definitions

* `Scene.Armed`: a pause has elapsed and the refresh after it has not started
* `Scene.ahead`: how many moves the keeper has at most to make before it is over, if it is cancelled
* `Scene.FirstCancel`: the token of a keeper is cancelled for the first time
* `Scene.AfterCancel`: what holds after that

## Main results

* `Scene.Runs.gap_of_armed`: an armed keeper has started nothing since a pause elapsed
* `Scene.Runs.updates_of_raised`: after the flag is set, only an armed keeper starts a refresh
* `Scene.Runs.length_add_ahead_le`: after the flag is set, the moves of the keeper are bounded
* `Scene.Runs.updates_le_pauses`: every refresh has a pause of its own before it
* `Scene.afterCancel_of_firstCancel`: what follows from all of this, for every interleaving
-/

set_option autoImplicit false

namespace SessionDirectory

/-! ## Spots on the way to the end -/

/-- How many moves a keeper in a phase makes at most from a spot on before it is over, if every
pause that looks at the flag is cancelled. -/
def Spot.ahead (phase : Phase) : Spot → Nat
  | .ready => phase.ahead
  | .calling _ => phase.ahead - 1
  | .reporting => phase.ahead + 1
  -- A pause that is cancelled still has to return, to be reported, and to be followed by a removal.
  | .asleep _ => 7
  | .checking _ => 6
  | .decided _ .cancelled => 5
  -- One that has elapsed is followed by a refresh and another pause before that.
  | .decided _ .elapsed => 12

theorem Spot.ahead_le (phase : Phase) (spot : Spot) : spot.ahead phase ≤ 12 := by
  have le := phase.ahead_le
  unfold ahead
  split <;> omega

theorem Spot.ahead_woken_le (phase : Phase) (spot : Spot) :
    spot.woken.ahead phase ≤ spot.ahead phase := by
  cases spot <;> simp [woken, ahead]

namespace Scene

variable {config : LifecycleConfig} {session : Announcement} {s t : Scene}
  {moves moves' : List Move} {move : Move}

/-! ## An armed keeper -/

/-- **A pause has elapsed and the refresh after it has not started.** -/
inductive Armed (s : Scene) : Prop where
  | decided {length : Duration} (spot : s.spot = .decided length .elapsed)
  | due {credential : Credential} {schedule : RefreshSchedule} {count : UInt32}
      (spot : s.spot = .ready ∨ s.spot = .reporting)
      (phase : s.keeper.phase = .refreshing credential schedule count)

/-- No call is in flight while the keeper is armed. -/
theorem Armed.call?_eq_none (armed : s.Armed) : s.spot.call? = none := by
  rcases armed with spot | ⟨spot | spot, -⟩ <;> rw [spot] <;> rfl

/-- No pause is about to look at the flag while the keeper is armed. -/
theorem Armed.spot_ne_checking (armed : s.Armed) (length : Duration) :
    s.spot ≠ .checking length := by
  rcases armed with spot | ⟨spot | spot, -⟩ <;> rw [spot] <;> simp

/-- To be armed is a matter of the keeper and the spot alone. -/
theorem Armed.congr (armed : t.Armed) (spot : t.spot = s.spot) (keeper : t.keeper = s.keeper) :
    s.Armed := by
  rcases armed with decided | ⟨ready, phase⟩
  · exact .decided (spot ▸ decided)
  · exact .due (spot ▸ ready) (keeper ▸ phase)

/-- **A move arms a keeper only where a pause decides that its time is over**; a keeper that is
armed after another move was armed before, and the move has started nothing. -/
theorem armed_of_step (aligned : Aligned config session moves s) (step : s.Step move t)
    (armed : t.Armed) : move = .decide .elapsed ∨ s.Armed ∧ move.start? = none := by
  have aligned' := aligned.step step
  cases step with
  | elapse => exact .inl rfl
  | start spot | pause spot | notice spot | sleep spot | wake spot =>
    -- None of these moves leads to a spot at which a keeper can be armed.
    obtain h | ⟨h | h, -⟩ := armed <;> simp at h
  | answer spot answer =>
    -- A keeper that is to refresh comes from a pause, and this one comes from a call.
    obtain h | ⟨-, phase⟩ := armed
    · simp at h
    · have last := aligned'.history.getLast?_of_refreshing phase
      simp [Move.turn?] at last
  | told spot =>
    obtain h | ⟨-, phase⟩ := armed
    · simp at h
    · exact .inr ⟨.due (.inr spot) phase, rfl⟩
  | @resume length outcome spot =>
    -- The keeper is to refresh, so the pause that returns has elapsed.
    obtain h | ⟨-, phase⟩ := armed
    · simp at h
    · have last := aligned'.history.getLast?_of_refreshing phase
      obtain ⟨rfl, rfl⟩ : length = _ ∧ outcome = .elapsed := by simpa [Move.turn?] using last
      exact .inr ⟨.decided spot, rfl⟩
  | cancel token =>
    refine .inr ⟨armed.congr ?_ rfl, rfl⟩
    by_cases clone : s.tokens.isClone token = true
    · -- A pause that is woken looks at the flag, so an armed keeper was not woken.
      have awake := armed.spot_ne_checking
      simp only [clone, if_true] at awake ⊢
      exact Spot.woken_eq_self awake
    · simp [clone]
  | clone | create => exact .inr ⟨armed.congr rfl rfl, rfl⟩

/-- **An armed keeper has started nothing since a pause decided that its time was over.** -/
theorem Runs.gap_of_armed (runs : (initial config session).Runs moves s) (armed : s.Armed) :
    ∃ earlier gap, moves = earlier ++ .decide .elapsed :: gap ∧ startsOf gap = [] := by
  induction runs with
  | nil =>
    obtain h | ⟨-, phase⟩ := armed
    · simp [initial] at h
    · simpa using (history_start config session).getLast?_of_refreshing phase
  | @snoc moves move t u runs step ih =>
    rcases armed_of_step runs.aligned step armed with rfl | ⟨before, start⟩
    · -- The gap opens with the decision of the pause.
      exact ⟨moves, [], rfl, rfl⟩
    · obtain ⟨earlier, gap, rfl, none⟩ := ih before
      refine ⟨earlier, gap ++ [move], ?_, ?_⟩
      · rw [List.append_assoc, List.cons_append]
      · simp [none, start]

/-- Only an armed keeper starts a refresh, and it is not armed after that. -/
theorem armed_of_start {call : Call} (step : s.Step (.start call) t)
    (update : call.operation = .update) : s.Armed ∧ ¬ t.Armed := by
  cases step with
  | start spot asked =>
    obtain ⟨credential, schedule, count, phase⟩ := Keeper.refreshing_of_next asked update
    refine ⟨.due (.inl spot) phase, ?_⟩
    intro armed
    simpa [Spot.call?] using armed.call?_eq_none

/-- Where the flag is set, a keeper that is armed after a move was armed before. -/
theorem armed_of_step_of_raised (aligned : Aligned config session moves s)
    (raised : s.raised = true) (step : s.Step move t) (armed : t.Armed) : s.Armed := by
  rcases armed_of_step aligned step armed with rfl | ⟨before, -⟩
  · cases step with
    | elapse _ clear => simp [raised] at clear
  · exact before

/-- **After the flag is set, only a keeper that was armed starts a refresh**, and it starts one. -/
theorem Runs.updates_of_raised (runs : (initial config session).Runs moves s)
    (raised : s.raised = true) (rest : s.Runs moves' t) :
    updatesOf (startsOf moves') = [] ∧ (t.Armed → s.Armed) ∨
      (updatesOf (startsOf moves')).length = 1 ∧ s.Armed ∧ ¬ t.Armed := by
  induction rest with
  | nil => exact .inl ⟨rfl, id⟩
  | @snoc moves' move t u rest step ih =>
    have raised' : t.raised = true := rest.stays_raised runs.flagged.owns raised
    have keeps : u.Armed → t.Armed :=
      armed_of_step_of_raised (runs.append rest).aligned raised' step
    rw [startsOf_append, startsOf_singleton, updatesOf_append]
    by_cases starts : updatesOf move.start?.toList = []
    · rw [starts, List.append_nil]
      rcases ih with ⟨none, before⟩ | ⟨one, before, spent⟩
      · exact .inl ⟨none, fun armed => before (keeps armed)⟩
      · exact .inr ⟨one, before, fun armed => spent (keeps armed)⟩
    · -- The move starts a refresh, so the keeper was armed up to it and is not any more.
      obtain ⟨call, rfl, update⟩ : ∃ call, move = .start call ∧ call.operation = .update := by
        cases move <;> simp [updatesOf, Move.start?] at starts ⊢
        exact starts
      obtain ⟨armed, spent⟩ := armed_of_start step update
      rcases ih with ⟨none, before⟩ | ⟨-, -, spent'⟩
      · refine .inr ⟨?_, before armed, spent⟩
        rw [none, List.nil_append]
        simp [Move.start?, updatesOf, update]
      · exact absurd armed spent'

/-- **Every refresh that starts has a pause of its own that started before it**, and so has the one
for which a keeper is armed. -/
theorem Runs.updates_le_pauses (runs : (initial config session).Runs moves s) :
    (updatesOf (startsOf moves)).length ≤ (pauseStartsOf moves).length ∧
      (s.Armed → (updatesOf (startsOf moves)).length < (pauseStartsOf moves).length) := by
  obtain ⟨history, asked, starts, pauses⟩ := runs.aligned
  obtain ⟨le, lt⟩ := history.updates_le_pauses
  rw [starts, pauses, updatesOf_append, List.length_append, List.length_append]
  refine ⟨?_, fun armed => ?_⟩
  · cases spot : s.spot with
    | calling call =>
      rw [spot] at asked
      by_cases update : call.operation = .update
      · -- The refresh in flight is not completed, but the pause before it is.
        obtain ⟨credential, schedule, count, phase⟩ := Keeper.refreshing_of_next asked update
        have one : (updatesOf [call]).length = 1 := by simp [updatesOf, update]
        change _ + (updatesOf [call]).length ≤ _
        rw [one]
        exact lt credential schedule count phase
      · simpa [Spot.call?, Spot.pause?, updatesOf, update] using le
    | ready | checking | asleep | decided | reporting =>
      simp only [Spot.call?, Option.toList_none, updatesOf, List.filter_nil, List.length_nil]
      exact Nat.le_add_right_of_le le
  · rw [armed.call?_eq_none]
    obtain spot | ⟨-, phase⟩ := armed
    · simpa [spot, Spot.pause?, updatesOf] using Nat.lt_succ_of_le le
    · exact Nat.lt_add_right _ (lt _ _ _ phase)

/-! ## The way to the end -/

/-- How many moves the keeper makes at most before it is over, if its token is cancelled. -/
def ahead (s : Scene) : Nat := s.spot.ahead s.keeper.phase

/-- While the flag is set, a move of the keeper takes it nearer to the end, and a move of another
thread does not take it away from there. -/
theorem ahead_of_step (aligned : Aligned config session moves s) (raised : s.raised = true)
    (step : s.Step move t) : move.isOwn.toNat + t.ahead ≤ s.ahead := by
  have asked := aligned.asked
  unfold ahead
  cases step with
  | start spot next =>
    -- Any answer will do to see that the phase of a call is not the last one.
    have := Keeper.ahead_answered next (.error .client)
    simp only [spot, Spot.ahead, Move.isOwn, Bool.toNat_true]
    omega
  | answer spot answer =>
    rw [spot] at asked
    have := Keeper.ahead_answered asked answer
    simp only [spot, Spot.ahead, Move.isOwn, Bool.toNat_true]
    omega
  | told spot | wake spot | notice spot =>
    simp only [spot, Spot.ahead, Move.isOwn, Bool.toNat_true]
    omega
  | pause spot next =>
    have := (Keeper.ahead_paused next .cancelled).1
    simp only [spot, Spot.ahead, Move.isOwn, Bool.toNat_true]
    omega
  | elapse spot clear | sleep spot clear => simp [raised] at clear
  | @resume length outcome spot =>
    rw [spot] at asked
    have after := (Keeper.ahead_paused asked outcome).2
    cases outcome with
    | elapsed => simp [spot, Spot.ahead, Move.isOwn, after]
    | cancelled => simp [spot, Spot.ahead, Move.isOwn, after]
  | cancel token =>
    dsimp only [Move.isOwn]
    split
    · simpa using s.spot.ahead_woken_le s.keeper.phase
    · simp
  | clone | create => simp [Move.isOwn]

/-- **After the flag is set, the moves of the keeper are bounded**, whatever the others do. -/
theorem Runs.length_add_ahead_le (runs : (initial config session).Runs moves s)
    (raised : s.raised = true) (rest : s.Runs moves' t) :
    (moves'.filter Move.isOwn).length + t.ahead ≤ s.ahead := by
  induction rest with
  | nil => simp
  | @snoc moves' move t u rest step ih =>
    have := ahead_of_step (runs.append rest).aligned
      (rest.stays_raised runs.flagged.owns raised) step
    rw [List.filter_append, List.length_append]
    cases own : move.isOwn <;> simp [own] at this ⊢ <;> omega

/-- The keeper is never stuck before it is over. -/
theorem over_or_exists_step (s : Scene) :
    s.Over ∨ ∃ move t, move.isOwn = true ∧ s.Step move t := by
  cases spot : s.spot with
  | ready =>
    cases next : s.keeper.next with
    | call call => exact .inr ⟨_, _, rfl, .start spot next⟩
    | pause length => exact .inr ⟨_, _, rfl, .pause spot next⟩
    | nothing result => exact .inl ⟨spot, result, Keeper.finished_of_next next⟩
  | calling call => exact .inr ⟨_, _, rfl, .answer spot (.error .client)⟩
  | checking length =>
    cases raised : s.raised with
    | true => exact .inr ⟨_, _, rfl, .notice spot raised⟩
    | false => exact .inr ⟨_, _, rfl, .elapse spot raised⟩
  | asleep length => exact .inr ⟨_, _, rfl, .wake spot⟩
  | decided length outcome => exact .inr ⟨_, _, rfl, .resume spot⟩
  | reporting => exact .inr ⟨_, _, rfl, .told spot⟩

/-- What has been started in a scene that is over has been completed. -/
theorem Over.startsOf_eq (done : s.Over) (aligned : Aligned config session moves s) :
    startsOf moves = callsOf (turnsOf moves) := by
  simp [aligned.starts, done.1, Spot.call?]

/-! ## The first cancellation -/

/-- **The listing is removed**, once and by the moves after a cancellation, and the run has ended
well if and only if the removal was answered with 200 or 204. -/
structure RemovedOnce (credential : Credential) (before after : List Move) (s : Scene) : Prop where
  not_before : unlistsOf (startsOf before) = []
  once : unlistsOf (startsOf after) = [credential.removal]
  ending : ∃ answer result, .call credential.removal answer ∈ turnsOf after ∧
    s.keeper.phase = .finished result ∧
    ((∃ outcome, result = .ok outcome) ↔
      ∃ response, answer = .ok response ∧ (response.status = 200 ∨ response.status = 204))

/-- **What holds after the first cancellation** of a keeper's token, where `token` is a clone of it
that is cancelled after the moves `before`, and the moves `after` lead on to the scene `s`. -/
structure AfterCancel (session : Announcement) (before : List Move) (token : Nat)
    (after : List Move) (s : Scene) : Prop where
  /-- At most one refresh starts. -/
  updates_le_one : (updatesOf (startsOf after)).length ≤ 1
  /-- It starts only if a pause had decided that its time was over and nothing had started since. -/
  gap : updatesOf (startsOf after) ≠ [] →
    ∃ earlier gap, before = earlier ++ .decide .elapsed :: gap ∧ startsOf gap = []
  /-- Without a pause before, there is no refresh in the whole run. -/
  early : pauseStartsOf before = [] → updatesOf (startsOf (before ++ .cancel token :: after)) = []
  /-- The announcement is the first call in any case, or else it is what the keeper is to do. -/
  announces :
    (∃ calls, startsOf (before ++ .cancel token :: after) = .announce session :: calls) ∨
      s.keeper.next = .call (.announce session) ∧ ¬ s.Over
  /-- If the announcement is accepted and no refresh fails, the listing is removed once. -/
  removed : s.Over → ∀ credential response reply,
    .call (.announce session) (.ok response) ∈ turnsOf (before ++ .cancel token :: after) →
    Accepts response reply credential → BeatsOk (turnsOf (before ++ .cancel token :: after)) →
    RemovedOnce credential before after s
  /-- To cancel the token again changes nothing. -/
  again : ∀ other t, s.tokens.isClone other = true → s.Step (.cancel other) t → t = s
  /-- No pause sleeps any more. -/
  awake : ∀ length, s.spot ≠ .asleep length
  /-- The keeper makes a bounded number of moves. -/
  bounded : (after.filter Move.isOwn).length ≤ 12
  /-- It is not stuck before it is over. -/
  unstuck : s.Over ∨ ∃ move t, move.isOwn = true ∧ s.Step move t

/-- Where the flag is set, to cancel a clone of the token changes nothing. -/
theorem eq_of_cancel {token : Nat} (owns : s.tokens.Owns) (raised : s.raised = true)
    (awake : ∀ length, s.spot ≠ .asleep length) (clone : s.tokens.isClone token = true)
    (step : s.Step (.cancel token) t) : t = s := by
  cases step with
  | cancel =>
    have spot : s.spot.woken = s.spot := by
      cases at_s : s.spot with
      | asleep length => exact absurd at_s (awake length)
      | ready | calling | checking | decided | reporting => rfl
    rw [owns.cancel_of_isCancelled raised clone, if_pos clone, spot]

/-- Nothing is removed before the first cancellation, unless a refresh has failed. -/
theorem Runs.unlists_eq_nil (runs : (initial config session).Runs moves s)
    (clear : s.raised = false) (ok : BeatsOk (turnsOf moves)) :
    unlistsOf (startsOf moves) = [] := by
  obtain ⟨history, asked, starts, -⟩ := runs.aligned
  have uncancelled : ∀ length, .pause length .cancelled ∉ turnsOf moves := by
    intro length mem
    simp [runs.flagged.cancelled length mem] at clear
  obtain ⟨done, next⟩ := history.unlists_eq_nil ok uncancelled
  rw [starts, unlistsOf_append, done, List.nil_append]
  cases spot : s.spot with
  | calling call =>
    rw [spot] at asked
    simp [Spot.call?, unlistsOf, next call asked]
  | ready | checking | asleep | decided | reporting => rfl

/-- **A keeper's token is cancelled for the first time**, by way of a clone of it: the moves
`before` lead to a scene `mid` in which its flag is clear, `token` is cancelled there, and the moves
`after` lead on from the scene `mid'`. -/
structure FirstCancel (config : LifecycleConfig) (session : Announcement) (before : List Move)
    (mid : Scene) (token : Nat) (mid' : Scene) (after : List Move) (s : Scene) : Prop where
  runs : (initial config session).Runs before mid
  clear : mid.raised = false
  clone : mid.tokens.isClone token = true
  cancel : mid.Step (.cancel token) mid'
  rest : mid'.Runs after s

namespace FirstCancel

variable {before after : List Move} {mid mid' : Scene} {token : Nat}

theorem reached (first : FirstCancel config session before mid token mid' after s) :
    (initial config session).Runs (before ++ [.cancel token]) mid' :=
  first.runs.snoc first.cancel

theorem whole (first : FirstCancel config session before mid token mid' after s) :
    (initial config session).Runs (before ++ .cancel token :: after) s := by
  simpa using first.reached.append first.rest

theorem raised_mid (first : FirstCancel config session before mid token mid' after s) :
    mid'.raised = true := by
  rw [raised_of_step first.runs.flagged.owns first.cancel, raisedBy, first.clone, Bool.or_true]

theorem raised (first : FirstCancel config session before mid token mid' after s) :
    s.raised = true :=
  first.rest.stays_raised first.reached.flagged.owns first.raised_mid

theorem awake (first : FirstCancel config session before mid token mid' after s)
    (length : Duration) : s.spot ≠ .asleep length := by
  intro spot
  have clear := first.whole.flagged.asleep length spot
  rw [first.raised] at clear
  exact absurd clear (by decide)

/-- After the cancellation no refresh starts, or one does for which the keeper was armed. -/
theorem updates (first : FirstCancel config session before mid token mid' after s) :
    updatesOf (startsOf after) = [] ∨ (updatesOf (startsOf after)).length = 1 ∧ mid.Armed := by
  rcases first.reached.updates_of_raised first.raised_mid first.rest with
    ⟨none, -⟩ | ⟨one, armed, -⟩
  · exact .inl none
  · rcases armed_of_step first.runs.aligned first.cancel armed with other | ⟨before, -⟩
    · simp at other
    · exact .inr ⟨one, before⟩

/-- A keeper that is cancelled before its first pause does not refresh. -/
theorem updates_eq_nil (first : FirstCancel config session before mid token mid' after s)
    (none : pauseStartsOf before = []) :
    updatesOf (startsOf (before ++ .cancel token :: after)) = [] := by
  obtain ⟨le, lt⟩ := first.runs.updates_le_pauses
  rw [none, List.length_nil] at le lt
  have later : updatesOf (startsOf after) = [] :=
    first.updates.resolve_right fun h => Nat.not_lt_zero _ (lt h.2)
  rw [startsOf_append, startsOf_cancel, updatesOf_append, later, List.append_nil]
  exact List.length_eq_zero_iff.mp (Nat.le_zero.mp le)

/-- A keeper that is over has removed its listing, if its announcement was accepted and no refresh
has failed. -/
theorem removedOnce_of_over (first : FirstCancel config session before mid token mid' after s)
    (done : s.Over) {credential : Credential} {response : Response} {reply : AnnounceReply}
    (announced : .call (.announce session) (.ok response) ∈
      turnsOf (before ++ .cancel token :: after))
    (accepts : Accepts response reply credential)
    (ok : BeatsOk (turnsOf (before ++ .cancel token :: after))) :
    RemovedOnce credential before after s := by
  have aligned := first.whole.aligned
  obtain ⟨result, phase⟩ := done.2
  obtain ⟨unlists, answer, mem, good⟩ :=
    aligned.history.removal_of_finished phase announced accepts ok
  rw [← done.startsOf_eq aligned, startsOf_append, startsOf_cancel, unlistsOf_append] at unlists
  rw [turnsOf_append, turnsOf_cancel] at mem ok
  have none : unlistsOf (startsOf before) = [] :=
    first.runs.unlists_eq_nil first.clear fun call answer mem =>
      ok call answer (List.mem_append_left _ mem)
  rw [none, List.nil_append] at unlists
  refine ⟨none, unlists, answer, result, ?_, phase, good⟩
  apply (List.mem_append.mp mem).resolve_left
  intro earlier
  -- A removal that was answered before would have started before.
  have started : credential.removal ∈ startsOf before := by
    rw [first.runs.aligned.starts]
    exact List.mem_append_left _ (List.mem_filterMap.mpr ⟨_, earlier, rfl⟩)
  have listed : credential.removal ∈ unlistsOf (startsOf before) :=
    List.mem_filter.mpr ⟨started, by simp [Credential.removal, Call.operation]⟩
  simp [none] at listed

end FirstCancel

/-- **For every interleaving, the run goes on after the first cancellation as it should.** -/
theorem afterCancel_of_firstCancel {before after : List Move} {mid mid' : Scene} {token : Nat}
    (first : FirstCancel config session before mid token mid' after s) :
    AfterCancel session before token after s where
  updates_le_one := by
    rcases first.updates with none | ⟨one, -⟩
    · simp [none]
    · exact Nat.le_of_eq one
  gap := by
    intro some
    exact first.runs.gap_of_armed (first.updates.resolve_left some).2
  early := first.updates_eq_nil
  announces := by
    rcases first.whole.aligned.history.announces with ⟨calls, announced⟩ | phase
    · rw [first.whole.aligned.starts, announced]
      exact .inl ⟨_, List.cons_append⟩
    · refine .inr ⟨by rw [Keeper.next, phase], ?_⟩
      rintro ⟨-, result, done⟩
      rw [phase] at done
      exact Phase.noConfusion done
  removed := by
    intro done credential response reply announced accepts ok
    exact first.removedOnce_of_over done announced accepts ok
  again := by
    intro other t clone step
    exact eq_of_cancel first.whole.flagged.owns first.raised first.awake clone step
  awake := first.awake
  bounded := by
    have moves := first.reached.length_add_ahead_le first.raised_mid first.rest
    have ahead : mid'.ahead ≤ 12 := mid'.spot.ahead_le mid'.keeper.phase
    omega
  unstuck := s.over_or_exists_step

/-- A token is cancelled by way of its clone after the first pause has decided that its time is
over: the refresh starts, it is the only one, and the run ends with the removal. -/
theorem afterCancel_of_late_cancel :
    ∃ before mid mid' after s,
      FirstCancel {} (.ofDefaults {} "s") before mid 1 mid' after s ∧ s.Over ∧
        updatesOf (startsOf after) ≠ [] ∧ AfterCancel (.ofDefaults {} "s") before 1 after s := by
  have runs : (initial {} (.ofDefaults {} "s")).Runs _ _ :=
    .cons (.clone 0) <| .cons (.start rfl rfl) <|
      .cons (.answer rfl (.ok ⟨200, "\x7b\"id\":17,\"key\":\"secret\"\x7d"⟩)) <|
      .cons (.told rfl) <| .cons (.pause rfl rfl) <| .cons (.elapse rfl rfl) .nil
  have first : FirstCancel {} (.ofDefaults {} "s") _ _ 1 _ _ _ :=
    ⟨runs, rfl, rfl, .cancel 1,
      .cons (.resume rfl) <| .cons (.told rfl) <| .cons (.start rfl rfl) <|
      .cons (.answer rfl (.ok ⟨200, ""⟩)) <| .cons (.told rfl) <| .cons (.pause rfl rfl) <|
      .cons (.notice rfl rfl) <| .cons (.resume rfl) <| .cons (.told rfl) <|
      .cons (.start rfl rfl) <| .cons (.answer rfl (.ok ⟨204, ""⟩)) <| .cons (.told rfl) .nil⟩
  refine ⟨_, _, _, _, _, first, ⟨rfl, _, rfl⟩, List.cons_ne_nil _ _, ?_⟩
  exact afterCancel_of_firstCancel first

end Scene

end SessionDirectory
