import SessionDirectory.Proofs.Lifecycle.Reply

/-!
# The history of a keeper

A turn is one exchange of a keeper with the world: a call and its answer, or a pause and its
outcome. The turns that a keeper has taken determine it, and they can only be of a few forms: an
announcement, refreshes that went well, and one of five endings. `History` lists the forms, with
the keeper that each of them leaves behind.

Nothing is assumed about the server and the pacer, so the history is the same for a run with a
given server and for a keeper in one thread among others.

## Main definitions

* `Turn`, `callsOf`, `pausesOf`: exchanges, and the calls and the pauses among them
* `Kept`: an accepted announcement and a number of refreshes that went well
* `History`: the turns of a keeper and what it has become
* `Follows d p turns`: the answers and outcomes are those of a server and a pacer

## Main results

* `History.answered`, `History.paused`: every turn extends the history
* `exists_history_run`: a run with a server and a pacer has a history that follows them
* `exists_history_of_start`: so does the run of a new controller, however far it has got
* `exists_history_of_returned`: so does a run that has returned
-/

set_option autoImplicit false

namespace SessionDirectory

/-- One exchange of a keeper with the world. -/
inductive Turn where
  | call (call : Call) (answer : Answer)
  | pause (length : Duration) (outcome : WaitOutcome)

/-- The call of a turn. -/
def Turn.call? : Turn → Option Call
  | .call c _ => some c
  | .pause _ _ => none

/-- The pause of a turn. -/
def Turn.pause? : Turn → Option Duration
  | .call _ _ => none
  | .pause length _ => some length

/-- The calls of turns, in order. -/
def callsOf (turns : List Turn) : List Call := turns.filterMap Turn.call?

/-- The pauses of turns, in order. -/
def pausesOf (turns : List Turn) : List Duration := turns.filterMap Turn.pause?

section Turns

variable (turns turns' : List Turn) (call : Call) (answer : Answer) (length : Duration)
  (outcome : WaitOutcome)

@[simp] theorem callsOf_nil : callsOf [] = [] := rfl

@[simp] theorem callsOf_append : callsOf (turns ++ turns') = callsOf turns ++ callsOf turns' :=
  List.filterMap_append

@[simp] theorem callsOf_call : callsOf (.call call answer :: turns) = call :: callsOf turns := rfl

@[simp] theorem callsOf_pause : callsOf (.pause length outcome :: turns) = callsOf turns := rfl

@[simp] theorem pausesOf_nil : pausesOf [] = [] := rfl

@[simp] theorem pausesOf_append : pausesOf (turns ++ turns') = pausesOf turns ++ pausesOf turns' :=
  List.filterMap_append

@[simp] theorem pausesOf_call : pausesOf (.call call answer :: turns) = pausesOf turns := rfl

@[simp] theorem pausesOf_pause :
    pausesOf (.pause length outcome :: turns) = length :: pausesOf turns := rfl

end Turns

/-! ## The forms of a history -/

section Forms

variable (config : LifecycleConfig) (session : Announcement)

/-- **The turns while a listing is kept**, with the log of them: an accepted announcement and a
number of refreshes that went well, each after a pause that elapsed. -/
inductive Kept (credential : Credential) (schedule : RefreshSchedule) :
    Nat → List Turn → List LogEntry → Prop where
  | accepted {response : Response} {reply : AnnounceReply}
      (accepts : Accepts response reply credential)
      (of_lease : schedule = .ofLease (reply.lease config.defaultLeaseMinutes) config) :
      Kept credential schedule 0 [.call (.announce session) (.ok response)]
        [.call (.announce session),
          .event (.announced credential (reply.lease config.defaultLeaseMinutes)
            schedule.periodMinutes)]
  | beat {n : Nat} {turns : List Turn} {log : List LogEntry} {response : Response}
      (kept : Kept credential schedule n turns log) (status : response.status ∈ refreshStatuses) :
      Kept credential schedule (n + 1)
        (turns ++ [.pause schedule.wait .elapsed, .call credential.heartbeat (.ok response)])
        (log ++ [.pause schedule.wait, .call credential.heartbeat,
          .event (.refreshed (.ofNat (n + 1)) (RefreshReply.messageOf response.body))])

/-- **The turns of a keeper and what it has become.** -/
inductive History : List Turn → Keeper → Prop where
  -- No listing has been created.
  | fresh : History [] ⟨config, .unannounced, [], [], .announcing session⟩
  | refused {answer : Answer} {fault : LifecycleError} (refusal : Refusal answer fault) :
      History [.call (.announce session) answer]
        ⟨config, .error, [.unannounced], [.call (.announce session)], .finished (.error fault)⟩
  -- The listing is kept.
  | waiting {credential : Credential} {schedule : RefreshSchedule} {n : Nat} {turns : List Turn}
      {log : List LogEntry} (kept : Kept config session credential schedule n turns log) :
      History turns
        ⟨config, .refreshing, [.announced, .unannounced], log,
          .waiting credential schedule (.ofNat n)⟩
  | due {credential : Credential} {schedule : RefreshSchedule} {n : Nat} {turns : List Turn}
      {log : List LogEntry} (kept : Kept config session credential schedule n turns log) :
      History (turns ++ [.pause schedule.wait .elapsed])
        ⟨config, .refreshing, [.announced, .unannounced], log ++ [.pause schedule.wait],
          .refreshing credential schedule (.ofNat n)⟩
  -- A refresh was at fault, and the listing is left to itself or removed.
  | failed {credential : Credential} {schedule : RefreshSchedule} {n : Nat} {turns : List Turn}
      {log : List LogEntry} {answer : Answer} {fault : LifecycleError}
      (kept : Kept config session credential schedule n turns log)
      (faulty : Faulty .refreshing refreshStatuses answer fault)
      (policy : config.unlistOnRefreshFailure = false) :
      History (turns ++ [.pause schedule.wait .elapsed, .call credential.heartbeat answer])
        ⟨config, .error, [.refreshing, .announced, .unannounced],
          log ++ [.pause schedule.wait, .call credential.heartbeat], .finished (.error fault)⟩
  | cleaning {credential : Credential} {schedule : RefreshSchedule} {n : Nat} {turns : List Turn}
      {log : List LogEntry} {answer : Answer} {fault : LifecycleError}
      (kept : Kept config session credential schedule n turns log)
      (faulty : Faulty .refreshing refreshStatuses answer fault)
      (policy : config.unlistOnRefreshFailure = true) :
      History (turns ++ [.pause schedule.wait .elapsed, .call credential.heartbeat answer])
        ⟨config, .error, [.refreshing, .announced, .unannounced],
          log ++ [.pause schedule.wait, .call credential.heartbeat], .cleaning credential fault⟩
  | cleaned {credential : Credential} {schedule : RefreshSchedule} {n : Nat} {turns : List Turn}
      {log : List LogEntry} {answer : Answer} {fault : LifecycleError}
      (kept : Kept config session credential schedule n turns log)
      (faulty : Faulty .refreshing refreshStatuses answer fault)
      (policy : config.unlistOnRefreshFailure = true) (removal : Answer) :
      History (turns ++ [.pause schedule.wait .elapsed, .call credential.heartbeat answer,
          .call credential.removal removal])
        ⟨config, .error, [.refreshing, .announced, .unannounced],
          log ++ [.pause schedule.wait, .call credential.heartbeat, .call credential.removal,
            .event (.cleanupUnlist (Keeper.statusOf removal))], .finished (.error fault)⟩
  -- A pause was cancelled, and the listing is removed.
  | leaving {credential : Credential} {schedule : RefreshSchedule} {n : Nat} {turns : List Turn}
      {log : List LogEntry} (kept : Kept config session credential schedule n turns log) :
      History (turns ++ [.pause schedule.wait .cancelled])
        ⟨config, .unlisting, [.refreshing, .announced, .unannounced],
          log ++ [.pause schedule.wait, .event .cancelled], .unlisting credential (.ofNat n)⟩
  | removed {credential : Credential} {schedule : RefreshSchedule} {n : Nat} {turns : List Turn}
      {log : List LogEntry} {response : Response}
      (kept : Kept config session credential schedule n turns log)
      (status : response.status ∈ removalStatuses) :
      History (turns ++ [.pause schedule.wait .cancelled,
          .call credential.removal (.ok response)])
        ⟨config, .terminated, [.unlisting, .refreshing, .announced, .unannounced],
          log ++ [.pause schedule.wait, .event .cancelled, .call credential.removal,
            .event (.unlisted response.status)],
          .finished (.ok ⟨credential, .ofNat n, response.status, .terminated⟩)⟩
  | unremoved {credential : Credential} {schedule : RefreshSchedule} {n : Nat} {turns : List Turn}
      {log : List LogEntry} {answer : Answer} {fault : LifecycleError}
      (kept : Kept config session credential schedule n turns log)
      (faulty : Faulty .unlisting removalStatuses answer fault) :
      History (turns ++ [.pause schedule.wait .cancelled, .call credential.removal answer])
        ⟨config, .error, [.unlisting, .refreshing, .announced, .unannounced],
          log ++ [.pause schedule.wait, .event .cancelled, .call credential.removal],
          .finished (.error fault)⟩

end Forms

variable {config : LifecycleConfig} {session : Announcement} {credential : Credential}
  {schedule : RefreshSchedule} {n : Nat} {turns : List Turn} {log : List LogEntry} {k : Keeper}

/-! ## Calls and pauses of a history -/

/-- While a listing is kept, the calls are the announcement and the refreshes. -/
theorem Kept.callsOf_eq (kept : Kept config session credential schedule n turns log) :
    callsOf turns = .announce session :: List.replicate n credential.heartbeat := by
  induction kept with
  | accepted => rfl
  | beat _ _ ih => simp [ih, List.replicate_succ']

/-- While a listing is kept, there is a pause for each refresh. -/
theorem Kept.pausesOf_eq (kept : Kept config session credential schedule n turns log) :
    pausesOf turns = List.replicate n schedule.wait := by
  induction kept with
  | accepted => rfl
  | beat _ _ ih => simp [ih, List.replicate_succ']

theorem Kept.log_eq (kept : Kept config session credential schedule n turns log) :
    log.filterMap LogEntry.call? = callsOf turns ∧
      log.filterMap LogEntry.pause? = pausesOf turns := by
  induction kept with
  | accepted => simp [List.filterMap_cons, LogEntry.call?, LogEntry.pause?]
  | beat _ _ ih => simp [List.filterMap_cons, ih, LogEntry.call?, LogEntry.pause?]

/-- The calls in the log are those of the turns. -/
theorem History.calls_eq (history : History config session turns k) : k.calls = callsOf turns := by
  cases history with
  | fresh | refused => rfl
  | waiting kept | due kept | failed kept | cleaning kept | cleaned kept | leaving kept
  | removed kept | unremoved kept =>
    simp [Keeper.calls, List.filterMap_cons, kept.log_eq.1, LogEntry.call?]

/-- The pauses in the log are those of the turns. -/
theorem History.pauses_eq (history : History config session turns k) :
    k.pauses = pausesOf turns := by
  cases history with
  | fresh | refused => rfl
  | waiting kept | due kept | failed kept | cleaning kept | cleaned kept | leaving kept
  | removed kept | unremoved kept =>
    simp [Keeper.pauses, List.filterMap_cons, kept.log_eq.2, LogEntry.pause?]

/-! ## Every turn extends the history -/

/-- The keeper of a fresh controller has no history. -/
theorem history_start (config : LifecycleConfig) (session : Announcement) :
    History config session [] (Controller.start { config := config } session) :=
  .fresh

/-- An answer to the call that was asked for extends the history. -/
theorem History.answered {call : Call} (history : History config session turns k)
    (asked : k.next = .call call) (answer : Answer) :
    History config session (turns ++ [.call call answer]) (k.answered call answer) := by
  -- A call is asked for in four of the forms, and the answer decides which form comes next.
  cases history with
  | fresh =>
    obtain rfl : Call.announce session = call := by simpa [Keeper.next] using asked
    rcases accepts_or_refusal answer with
      ⟨response, reply, credential, rfl, accepts⟩ | ⟨fault, refusal⟩
    · rw [Keeper.answered_announcing_of_accepts rfl accepts]
      exact .waiting (.accepted accepts rfl)
    · rw [Keeper.answered_announcing_of_refusal rfl rfl refusal]
      exact .refused refusal
  | @due credential schedule n turns log kept =>
    obtain rfl : credential.heartbeat = call := by
      simpa [Keeper.next, Credential.heartbeat] using asked
    rcases status_or_faulty .refreshing refreshStatuses answer with
      ⟨response, rfl, status⟩ | ⟨fault, faulty⟩
    · rw [Keeper.answered_refreshing_of_status rfl status]
      simpa using History.waiting (kept.beat status)
    · -- What happens after a refresh at fault is a matter of the policy.
      rw [Keeper.answered_refreshing_of_faulty rfl faulty]
      by_cases policy : config.unlistOnRefreshFailure = true
      · simpa [policy] using History.cleaning kept faulty policy
      · rw [Bool.not_eq_true] at policy
        simpa [policy] using History.failed kept faulty policy
  | @leaving credential schedule n turns log kept =>
    obtain rfl : credential.removal = call := by
      simpa [Keeper.next, Credential.removal] using asked
    rcases status_or_faulty .unlisting removalStatuses answer with
      ⟨response, rfl, status⟩ | ⟨fault, faulty⟩
    · rw [Keeper.answered_unlisting_of_status rfl status]
      simpa using History.removed kept status
    · rw [Keeper.answered_unlisting_of_faulty rfl faulty]
      simpa using History.unremoved kept faulty
  | @cleaning credential schedule n turns log first fault kept faulty policy =>
    obtain rfl : credential.removal = call := by
      simpa [Keeper.next, Credential.removal] using asked
    rw [Keeper.answered_cleaning rfl]
    simpa using History.cleaned kept faulty policy answer
  | waiting | refused | failed | cleaned | removed | unremoved => simp [Keeper.next] at asked

/-- The outcome of the pause that was asked for extends the history. -/
theorem History.paused {length : Duration} (history : History config session turns k)
    (asked : k.next = .pause length) (outcome : WaitOutcome) :
    History config session (turns ++ [.pause length outcome]) (k.paused length outcome) := by
  cases history with
  | @waiting credential schedule n turns log kept =>
    obtain rfl : schedule.wait = length := by simpa [Keeper.next] using asked
    cases outcome with
    | elapsed => exact .due kept
    | cancelled =>
      simpa [Keeper.paused, Keeper.note, Keeper.report, Keeper.moveTo, Keeper.enter]
        using History.leaving kept
  | fresh | refused | due | failed | cleaning | cleaned | leaving | removed | unremoved =>
    simp [Keeper.next] at asked

/-! ## Runs with a server and a pacer -/

/-- The answers and outcomes of turns, after some that are past, are those of a server and a
pacer. -/
def FollowsAfter (d : Directory) (p : Pacer) : List Turn → List Turn → Prop
  | _, [] => True
  | past, .call call answer :: turns =>
    answer = d (callsOf past) call ∧ FollowsAfter d p (past ++ [.call call answer]) turns
  | past, .pause length outcome :: turns =>
    outcome = p (pausesOf past).length length ∧
      FollowsAfter d p (past ++ [.pause length outcome]) turns

/-- The answers and outcomes of turns are those of a server and a pacer. -/
def Follows (d : Directory) (p : Pacer) (turns : List Turn) : Prop := FollowsAfter d p [] turns

variable {d : Directory} {p : Pacer}

theorem followsAfter_append {past turns turns' : List Turn} :
    FollowsAfter d p past (turns ++ turns') ↔
      FollowsAfter d p past turns ∧ FollowsAfter d p (past ++ turns) turns' := by
  induction turns generalizing past with
  | nil => simp [FollowsAfter]
  | cons turn turns ih => cases turn <;> simp [FollowsAfter, ih, and_assoc]

theorem follows_append {turns turns' : List Turn} :
    Follows d p (turns ++ turns') ↔ Follows d p turns ∧ FollowsAfter d p turns turns' := by
  simp [Follows, followsAfter_append]

/-- A keeper that asks for nothing is over. -/
theorem Keeper.finished_of_next {result : Except LifecycleError Outcome}
    (next : k.next = .nothing result) : k.phase = .finished result := by
  cases phase : k.phase with
  | finished other =>
    obtain rfl : other = result := by simpa [Keeper.next, phase] using next
    rfl
  | announcing | waiting | refreshing | unlisting | cleaning => simp [Keeper.next, phase] at next

/-- A step extends a history that follows a server and a pacer by one turn, unless the run is
over. -/
theorem History.step (history : History config session turns k) (follows : Follows d p turns) :
    (∃ turn, History config session (turns ++ [turn]) (k.step d p) ∧
        Follows d p (turns ++ [turn])) ∨
      k.step d p = k ∧ ∃ result, k.phase = .finished result := by
  cases next : k.next with
  | call call =>
    refine .inl ⟨.call call (d k.calls call), ?_, ?_⟩
    · simpa [Keeper.step, next] using history.answered next _
    · simp [follows_append, follows, FollowsAfter, history.calls_eq]
  | pause length =>
    refine .inl ⟨.pause length (p k.pauses.length length), ?_, ?_⟩
    · simpa [Keeper.step, next] using history.paused next _
    · simp [follows_append, follows, FollowsAfter, history.pauses_eq]
  | nothing result =>
    exact .inr ⟨by simp [Keeper.step, next], result, Keeper.finished_of_next next⟩

/-- A run is one step and the rest of the run, where a run that is over stays as it is. -/
theorem Keeper.run_succ (steps : Nat) (k : Keeper) :
    k.run d p (steps + 1) = (k.step d p).run d p steps := by
  cases phase : k.phase with
  | finished result =>
    -- A keeper that is over neither steps nor runs.
    have stays : ∀ steps, k.run d p steps = k := by
      intro steps
      cases steps <;> simp [Keeper.run, phase]
    have step : k.step d p = k := by simp [Keeper.step, Keeper.next, phase]
    rw [step, stays, stays]
  | announcing | waiting | refreshing | unlisting | cleaning => simp [Keeper.run, phase]

/-- **A run with a server and a pacer has a history that follows them**, of one turn for each step
unless the run is over before. -/
theorem exists_history_run (history : History config session turns k) (follows : Follows d p turns)
    (steps : Nat) :
    ∃ turns', History config session turns' (k.run d p steps) ∧ Follows d p turns' ∧
      (turns'.length = turns.length + steps ∨ ∃ result, (k.run d p steps).phase = .finished result)
      := by
  -- The induction is on the steps, for every history to start from.
  induction steps generalizing turns k with
  | zero => exact ⟨turns, history, follows, .inl rfl⟩
  | succ steps ih =>
    rw [Keeper.run_succ]
    rcases history.step follows with ⟨turn, history', follows'⟩ | ⟨stays, result, phase⟩
    · obtain ⟨turns', history'', follows'', taken | ended⟩ := ih history' follows'
      · refine ⟨turns', history'', follows'', .inl ?_⟩
        rw [taken, List.length_append, List.length_singleton]
        omega
      · exact ⟨turns', history'', follows'', .inr ended⟩
    · have same : k.run d p steps = k := by cases steps <;> simp [Keeper.run, phase]
      rw [stays, same]
      exact ⟨turns, history, follows, .inr ⟨result, phase⟩⟩

/-- A new controller has a history, however far its run has got. -/
theorem exists_history_of_start (config : LifecycleConfig) (session : Announcement) (d : Directory)
    (p : Pacer) (steps : Nat) :
    ∃ turns, History config session turns
        ((Controller.start { config := config } session).run d p steps) ∧ Follows d p turns ∧
      (turns.length = steps ∨ ∃ result,
        ((Controller.start { config := config } session).run d p steps).phase = .finished result) := by
  obtain ⟨turns, history, follows, length⟩ :=
    exists_history_run (d := d) (p := p) (history_start config session) trivial steps
  rw [List.length_nil, Nat.zero_add] at length
  exact ⟨turns, history, follows, length⟩

/-- The calls of a run, in order. -/
def Run.calls (r : Run) : List Call := r.log.filterMap LogEntry.call?

/-- The pauses of a run, in order. -/
def Run.pauses (r : Run) : List Duration := r.log.filterMap LogEntry.pause?

/-- **A run that has returned has a history that follows its server and its pacer**, and what the
run tells is what its keeper has become. -/
theorem exists_history_of_returned {r : Run} {c : Controller} {steps : Nat}
    (returned : Controller.run? { config := config } d p session steps = some (r, c)) :
    ∃ turns k, History config session turns k ∧ Follows d p turns ∧
      k.phase = .finished r.result ∧ r.calls = callsOf turns ∧ r.pauses = pausesOf turns ∧
      r.state = k.state ∧ c = { config := config, state := k.state } := by
  obtain ⟨turns, history, follows, -⟩ := exists_history_of_start config session d p steps
  simp only [Controller.run?, Option.map_eq_some_iff, Prod.mk.injEq] at returned
  obtain ⟨result, ended, rfl, rfl⟩ := returned
  refine ⟨turns, _, history, follows, ?_, history.calls_eq, history.pauses_eq, rfl, rfl⟩
  -- The result is read off the phase.
  unfold Keeper.result? at ended
  split at ended
  next phase => simpa [phase] using ended
  next => simp at ended

end SessionDirectory
