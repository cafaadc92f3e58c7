import SessionDirectory.Proofs.Lifecycle.History

/-!
# The tally of a history

How many refreshes and removals there are among the calls of a keeper, and how far the keeper is
from its end. Each is read off the forms of its history.

## Main definitions

* `updatesOf`, `unlistsOf`: the refreshes and the removals among calls
* `BeatsOk`: no refresh fails
* `Phase.ahead`: how many moves a keeper makes at most before it is over, if it is cancelled

## Main results

* `History.updates_le_pauses`: every refresh has a pause of its own before it
* `History.unlists_eq_nil`: nothing is removed while no pause has been cancelled
* `History.removal_of_finished`: a run that is over ends with a removal, if all went well
* `Keeper.ahead_answered`, `Keeper.ahead_paused`: every call and every pause leads to the end
-/

set_option autoImplicit false

namespace SessionDirectory

/-- The refreshes among calls. -/
def updatesOf (calls : List Call) : List Call := calls.filter (·.operation = .update)

/-- The removals among calls. -/
def unlistsOf (calls : List Call) : List Call := calls.filter (·.operation = .unlist)

@[simp] theorem updatesOf_append (calls calls' : List Call) :
    updatesOf (calls ++ calls') = updatesOf calls ++ updatesOf calls' :=
  List.filter_append ..

@[simp] theorem unlistsOf_append (calls calls' : List Call) :
    unlistsOf (calls ++ calls') = unlistsOf calls ++ unlistsOf calls' :=
  List.filter_append ..

/-! ## Refreshes and pauses -/

section Tally

variable {config : LifecycleConfig} {session : Announcement} {credential : Credential}
  {schedule : RefreshSchedule} {count : UInt32} {turns : List Turn} {k : Keeper}

/-- A keeper that is to refresh has just come from a pause that elapsed. -/
theorem History.getLast?_of_refreshing (history : History config session turns k)
    (phase : k.phase = .refreshing credential schedule count) :
    turns.getLast? = some (.pause schedule.wait .elapsed) := by
  cases history with
  | due =>
    obtain ⟨-, rfl, -⟩ := Phase.refreshing.inj phase
    simp
  | fresh | refused | waiting | failed | cleaning | cleaned | leaving | removed | unremoved =>
    simp at phase

/-- A keeper that asks for a refresh is to refresh. -/
theorem Keeper.refreshing_of_next {call : Call} (asked : k.next = .call call)
    (update : call.operation = .update) :
    ∃ credential schedule count, k.phase = .refreshing credential schedule count := by
  cases phase : k.phase with
  | refreshing credential schedule count => exact ⟨credential, schedule, count, rfl⟩
  | announcing | unlisting | cleaning =>
    simp only [Keeper.next, phase, Demand.call.injEq] at asked
    simp [← asked, Call.operation] at update
  | waiting | finished => simp [Keeper.next, phase] at asked

/-- **Every refresh has a pause of its own before it**, the one that is about to start included. -/
theorem History.updates_le_pauses (history : History config session turns k) :
    (updatesOf (callsOf turns)).length ≤ (pausesOf turns).length ∧
      ∀ credential schedule count, k.phase = .refreshing credential schedule count →
        (updatesOf (callsOf turns)).length < (pausesOf turns).length := by
  -- While a listing is kept the two numbers are equal, and a pause that has elapsed adds one.
  cases history with
  | fresh | refused => simp [updatesOf, Call.operation]
  | waiting kept | due kept | failed kept | cleaning kept | cleaned kept | leaving kept
  | removed kept | unremoved kept =>
    simp [kept.callsOf_eq, kept.pausesOf_eq, updatesOf, Call.operation, Credential.heartbeat,
      Credential.removal]

/-- A keeper has announced first, or is about to. -/
theorem History.announces (history : History config session turns k) :
    (∃ calls, callsOf turns = .announce session :: calls) ∨ k.phase = .announcing session := by
  cases history with
  | fresh => exact .inr rfl
  | refused => exact .inl ⟨[], rfl⟩
  | waiting kept | due kept | failed kept | cleaning kept | cleaned kept | leaving kept
  | removed kept | unremoved kept => simp [kept.callsOf_eq]

/-! ## Removals -/

/-- No refresh fails. -/
def BeatsOk (turns : List Turn) : Prop :=
  ∀ call answer, .call call answer ∈ turns → call.operation = .update → IsOk answer

/-- A refresh at fault is one that fails. -/
theorem BeatsOk.not_faulty {answer : Answer} {fault : LifecycleError} (ok : BeatsOk turns)
    (credential : Credential) (mem : .call credential.heartbeat answer ∈ turns) :
    ¬ Faulty .refreshing refreshStatuses answer fault :=
  fun faulty => faulty.not_isOk (ok _ _ mem rfl)

theorem Kept.unlists_eq_nil {n : Nat} {log : List LogEntry}
    (kept : Kept config session credential schedule n turns log) :
    unlistsOf (callsOf turns) = [] := by
  simp [kept.callsOf_eq, unlistsOf, Credential.heartbeat, Call.operation]

/-- While a listing is kept, its credential is that of the announcement. -/
theorem Kept.accepts_of_mem {n : Nat} {log : List LogEntry} {answer : Answer}
    (kept : Kept config session credential schedule n turns log)
    (mem : .call (.announce session) answer ∈ turns) :
    ∃ response reply, answer = .ok response ∧ Accepts response reply credential := by
  induction kept with
  | @accepted response reply accepts of_lease =>
    obtain rfl : answer = .ok response := by simpa using mem
    exact ⟨response, reply, rfl, accepts⟩
  | beat _ _ ih =>
    refine ih ?_
    simpa [Credential.heartbeat] using mem

/-- **Nothing is removed** while no pause has been cancelled and no refresh has failed. -/
theorem History.unlists_eq_nil (history : History config session turns k) (ok : BeatsOk turns)
    (uncancelled : ∀ length, .pause length .cancelled ∉ turns) :
    unlistsOf (callsOf turns) = [] ∧ ∀ call, k.next = .call call → call.operation ≠ .unlist := by
  cases history with
  | fresh => simp [unlistsOf, Keeper.next, Call.operation]
  | refused => simp [unlistsOf, Keeper.next, Call.operation]
  | waiting kept => simp [kept.unlists_eq_nil, Keeper.next]
  | due kept => simp [kept.unlists_eq_nil, Keeper.next, Call.operation]
  | @failed credential _ _ _ _ _ _ _ faulty | @cleaning credential _ _ _ _ _ _ _ faulty
  | @cleaned credential _ _ _ _ _ _ _ faulty =>
    -- A removal after a refresh at fault is the only other one.
    exact absurd faulty (ok.not_faulty credential (by simp))
  | @leaving _ schedule => exact absurd (by simp) (uncancelled schedule.wait)
  | @removed _ schedule => exact absurd (by simp) (uncancelled schedule.wait)
  | @unremoved _ schedule => exact absurd (by simp) (uncancelled schedule.wait)

/-- The removal of a listing that was kept is the only one, and has the credential of the
announcement. -/
theorem Kept.unlists_of_removal {n : Nat} {log : List LogEntry} {credential' : Credential}
    {response : Response} {reply : AnnounceReply} {answer : Answer}
    (kept : Kept config session credential schedule n turns log)
    (announced : .call (.announce session) (.ok response) ∈
      turns ++ [.pause schedule.wait .cancelled, .call credential.removal answer])
    (accepts : Accepts response reply credential') :
    credential' = credential ∧
      unlistsOf (callsOf
        (turns ++ [.pause schedule.wait .cancelled, .call credential.removal answer])) =
        [credential.removal] := by
  constructor
  · have mem : .call (.announce session) (.ok response) ∈ turns := by
      simpa [Credential.removal] using announced
    obtain ⟨response', reply', same, accepts'⟩ := kept.accepts_of_mem mem
    obtain rfl := Except.ok.inj same
    exact (accepts'.unique accepts).2
  · rw [callsOf_append, unlistsOf_append, kept.unlists_eq_nil]
    simp [unlistsOf, Credential.removal, Call.operation]

/-- **A run that is over ends with a removal**, if its announcement was accepted and no refresh has
failed, and it has ended well if the removal has. -/
theorem History.removal_of_finished {response : Response} {reply : AnnounceReply}
    {result : Except LifecycleError Outcome} (history : History config session turns k)
    (phase : k.phase = .finished result)
    (announced : .call (.announce session) (.ok response) ∈ turns)
    (accepts : Accepts response reply credential) (ok : BeatsOk turns) :
    unlistsOf (callsOf turns) = [credential.removal] ∧
      ∃ answer, .call credential.removal answer ∈ turns ∧
        ((∃ outcome, result = .ok outcome) ↔
          ∃ response, answer = .ok response ∧ (response.status = 200 ∨ response.status = 204)) := by
  cases history with
  | fresh | waiting | due | cleaning | leaving => simp at phase
  | refused refusal =>
    obtain rfl := by simpa using announced
    exact absurd refusal accepts.not_refusal
  | @failed credential' _ _ _ _ _ _ _ faulty | @cleaned credential' _ _ _ _ _ _ _ faulty =>
    exact absurd faulty (ok.not_faulty credential' (by simp))
  | @removed _ _ _ _ _ removal kept status =>
    obtain ⟨rfl, unlists⟩ := kept.unlists_of_removal announced accepts
    obtain rfl := Phase.finished.inj phase
    refine ⟨unlists, .ok removal, by simp, iff_of_true ⟨_, rfl⟩ ⟨removal, rfl, ?_⟩⟩
    simpa [removalStatuses] using status
  | @unremoved _ _ _ _ _ answer fault kept faulty =>
    obtain ⟨rfl, unlists⟩ := kept.unlists_of_removal announced accepts
    obtain rfl := Phase.finished.inj phase
    refine ⟨unlists, answer, by simp, iff_of_false (by simp) ?_⟩
    rintro ⟨response, eq, status⟩
    exact faulty.not_status ⟨response, eq, by simpa [removalStatuses] using status⟩

/-! ## The way to the end -/

/-- How many moves a keeper that is to do its next thing in a phase makes at most before it is
over, if every pause is cancelled. -/
def Phase.ahead : Phase → Nat
  | .announcing _ | .refreshing _ _ _ => 10
  | .waiting _ _ _ => 7
  | .unlisting _ _ | .cleaning _ _ => 3
  | .finished _ => 0

theorem Phase.ahead_le (phase : Phase) : phase.ahead ≤ 10 := by
  cases phase <;> simp [ahead]

/-- A call is started, answered and reported. -/
theorem Keeper.ahead_answered {call : Call} (asked : k.next = .call call) (answer : Answer) :
    (k.answered call answer).phase.ahead + 3 ≤ k.phase.ahead := by
  cases phase : k.phase with
  | announcing session =>
    simp only [answered, note, phase, announced]
    split
    · simp [fail, enter, Phase.ahead]
    · split <;> simp [fail, enter, Phase.ahead]
  | refreshing credential schedule count =>
    simp only [answered, note, phase, refreshed, failRefresh_eq]
    split
    · split <;> simp [Phase.ahead]
    · split
      · simp [enter, Phase.ahead]
      · split <;> simp [Phase.ahead]
  | unlisting credential count =>
    simp only [answered, note, phase, unlisted]
    split
    · simp [fail, enter, Phase.ahead]
    · split <;> simp [fail, enter, Phase.ahead]
  | cleaning credential fault => simp [answered, note, phase, cleaned, enter, Phase.ahead]
  | waiting | finished => simp [next, phase] at asked

/-- A pause that elapses lets the keeper refresh once more, and one that is cancelled does not. -/
theorem Keeper.ahead_paused {length : Duration} (asked : k.next = .pause length)
    (outcome : WaitOutcome) :
    k.phase.ahead = 7 ∧
      (k.paused length outcome).phase.ahead = if outcome = .elapsed then 10 else 3 := by
  cases phase : k.phase with
  | waiting => cases outcome <;> simp [paused, note, phase, enter, Phase.ahead]
  | announcing | refreshing | unlisting | cleaning | finished => simp [next, phase] at asked

end Tally

end SessionDirectory
