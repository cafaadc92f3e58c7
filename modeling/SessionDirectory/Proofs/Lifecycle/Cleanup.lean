import SessionDirectory.Proofs.Lifecycle.Lifetime
import SessionDirectory.Proofs.Lifecycle.Verdict

/-!
# What the policy to clean up adds to a run

A controller may be told to remove a listing after a refresh has failed. Two keepers that differ in
this policy alone do the same until a refresh fails. From then on the one without the policy is over
and the other one makes a single removal, whose answer it reports and otherwise forgets.

The two keepers are run in lockstep. Their answers come from one server, which may make them depend
on all the calls before, so the lockstep also says that the calls are the same.

## Main definitions

* `Controller.withCleanup`: a controller with the policy switched on or off
* `Controller.Returns`: a run returns, after any number of steps
* `BeatFailed d calls`: a refresh among the calls fails
* `CleanedUp`: what the policy makes of a run
* `CleanupLaw`: how the runs with the policy and without it compare

## Main results

* `Keeper.step_withCleanup`: two keepers take the same step unless a refresh fails
* `mirrored_run`: the two keepers in lockstep
* `Keeper.run_eq_of_agreeOn`: a run is a matter of the answers to its own calls
* `Controller.cleanupLaw`: the law holds of every controller, server, pacer and session
-/

set_option autoImplicit false

namespace SessionDirectory

/-! ## The policy and the runs -/

/-- The policy to clean up switched on or off, and all else as it was. -/
def LifecycleConfig.withCleanup (config : LifecycleConfig) (cleanup : Bool) : LifecycleConfig :=
  { config with unlistOnRefreshFailure := cleanup }

/-- The controller with the policy switched on or off. -/
def Controller.withCleanup (c : Controller) (cleanup : Bool) : Controller :=
  { c with config := c.config.withCleanup cleanup }

/-- The keeper with the policy switched on or off. -/
def Keeper.withCleanup (k : Keeper) (cleanup : Bool) : Keeper :=
  { k with config := k.config.withCleanup cleanup }

/-- **A run returns**, after any number of steps, and leaves a controller behind. -/
def Controller.Returns (c : Controller) (d : Directory) (p : Pacer) (session : Announcement)
    (r : Run) (c' : Controller) : Prop :=
  ∃ steps, c.run? d p session steps = some (r, c')

/-- A refresh among the calls fails: it has no answer, or one of another status than 200. -/
def BeatFailed (d : Directory) (calls : List Call) : Prop :=
  ∃ past call rest, calls = past ++ call :: rest ∧ call.operation = .update ∧ ¬ IsOk (d past call)

/-- Two servers give the same answers to calls made in order. -/
def AgreeOn (d d' : Directory) (calls : List Call) : Prop :=
  ∀ past call rest, calls = past ++ call :: rest → d' past call = d past call

/-- **What the policy to clean up makes of a run** without it. The result and the state stay. -/
inductive CleanedUp (d : Directory) (session : Announcement) (r : Run) : Run → Prop where
  /-- No refresh fails, and the log is the same. -/
  | unchanged (ok : ¬ BeatFailed d r.calls) : CleanedUp d session r r
  /-- The last call is a refresh that fails, and one removal with its report comes after it. -/
  | removed {credential : Credential} {past : List Call}
      (announced : Announced d session credential) (calls : r.calls = past ++ [credential.heartbeat])
      (failed : ¬ IsOk (d past credential.heartbeat)) :
      CleanedUp d session r
        { r with
          log := r.log ++ [.call credential.removal,
            .event (.cleanupUnlist (Keeper.statusOf (d r.calls credential.removal)))] }

/-- Two runs are the same, or differ in the status of the last report only. -/
inductive SameButStatus : Run → Run → Prop where
  | same (r : Run) : SameButStatus r r
  | status (log : List LogEntry) (result : Except LifecycleError Outcome) (state : LifecycleState)
      (status status' : Option UInt16) :
      SameButStatus ⟨log ++ [.event (.cleanupUnlist status)], result, state⟩
        ⟨log ++ [.event (.cleanupUnlist status')], result, state⟩

/-- **How the runs of a controller with the policy to clean up and without it compare.** -/
structure CleanupLaw (c : Controller) (d : Directory) (p : Pacer) (session : Announcement) :
    Prop where
  /-- While the run without the policy is under way, the other one has done the same. -/
  underway : ∀ steps, (c.withCleanup false).run? d p session steps = none →
    ((c.withCleanup true).start session).run d p steps =
      (((c.withCleanup false).start session).run d p steps).withCleanup true
  /-- One of them returns if and only if the other one does. -/
  returns_iff : (∃ r c', (c.withCleanup false).Returns d p session r c') ↔
    ∃ r c', (c.withCleanup true).Returns d p session r c'
  /-- The run with the policy is what the policy makes of the other one, and the controller is left
  in the same state. -/
  cleanedUp : ∀ r c₁ r' c₂, (c.withCleanup false).Returns d p session r c₁ →
    (c.withCleanup true).Returns d p session r' c₂ →
    CleanedUp d session r r' ∧ c₂ = c₁.withCleanup true
  /-- The answer to the removal changes nothing but the status that is reported: a server that
  answers the calls of the run without the policy alike may answer it as it likes. -/
  answer : ∀ d' r c₁ r' c₂, (c.withCleanup false).Returns d p session r c₁ → AgreeOn d d' r.calls →
    (c.withCleanup true).Returns d p session r' c₂ →
    ∃ r'', (c.withCleanup true).Returns d' p session r'' c₂ ∧ SameButStatus r' r''

variable {d d' : Directory} {p : Pacer} {session : Announcement} {k k' : Keeper} {c c' : Controller}
  {r : Run} {credential : Credential} {calls : List Call} {call : Call}

theorem beatFailed_concat : BeatFailed d (calls ++ [call]) ↔
    BeatFailed d calls ∨ call.operation = .update ∧ ¬ IsOk (d calls call) := by
  constructor
  · rintro ⟨past, call', rest, split, update, failed⟩
    -- The refresh is the last call, or it is one of those before.
    rcases List.eq_nil_or_concat rest with rfl | ⟨rest, last, rfl⟩
    · obtain ⟨rfl, same⟩ := List.append_inj' split rfl
      obtain rfl : call = call' := by simpa using same
      exact .inr ⟨update, failed⟩
    · rw [List.concat_eq_append, ← List.cons_append, ← List.append_assoc] at split
      obtain ⟨rfl, -⟩ := List.append_inj' split rfl
      exact .inl ⟨past, call', rest, rfl, update, failed⟩
  · rintro (⟨past, call', rest, rfl, update, failed⟩ | ⟨update, failed⟩)
    · exact ⟨past, call', rest ++ [call], by simp, update, failed⟩
    · exact ⟨calls, call, [], rfl, update, failed⟩

/-! ## One step of two keepers -/

namespace Keeper

@[simp] theorem next_withCleanup (k : Keeper) (cleanup : Bool) :
    (k.withCleanup cleanup).next = k.next := rfl

@[simp] theorem calls_withCleanup (k : Keeper) (cleanup : Bool) :
    (k.withCleanup cleanup).calls = k.calls := rfl

@[simp] theorem pauses_withCleanup (k : Keeper) (cleanup : Bool) :
    (k.withCleanup cleanup).pauses = k.pauses := rfl

theorem announced_withCleanup (k : Keeper) (cleanup : Bool) (answer : Answer) :
    (k.withCleanup cleanup).announced answer = (k.announced answer).withCleanup cleanup := by
  cases answer with
  | error e => rfl
  | ok response =>
    -- What is accepted does not depend on the policy.
    have same : acceptAnnouncement (k.withCleanup cleanup).config (k.withCleanup cleanup).state
        response = acceptAnnouncement k.config k.state response := rfl
    simp only [announced, same]
    cases acceptAnnouncement k.config k.state response <;> rfl

theorem unlisted_withCleanup (k : Keeper) (cleanup : Bool) (count : UInt32) (answer : Answer) :
    (k.withCleanup cleanup).unlisted credential count answer =
      (k.unlisted credential count answer).withCleanup cleanup := by
  cases answer with
  | error e => rfl
  | ok response =>
    simp only [unlisted]
    split <;> rfl

/-- The policy does not change what a keeper makes of an answer, unless that is to a refresh that
fails. -/
theorem answered_withCleanup {answer : Answer} (cleanup : Bool)
    (ok : ∀ credential schedule count, k.phase = .refreshing credential schedule count →
      IsOk answer) :
    (k.withCleanup cleanup).answered call answer =
      (k.answered call answer).withCleanup cleanup := by
  cases phase : k.phase with
  | announcing session =>
    simp only [answered, note, withCleanup, phase]
    exact announced_withCleanup { k with log := k.log ++ [.call call] } cleanup answer
  | refreshing credential schedule count =>
    obtain ⟨response, rfl, status⟩ := ok credential schedule count phase
    have expected : response.status ∈ refreshStatuses := by simp [refreshStatuses, status]
    rw [answered_refreshing_of_status phase expected,
      answered_refreshing_of_status (k := k.withCleanup cleanup) phase expected]
    rfl
  | unlisting credential count =>
    simp only [answered, note, withCleanup, phase]
    exact unlisted_withCleanup { k with log := k.log ++ [.call call] } cleanup count answer
  | cleaning credential fault =>
    rw [answered_cleaning phase, answered_cleaning (k := k.withCleanup cleanup) phase]
    rfl
  | waiting | finished => simp only [answered, note, withCleanup, phase]

theorem paused_withCleanup (k : Keeper) (cleanup : Bool) (length : Duration)
    (outcome : WaitOutcome) :
    (k.withCleanup cleanup).paused length outcome =
      (k.paused length outcome).withCleanup cleanup := by
  cases phase : k.phase with
  | waiting => cases outcome <;> simp only [paused, note, withCleanup, phase] <;> rfl
  | announcing | refreshing | unlisting | cleaning | finished =>
    cases outcome <;> simp only [paused, note, withCleanup, phase]

/-- **Two keepers that differ in the policy take the same step** unless a refresh fails. -/
theorem step_withCleanup (cleanup : Bool)
    (ok : ∀ credential schedule count, k.phase = .refreshing credential schedule count →
      IsOk (d k.calls credential.heartbeat)) :
    (k.withCleanup cleanup).step d p = (k.step d p).withCleanup cleanup := by
  cases next : k.next with
  | call call =>
    simp only [step, next_withCleanup, next, calls_withCleanup]
    apply answered_withCleanup
    intro credential schedule count phase
    obtain rfl : credential.heartbeat = call := by
      simpa [Keeper.next, phase, Credential.heartbeat] using next
    exact ok credential schedule count phase
  | pause length =>
    simp only [step, next_withCleanup, next, pauses_withCleanup]
    exact paused_withCleanup k cleanup length _
  | nothing result => simp only [step, next_withCleanup, next]

/-! ## The calls of a step -/

@[simp] theorem calls_note_call (k : Keeper) (call : Call) :
    (k.note (.call call)).calls = k.calls ++ [call] := by
  simp [calls, note, LogEntry.call?]

@[simp] theorem calls_report (k : Keeper) (e : Event) : (k.report e).calls = k.calls := by
  simp [calls, report, note, LogEntry.call?]

@[simp] theorem calls_moveTo (k : Keeper) (state : LifecycleState) :
    (k.moveTo state).calls = k.calls := rfl

@[simp] theorem calls_enter (k : Keeper) (phase : Phase) : (k.enter phase).calls = k.calls := rfl

@[simp] theorem calls_fail (k : Keeper) (fault : LifecycleError) :
    (k.fail fault).calls = k.calls := rfl

@[simp] theorem calls_failRefresh (k : Keeper) (credential : Credential) (fault : LifecycleError) :
    (k.failRefresh credential fault).calls = k.calls := by
  rw [failRefresh_eq]
  rfl

/-- An answer adds its call to those made so far, and nothing else. -/
theorem calls_answered (k : Keeper) (call : Call) (answer : Answer) :
    (k.answered call answer).calls = k.calls ++ [call] := by
  rw [← calls_note_call, answered]
  generalize k.note (.call call) = k
  cases k.phase with
  | announcing session =>
    simp only [announced]
    split
    · simp
    · split <;> simp
  | refreshing credential schedule count =>
    simp only [refreshed]
    split
    · simp
    · split <;> simp
  | unlisting credential count =>
    simp only [unlisted]
    split
    · simp
    · split <;> simp
  | cleaning credential fault => simp [cleaned]
  | waiting | finished => rfl

/-- A pause adds no call. -/
theorem calls_paused (k : Keeper) (length : Duration) (outcome : WaitOutcome) :
    (k.paused length outcome).calls = k.calls := by
  have noted : (k.note (.pause length)).calls = k.calls := by simp [calls, note, LogEntry.call?]
  rw [← noted]
  unfold paused
  generalize k.note (.pause length) = k
  dsimp only
  split <;> simp

/-- A step adds the call that the keeper asks for, if it asks for one. -/
theorem calls_step (k : Keeper) (d : Directory) (p : Pacer) :
    (k.step d p).calls = k.calls ++ match k.next with
      | .call call => [call]
      | _ => [] := by
  cases next : k.next with
  | call call => simp only [step, next, calls_answered]
  | pause length => simp only [step, next, calls_paused, List.append_nil]
  | nothing result => simp only [step, next, List.append_nil]

theorem run_succ' (k : Keeper) (d : Directory) (p : Pacer) (steps : Nat) :
    k.run d p (steps + 1) = (k.run d p steps).step d p := by
  induction steps generalizing k with
  | zero => rw [run_succ, run, run]
  | succ steps ih => rw [run_succ, ih, ← run_succ]

theorem run_add (k : Keeper) (d : Directory) (p : Pacer) (steps more : Nat) :
    k.run d p (steps + more) = (k.run d p steps).run d p more := by
  induction more with
  | zero => rfl
  | succ more ih => rw [← Nat.add_assoc, run_succ', run_succ', ih]

/-- **A run is a matter of the answers to its own calls.** -/
theorem run_eq_of_agreeOn {steps : Nat} (agree : AgreeOn d d' (k.run d p steps).calls) :
    k.run d' p steps = k.run d p steps := by
  induction steps with
  | zero => rfl
  | succ steps ih =>
    rw [run_succ', calls_step] at agree
    have before : AgreeOn d d' (k.run d p steps).calls := by
      intro past call rest split
      apply agree past call
      rw [split, List.append_assoc, List.cons_append]
    rw [run_succ', run_succ', ih before]
    cases next : (k.run d p steps).next with
    | call call =>
      -- The last call is answered alike after all the others.
      rw [next] at agree
      simp only [step, next, agree _ call [] rfl]
    | pause length => simp only [step, next]
    | nothing result => simp only [step, next]

end Keeper

/-! ## Two keepers in lockstep -/

/-- A keeper has the credential of the announcement, where it has one. -/
def Keeper.Entitled (d : Directory) (session : Announcement) (k : Keeper) : Prop :=
  match k.phase with
  | .announcing session' => session' = session ∧ k.calls = []
  | .waiting credential _ _ | .refreshing credential _ _ | .unlisting credential _
  | .cleaning credential _ => Announced d session credential
  | .finished _ => True

theorem exists_accepts_of_acceptAnnouncement {config : LifecycleConfig} {state : LifecycleState}
    {response : Response} {lease : Lease}
    (accepted : acceptAnnouncement config state response = .ok (credential, lease)) :
    ∃ reply, Accepts response reply credential := by
  unfold acceptAnnouncement at accepted
  split at accepted
  next ok =>
    have status : response.status = 200 := by simpa [Response.isOk] using ok
    cases parsed : AnnounceReply.parse response.body with
    | error e => simp [parsed] at accepted
    | ok reply =>
      cases found : reply.credential? with
      | none => simp [parsed, found] at accepted
      | some credential' =>
        obtain ⟨rfl, -⟩ : credential' = credential ∧ _ := by simpa [parsed, found] using accepted
        obtain ⟨id, key⟩ := AnnounceReply.credential?_eq_some_iff.mp found
        exact ⟨reply, status, parsed, id, key⟩
  next => simp at accepted

theorem Keeper.entitled_failRefresh (announced : Announced d session credential) (k : Keeper)
    (fault : LifecycleError) : (k.failRefresh credential fault).Entitled d session := by
  unfold failRefresh
  split
  · exact announced
  · trivial

/-- A step keeps the credential, and the first one is that of the announcement. -/
theorem Keeper.Entitled.step (entitled : k.Entitled d session) (p : Pacer) :
    (k.step d p).Entitled d session := by
  cases phase : k.phase with
  | announcing session' =>
    obtain ⟨rfl, first⟩ : session' = session ∧ k.calls = [] := by simpa [Entitled, phase] using entitled
    simp only [Keeper.step, next, phase, answered, note, first]
    cases answer : d [] (.announce session') with
    | error e => trivial
    | ok response =>
      simp only [announced]
      split
      · trivial
      next credential lease accepted =>
        obtain ⟨reply, accepts⟩ := exists_accepts_of_acceptAnnouncement accepted
        exact ⟨response, reply, answer, accepts⟩
  | waiting credential schedule count =>
    have announced : Announced d session credential := by simpa [Entitled, phase] using entitled
    simp only [Keeper.step, next, phase, paused, note]
    cases p k.pauses.length schedule.wait <;> exact announced
  | refreshing credential schedule count =>
    have announced : Announced d session credential := by simpa [Entitled, phase] using entitled
    simp only [Keeper.step, next, phase, answered, note, refreshed]
    split
    · exact entitled_failRefresh announced _ _
    · split
      · exact announced
      · exact entitled_failRefresh announced _ _
  | unlisting credential count =>
    simp only [Keeper.step, next, phase, answered, note, unlisted]
    split
    · trivial
    · split <;> trivial
  | cleaning credential fault => 
    simp only [Keeper.step, next, phase]
    rw [answered_cleaning phase]
    trivial
  | finished result => simpa [Keeper.step, next, phase] using entitled

theorem Keeper.step_of_finished {result : Except LifecycleError Outcome}
    (phase : k.phase = .finished result) (d : Directory) (p : Pacer) : k.step d p = k := by
  simp [Keeper.step, Keeper.next, phase]

/-- After a refresh that fails a keeper is over, or it is to remove the listing. -/
theorem Keeper.step_of_faulty {schedule : RefreshSchedule} {count : UInt32} {fault : LifecycleError}
    (phase : k.phase = .refreshing credential schedule count)
    (faulty : Faulty k.state refreshStatuses (d k.calls credential.heartbeat) fault) (p : Pacer) :
    k.step d p =
      { k with
        state := .error
        past := k.state :: k.past
        log := k.log ++ [.call credential.heartbeat]
        phase :=
          if k.config.unlistOnRefreshFailure then .cleaning credential fault
          else .finished (.error fault) } := by
  have next : k.next = .call credential.heartbeat := by
    simp [Keeper.next, phase, Credential.heartbeat]
  rw [Keeper.step, next]
  exact answered_refreshing_of_faulty phase faulty

/-- The run of a keeper has ended with a refresh that fails, the last of its calls. -/
structure EndedByBeat (d : Directory) (session : Announcement) (k : Keeper)
    (credential : Credential) (fault : LifecycleError) : Prop where
  announced : Announced d session credential
  beat : ∃ past, k.calls = past ++ [credential.heartbeat] ∧ ¬ IsOk (d past credential.heartbeat)
  phase : k.phase = .finished (.error fault)

/-- **Two keepers in lockstep**, the first one without the policy and the second one with it. -/
inductive Mirrored (d : Directory) (session : Announcement) : Keeper → Keeper → Prop where
  /-- No refresh has failed, and the keepers differ in the policy alone. -/
  | alike {k : Keeper} (ok : ¬ BeatFailed d k.calls) (entitled : k.Entitled d session) :
      Mirrored d session (k.withCleanup false) (k.withCleanup true)
  /-- A refresh has failed, and the second keeper is to remove the listing. -/
  | cleaning {k : Keeper} {credential : Credential} {fault : LifecycleError}
      (ended : EndedByBeat d session k credential fault) :
      Mirrored d session k ((k.withCleanup true).enter (.cleaning credential fault))
  /-- The second keeper has tried to remove the listing. -/
  | cleaned {k : Keeper} {credential : Credential} {fault : LifecycleError}
      (ended : EndedByBeat d session k credential fault) :
      Mirrored d session k
        ((((k.withCleanup true).note (.call credential.removal)).report
          (.cleanupUnlist (Keeper.statusOf (d k.calls credential.removal)))).enter
            (.finished (.error fault)))

/-- **A step keeps two keepers in lockstep.** -/
theorem Mirrored.step (mirrored : Mirrored d session k k') (p : Pacer) :
    Mirrored d session (k.step d p) (k'.step d p) := by
  cases mirrored with
  | @alike k ok entitled =>
    by_cases fails : ∃ credential schedule count, k.phase = .refreshing credential schedule count ∧
        ¬ IsOk (d k.calls credential.heartbeat)
    · obtain ⟨credential, schedule, count, phase, failed⟩ := fails
      have announced : Announced d session credential := by
        simpa [Keeper.Entitled, phase] using entitled
      obtain ⟨fault, faulty⟩ : ∃ fault,
          Faulty k.state refreshStatuses (d k.calls credential.heartbeat) fault := by
        refine (status_or_faulty _ _ _).resolve_left ?_
        rintro ⟨response, answer, status⟩
        exact failed ⟨response, answer, by simpa [refreshStatuses] using status⟩
      rw [Keeper.step_of_faulty (k := k.withCleanup false) phase faulty,
        Keeper.step_of_faulty (k := k.withCleanup true) phase faulty]
      refine .cleaning ⟨announced, ⟨k.calls, ?_, failed⟩, rfl⟩
      exact Keeper.calls_note_call k credential.heartbeat
    · have good : ∀ credential schedule count, k.phase = .refreshing credential schedule count →
          IsOk (d k.calls credential.heartbeat) := by
        intro credential schedule count phase
        by_contra failed
        exact fails ⟨credential, schedule, count, phase, failed⟩
      rw [Keeper.step_withCleanup false good, Keeper.step_withCleanup true good]
      refine .alike ?_ (entitled.step p)
      rw [Keeper.calls_step]
      cases next : k.next with
      | call call =>
        rw [beatFailed_concat]
        rintro (before | ⟨update, failed⟩)
        · exact ok before
        · obtain ⟨credential, schedule, count, phase⟩ := Keeper.refreshing_of_next next update
          obtain rfl : credential.heartbeat = call := by
            simpa [Keeper.next, phase, Credential.heartbeat] using next
          exact failed (good credential schedule count phase)
      | pause length => simpa using ok
      | nothing result => simpa using ok
  | cleaning ended =>
    rw [Keeper.step_of_finished ended.phase]
    exact .cleaned ended
  | cleaned ended =>
    rw [Keeper.step_of_finished ended.phase, Keeper.step_of_finished rfl]
    exact .cleaned ended

theorem Controller.entitled_start (c : Controller) (session : Announcement) :
    (c.start session).Entitled d session := by
  unfold Controller.start Keeper.start Keeper.Entitled
  dsimp only
  split <;> rename_i h <;> split at h <;> simp_all [Keeper.calls]

/-- **The two keepers of a controller run in lockstep.** -/
theorem mirrored_run (c : Controller) (d : Directory) (p : Pacer) (session : Announcement)
    (steps : Nat) :
    Mirrored d session (((c.withCleanup false).start session).run d p steps)
      (((c.withCleanup true).start session).run d p steps) := by
  induction steps with
  | zero =>
    refine .alike (k := c.start session) ?_ (c.entitled_start session)
    rintro ⟨past, call, rest, split, -⟩
    have none : (c.start session).calls = [] := rfl
    simp [none] at split
  | succ steps ih =>
    rw [Keeper.run_succ', Keeper.run_succ']
    exact ih.step p

namespace Mirrored

variable {result result' : Except LifecycleError Outcome}

theorem state_eq (mirrored : Mirrored d session k k') : k'.state = k.state := by
  cases mirrored <;> rfl

/-- The keeper with the policy is not over before the other one. -/
theorem finished (mirrored : Mirrored d session k k') (phase : k'.phase = .finished result) :
    ∃ result, k.phase = .finished result := by
  cases mirrored with
  | alike => exact ⟨result, phase⟩
  | cleaning => simp [Keeper.enter] at phase
  | cleaned ended => exact ⟨_, ended.phase⟩

/-- The keeper with the policy is over one step after the other one. -/
theorem finished_step (mirrored : Mirrored d session k k') (phase : k.phase = .finished result)
    (p : Pacer) : ∃ result, (k'.step d p).phase = .finished result := by
  cases mirrored with
  | @alike k =>
    rw [Keeper.step_of_finished (k := k.withCleanup true) phase]
    exact ⟨result, phase⟩
  | cleaning => exact ⟨_, rfl⟩
  | cleaned ended => exact ⟨_, rfl⟩

/-- While the keeper without the policy is not over, the other one has done the same. -/
theorem eq_of_underway (mirrored : Mirrored d session k k')
    (underway : ∀ result, k.phase ≠ .finished result) : k' = k.withCleanup true := by
  cases mirrored with
  | alike => rfl
  | cleaning ended | cleaned ended => exact absurd ended.phase (underway _)

/-- The run of the keeper with the policy is what the policy makes of the other one. -/
theorem cleanedUp (mirrored : Mirrored d session k k') (phase : k.phase = .finished result)
    (phase' : k'.phase = .finished result') :
    CleanedUp d session ⟨k.log, result, k.state⟩ ⟨k'.log, result', k'.state⟩ := by
  cases mirrored with
  | alike ok =>
    obtain rfl : result = result' := Phase.finished.inj (phase.symm.trans phase')
    exact .unchanged ok
  | cleaning => simp [Keeper.enter] at phase'
  | @cleaned _ credential fault ended =>
    obtain rfl : .error fault = result' := Phase.finished.inj phase'
    obtain rfl : .error fault = result := Phase.finished.inj (ended.phase.symm.trans phase)
    obtain ⟨past, calls, failed⟩ := ended.beat
    have removed : CleanedUp d session ⟨k.log, .error fault, k.state⟩ _ :=
      .removed ended.announced calls failed
    rw [Keeper.enter, Keeper.report, Keeper.note, Keeper.note, List.append_assoc]
    exact removed

end Mirrored

/-! ## The law -/

theorem BeatFailed.congr (agree : AgreeOn d d' calls) (failed : BeatFailed d' calls) :
    BeatFailed d calls := by
  obtain ⟨past, call, rest, split, update, failed⟩ := failed
  refine ⟨past, call, rest, split, update, ?_⟩
  rwa [← agree past call rest split]

theorem AgreeOn.symm (agree : AgreeOn d d' calls) : AgreeOn d' d calls :=
  fun past call rest split => (agree past call rest split).symm

/-- A refresh that fails as the last call is one that fails. -/
theorem beatFailed_of_last {past : List Call} (split : calls = past ++ [credential.heartbeat])
    (failed : ¬ IsOk (d past credential.heartbeat)) : BeatFailed d calls :=
  ⟨past, credential.heartbeat, [], split, rfl, failed⟩

/-- What the policy makes of a run with two servers that answer its calls alike. -/
theorem CleanedUp.sameButStatus {session' : Announcement} {r₁ r₂ : Run}
    (cleaned : CleanedUp d session r r₁) (cleaned' : CleanedUp d' session' r r₂)
    (agree : AgreeOn d d' r.calls) : SameButStatus r₁ r₂ := by
  cases cleaned with
  | unchanged ok =>
    cases cleaned' with
    | unchanged => exact .same r
    | removed _ calls failed => exact absurd ((beatFailed_of_last calls failed).congr agree) ok
  | @removed credential past _ calls failed =>
    cases cleaned' with
    | unchanged ok => exact absurd ((beatFailed_of_last calls failed).congr agree.symm) ok
    | @removed credential' past' _ calls' =>
      -- The last call tells the credential, so the same listing is removed.
      obtain ⟨-, last⟩ := List.append_inj' (calls.symm.trans calls') rfl
      obtain rfl : credential = credential' := by
        cases credential
        cases credential'
        simpa [Credential.heartbeat] using last
      rw [List.append_cons r.log _ [_], List.append_cons r.log _ [_]]
      exact .status ..

namespace Controller

theorem eq_of_run? {steps : Nat} (returned : c.run? d p session steps = some (r, c')) :
    r = ⟨((c.start session).run d p steps).log, r.result,
      ((c.start session).run d p steps).state⟩ := by
  obtain ⟨-, log, state, -⟩ := finished_of_run? returned
  rw [← log, ← state]

theorem returns_of_finished {steps : Nat} {result : Except LifecycleError Outcome}
    (ended : (c.start session).run d p steps = k) (phase : k.phase = .finished result) :
    c.Returns d p session ⟨k.log, result, k.state⟩ { c with state := k.state } :=
  ⟨steps, run?_eq_of_finished ended phase⟩

/-- More steps change nothing in a run that has returned. -/
theorem run?_add {steps : Nat} (returned : c.run? d p session steps = some (r, c')) (more : Nat) :
    c.run? d p session (steps + more) = some (r, c') := by
  obtain ⟨phase, -, -, -⟩ := finished_of_run? returned
  rw [← returned, run?, run?, Keeper.run_add, Keeper.run_of_finished phase]

/-- A run returns in one way only. -/
theorem Returns.unique {r' : Run} {c'' : Controller} (returns : c.Returns d p session r c')
    (returns' : c.Returns d p session r' c'') : r' = r ∧ c'' = c' := by
  obtain ⟨steps, returned⟩ := returns
  obtain ⟨steps', returned'⟩ := returns'
  have longer := run?_add returned steps'
  rw [Nat.add_comm, run?_add returned' steps] at longer
  simpa using longer

/-- The run with the policy returns where the one without it does. -/
theorem Returns.added (returns : (c.withCleanup false).Returns d p session r c') :
    ∃ r', (c.withCleanup true).Returns d p session r' (c'.withCleanup true) ∧
      CleanedUp d session r r' := by
  obtain ⟨steps, returned⟩ := returns
  obtain ⟨phase, -, -, rfl⟩ := finished_of_run? returned
  -- The keeper with the policy needs one step more, for the removal.
  have mirrored := mirrored_run c d p session steps
  obtain ⟨result', phase'⟩ := mirrored.finished_step phase p
  have after := mirrored.step p
  rw [Keeper.step_of_finished phase] at after
  have returns' := returns_of_finished (Keeper.run_succ' _ d p steps) phase'
  have cleaned := after.cleanedUp phase phase'
  rw [after.state_eq] at returns' cleaned
  rw [← eq_of_run? returned] at cleaned
  exact ⟨_, returns', cleaned⟩

/-- The run without the policy returns where the one with it does. -/
theorem Returns.only {r' : Run} (returns : (c.withCleanup true).Returns d p session r' c') :
    ∃ r, (c.withCleanup false).Returns d p session r (c'.withCleanup false) ∧
      CleanedUp d session r r' := by
  obtain ⟨steps, returned⟩ := returns
  obtain ⟨phase', -, -, rfl⟩ := finished_of_run? returned
  have mirrored := mirrored_run c d p session steps
  obtain ⟨result, phase⟩ := mirrored.finished phase'
  have returns' := returns_of_finished rfl phase
  have cleaned := mirrored.cleanedUp phase phase'
  rw [← mirrored.state_eq] at returns' cleaned
  rw [← eq_of_run? returned] at cleaned
  exact ⟨_, returns', cleaned⟩

/-- A run returns in the same way with a server that answers its calls alike. -/
theorem Returns.congr (returns : c.Returns d p session r c') (agree : AgreeOn d d' r.calls) :
    c.Returns d' p session r c' := by
  obtain ⟨steps, returned⟩ := returns
  refine ⟨steps, ?_⟩
  rw [eq_of_run? returned] at agree
  rw [← returned, run?, run?, Keeper.run_eq_of_agreeOn agree]

theorem eq_underway {steps : Nat}
    (underway : (c.withCleanup false).run? d p session steps = none) :
    ((c.withCleanup true).start session).run d p steps =
      (((c.withCleanup false).start session).run d p steps).withCleanup true := by
  apply (mirrored_run c d p session steps).eq_of_underway
  intro result phase
  rw [run?_eq_of_finished rfl phase] at underway
  cases underway

/-- **The policy to clean up adds one removal and its report**, at the end of a run in which a
refresh fails, and nothing else. -/
theorem cleanupLaw (c : Controller) (d : Directory) (p : Pacer) (session : Announcement) :
    CleanupLaw c d p session where
  underway _ := eq_underway
  returns_iff := by
    constructor
    · rintro ⟨r, c', returns⟩
      obtain ⟨r', returns', -⟩ := returns.added
      exact ⟨r', _, returns'⟩
    · rintro ⟨r', c', returns⟩
      obtain ⟨r, returns', -⟩ := returns.only
      exact ⟨r, _, returns'⟩
  cleanedUp := by
    intro r c₁ r' c₂ returns returns'
    obtain ⟨added, returns'', cleaned⟩ := returns.added
    obtain ⟨rfl, rfl⟩ := returns''.unique returns'
    exact ⟨cleaned, rfl⟩
  answer := by
    intro d' r c₁ r' c₂ returns agree returns'
    obtain ⟨added, returns'', cleaned⟩ := returns.added
    obtain ⟨rfl, rfl⟩ := returns''.unique returns'
    -- With the other server the run without the policy is the same one.
    obtain ⟨added', returns₂, cleaned₂⟩ := (returns.congr agree).added
    exact ⟨added', returns₂, cleaned.sameButStatus cleaned₂ agree⟩

/-- With a server that is tired after two refreshes both runs return, and the one with the policy
has a log that is longer by two entries. -/
theorem cleanupLaw_tiringServer :
    ∃ r r' c', (withCleanup { config := {} } false).Returns (tiringServer 3) (.elapsing 9)
        (.ofDefaults {} "s") r c' ∧
      (withCleanup { config := {} } true).Returns (tiringServer 3) (.elapsing 9)
        (.ofDefaults {} "s") r' (c'.withCleanup true) ∧
      r'.log.length = r.log.length + 2 ∧ r'.state = .error ∧
      CleanupLaw { config := {} } (tiringServer 3) (.elapsing 9) (.ofDefaults {} "s") :=
  ⟨_, _, _, ⟨20, rfl⟩, ⟨20, rfl⟩, rfl, rfl, cleanupLaw _ _ _ _⟩

end Controller

end SessionDirectory
