import SessionDirectory.Lifecycle.Keeper

/-!
# What a keeper makes of an answer

An answer to an announcement is accepted or it is a fault, and so is an answer to a refresh or to a
removal. The relations say which answers are which and with what fault, without the keeper; the
equations below say that the keeper goes on accordingly.

## Main definitions

* `Credential.heartbeat`, `Credential.removal`: the calls that keep and that remove a listing
* `Accepts`: the replies that accept an announcement
* `Refusal`: the faults of an announcement
* `Faulty`: the faults of a later call, whose status must be among given ones

## Main results

* `accepts_or_refusal`: every answer to an announcement is either accepted or at fault
* `answered_announcing_of_accepts`, `answered_announcing_of_refusal`: how an announcement goes on
* `answered_refreshing_of_status`, `answered_refreshing_of_faulty`: how a refresh goes on
* `answered_unlisting_of_status`, `answered_unlisting_of_faulty`: how a removal goes on
-/

set_option autoImplicit false

namespace SessionDirectory

/-- The refresh that changes no field and only extends the lease. -/
def Credential.heartbeat (c : Credential) : Call := .update c.id c.key SortedMap.empty

/-- The removal of the listing. -/
def Credential.removal (c : Credential) : Call := .unlist c.id c.key

/-- The statuses that a refresh must have. -/
def refreshStatuses : List UInt16 := [200]

/-- The statuses that a removal must have. -/
def removalStatuses : List UInt16 := [200, 204]

/-- The response accepts an announcement: its status is 200 and its body a reply with both halves
of the credential. -/
structure Accepts (response : Response) (reply : AnnounceReply) (credential : Credential) :
    Prop where
  status : response.status = 200
  parsed : AnnounceReply.parse response.body = .ok reply
  id : reply.id = some credential.id
  key : reply.key = some credential.key

/-- The fault of an announcement that is not accepted. -/
inductive Refusal : Answer → LifecycleError → Prop where
  | unreachable (cause : DirectoryError) : Refusal (.error cause) (.transport .unannounced cause)
  | status {response : Response} (status : response.status ≠ 200) :
      Refusal (.ok response) (.rejected .unannounced response)
  | unparseable {response : Response} {cause : Json.Error} (status : response.status = 200)
      (parsed : AnnounceReply.parse response.body = .error cause) :
      Refusal (.ok response) (.malformed .unannounced response (.unparseable cause))
  | noId {response : Response} {reply : AnnounceReply} (status : response.status = 200)
      (parsed : AnnounceReply.parse response.body = .ok reply) (id : reply.id = none) :
      Refusal (.ok response) (.malformed .unannounced response .missingId)
  | noKey {response : Response} {reply : AnnounceReply} (status : response.status = 200)
      (parsed : AnnounceReply.parse response.body = .ok reply) (id : reply.id ≠ none)
      (key : reply.key = none) :
      Refusal (.ok response) (.malformed .unannounced response .missingKey)

/-- The fault of a call made in a state: there is no answer, or its status is not among those
expected. -/
inductive Faulty (state : LifecycleState) (expected : List UInt16) :
    Answer → LifecycleError → Prop where
  | unreachable (cause : DirectoryError) :
      Faulty state expected (.error cause) (.transport state cause)
  | status {response : Response} (status : response.status ∉ expected) :
      Faulty state expected (.ok response) (.rejected state response)

/-- The answer is a response of status 200. -/
def IsOk (answer : Answer) : Prop := ∃ response, answer = .ok response ∧ response.status = 200

section Answers

variable {answer : Answer} {response : Response} {reply : AnnounceReply} {credential : Credential}
  {fault : LifecycleError} {state : LifecycleState} {expected : List UInt16}

/-- Every answer to an announcement is accepted or at fault. -/
theorem accepts_or_refusal (answer : Answer) :
    (∃ response reply credential, answer = .ok response ∧ Accepts response reply credential) ∨
      ∃ fault, Refusal answer fault := by
  rcases answer with cause | response
  · exact .inr ⟨_, .unreachable cause⟩
  -- The status is looked at before the body, and the id before the key.
  by_cases status : response.status = 200
  · cases parsed : AnnounceReply.parse response.body with
    | error cause => exact .inr ⟨_, .unparseable status parsed⟩
    | ok reply =>
      cases id : reply.id with
      | none => exact .inr ⟨_, .noId status parsed id⟩
      | some i =>
        cases key : reply.key with
        | none => exact .inr ⟨_, .noKey status parsed (by simp [id]) key⟩
        | some k => exact .inl ⟨response, reply, ⟨i, k⟩, rfl, status, parsed, id, key⟩
  · exact .inr ⟨_, .status status⟩

/-- An accepted announcement is not at fault. -/
theorem Accepts.not_refusal (accepts : Accepts response reply credential) :
    ¬ Refusal (.ok response) fault := by
  rintro (_ | status | ⟨_, parsed⟩ | ⟨_, parsed, id⟩ | ⟨_, parsed, _, key⟩)
  · exact status accepts.status
  -- In the other cases the body is read in two ways.
  all_goals
    have same := accepts.parsed.symm.trans parsed
    simp only [reduceCtorEq, Except.ok.injEq] at same
  · simp [← same, accepts.id] at id
  · simp [← same, accepts.key] at key

/-- A response accepts an announcement with one credential only. -/
theorem Accepts.unique {reply' : AnnounceReply} {credential' : Credential}
    (accepts : Accepts response reply credential) (accepts' : Accepts response reply' credential') :
    reply' = reply ∧ credential' = credential := by
  obtain rfl : reply' = reply := by simpa [accepts.parsed] using accepts'.parsed.symm
  have id := accepts.id.symm.trans accepts'.id
  have key := accepts.key.symm.trans accepts'.key
  cases credential
  cases credential'
  simp_all

/-- An announcement has one fault only. -/
theorem Refusal.unique {fault' : LifecycleError} (refusal : Refusal answer fault)
    (refusal' : Refusal answer fault') : fault' = fault := by
  cases refusal <;> cases refusal' <;> simp_all

/-- A later call has one fault only. -/
theorem Faulty.unique {fault' : LifecycleError} (faulty : Faulty state expected answer fault)
    (faulty' : Faulty state expected answer fault') : fault' = fault := by
  cases faulty <;> cases faulty' <;> rfl

/-- Every answer has one of the expected statuses or is at fault. -/
theorem status_or_faulty (state : LifecycleState) (expected : List UInt16) (answer : Answer) :
    (∃ response, answer = .ok response ∧ response.status ∈ expected) ∨
      ∃ fault, Faulty state expected answer fault := by
  rcases answer with cause | response
  · exact .inr ⟨_, .unreachable cause⟩
  by_cases status : response.status ∈ expected
  · exact .inl ⟨response, rfl, status⟩
  · exact .inr ⟨_, .status status⟩

/-- An answer at fault has none of the expected statuses. -/
theorem Faulty.not_status (faulty : Faulty state expected answer fault) :
    ¬ ∃ response, answer = .ok response ∧ response.status ∈ expected := by
  rintro ⟨response, rfl, status⟩
  cases faulty with
  | status not_mem => exact not_mem status

/-- A refresh at fault has no status 200. -/
theorem Faulty.not_isOk (faulty : Faulty state refreshStatuses answer fault) : ¬ IsOk answer := by
  rintro ⟨response, rfl, status⟩
  exact faulty.not_status ⟨response, rfl, by simp [refreshStatuses, status]⟩

end Answers

namespace Keeper

variable {k : Keeper} {call : Call} {session : Announcement} {credential : Credential}
  {schedule : RefreshSchedule} {count : UInt32} {answer : Answer} {response : Response}
  {reply : AnnounceReply} {fault : LifecycleError}

/-! ## Announcing -/

theorem acceptAnnouncement_of_accepts (config : LifecycleConfig) (state : LifecycleState)
    (accepts : Accepts response reply credential) :
    acceptAnnouncement config state response =
      .ok (credential, reply.lease config.defaultLeaseMinutes) := by
  simp [acceptAnnouncement, Response.isOk, accepts.status, accepts.parsed,
    AnnounceReply.credential?, accepts.id, accepts.key]

/-- After an accepted announcement the keeper waits for the first refresh. -/
theorem answered_announcing_of_accepts (phase : k.phase = .announcing session)
    (accepts : Accepts response reply credential) :
    k.answered call (.ok response) =
      let lease := reply.lease k.config.defaultLeaseMinutes
      let schedule := RefreshSchedule.ofLease lease k.config
      { k with
        state := .refreshing
        past := .announced :: k.state :: k.past
        log := k.log ++ [.call call, .event (.announced credential lease schedule.periodMinutes)]
        phase := .waiting credential schedule 0 } := by
  simp [answered, note, phase, announced, acceptAnnouncement_of_accepts _ _ accepts, report,
    moveTo, enter]

/-- After a refused announcement the run is over, with nothing else done. -/
theorem answered_announcing_of_refusal (phase : k.phase = .announcing session)
    (state : k.state = .unannounced) (refusal : Refusal answer fault) :
    k.answered call answer =
      { k with
        state := .error
        past := .unannounced :: k.past
        log := k.log ++ [.call call]
        phase := .finished (.error fault) } := by
  cases refusal <;>
    simp_all [answered, note, announced, acceptAnnouncement, Response.isOk,
      AnnounceReply.credential?, fail, moveTo, enter]

/-! ## Refreshing -/

/-- After a refresh of status 200 the keeper waits for the next one. -/
theorem answered_refreshing_of_status (phase : k.phase = .refreshing credential schedule count)
    (status : response.status ∈ refreshStatuses) :
    k.answered call (.ok response) =
      { k with
        log := k.log ++ [.call call,
          .event (.refreshed (count + 1) (RefreshReply.messageOf response.body))]
        phase := .waiting credential schedule (count + 1) } := by
  have ok : response.isOk = true := by simpa [Response.isOk, refreshStatuses] using status
  simp [answered, note, phase, refreshed, ok, report, enter]

theorem failRefresh_eq (k : Keeper) (credential : Credential) (fault : LifecycleError) :
    k.failRefresh credential fault =
      { k with
        state := .error
        past := k.state :: k.past
        phase :=
          if k.config.unlistOnRefreshFailure then .cleaning credential fault
          else .finished (.error fault) } := by
  unfold failRefresh
  split <;> simp [fail, moveTo, enter]

/-- After a refresh at fault the keeper is in the error state, and tries to remove the listing if
that is wanted. -/
theorem answered_refreshing_of_faulty (phase : k.phase = .refreshing credential schedule count)
    (faulty : Faulty k.state refreshStatuses answer fault) :
    k.answered call answer =
      { k with
        state := .error
        past := k.state :: k.past
        log := k.log ++ [.call call]
        phase :=
          if k.config.unlistOnRefreshFailure then .cleaning credential fault
          else .finished (.error fault) } := by
  cases faulty with
  | unreachable cause => simp [answered, note, phase, refreshed, failRefresh_eq]
  | @status response status =>
    have bad : response.isOk = false := by simpa [Response.isOk, refreshStatuses] using status
    simp [answered, note, phase, refreshed, bad, failRefresh_eq]

/-! ## Removing -/

/-- After a removal of status 200 or 204 the run has ended well. -/
theorem answered_unlisting_of_status (phase : k.phase = .unlisting credential count)
    (status : response.status ∈ removalStatuses) :
    k.answered call (.ok response) =
      { k with
        state := .terminated
        past := k.state :: k.past
        log := k.log ++ [.call call, .event (.unlisted response.status)]
        phase := .finished (.ok ⟨credential, count, response.status, .terminated⟩) } := by
  have ok : response.isOkOrNoContent = true := by
    simpa [Response.isOkOrNoContent, removalStatuses] using status
  simp [answered, note, phase, unlisted, ok, report, moveTo, enter]

/-- After a removal at fault the run is over. -/
theorem answered_unlisting_of_faulty (phase : k.phase = .unlisting credential count)
    (faulty : Faulty k.state removalStatuses answer fault) :
    k.answered call answer =
      { k with
        state := .error
        past := k.state :: k.past
        log := k.log ++ [.call call]
        phase := .finished (.error fault) } := by
  cases faulty with
  | unreachable cause => simp only [answered, note, phase, unlisted, fail, moveTo, enter]
  | @status response status =>
    have bad : response.isOkOrNoContent = false := by
      simpa [Response.isOkOrNoContent, removalStatuses] using status
    simp [answered, note, phase, unlisted, bad, fail, moveTo, enter]

/-- The status of the answer to a removal that follows a failed refresh, if there is one. -/
def statusOf : Answer → Option UInt16
  | .ok response => some response.status
  | .error _ => none

/-- The removal that follows a failed refresh leaves the fault what it was. -/
theorem answered_cleaning (phase : k.phase = .cleaning credential fault) (answer : Answer) :
    k.answered call answer =
      { k with
        log := k.log ++ [.call call, .event (.cleanupUnlist (statusOf answer))]
        phase := .finished (.error fault) } := by
  cases answer <;> simp [answered, note, phase, cleaned, report, enter, statusOf]

end Keeper

end SessionDirectory
