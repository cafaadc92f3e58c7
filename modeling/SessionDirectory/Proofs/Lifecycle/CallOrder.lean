import SessionDirectory.Proofs.Lifecycle.History

/-!
# The order of the calls of a run

A run announces once, refreshes while the announcement is in force, and removes the listing at most
once. Which of these happens is read off the history of the run.

## Main definitions

* `Announced d session credential`: a server accepts the announcement of a session
* `beatAnswer`: what a server says to the refresh after a number of others
* `CallOrder`: the calls of a run are an announcement, refreshes and at most one removal

## Main results

* `Kept.follows`: what a server and a pacer have said while a listing is kept
* `callOrder_of_left`, `callOrder_of_failed`: the order where a run is cancelled, and where a
  refresh fails
* `callOrder_of_returned`: every run that has returned has made its calls in order
-/

set_option autoImplicit false

namespace SessionDirectory

/-- The server accepts the announcement of a session with a credential. -/
def Announced (d : Directory) (session : Announcement) (credential : Credential) : Prop :=
  ∃ response reply, d [] (.announce session) = .ok response ∧ Accepts response reply credential

/-- The calls of a run up to the refresh after a number of others. -/
def callsBefore (session : Announcement) (credential : Credential) (beats : Nat) : List Call :=
  .announce session :: List.replicate beats credential.heartbeat

/-- What the server says to the refresh after a number of others. -/
def beatAnswer (d : Directory) (session : Announcement) (credential : Credential) (beats : Nat) :
    Answer :=
  d (callsBefore session credential beats) credential.heartbeat

variable {config : LifecycleConfig} {session : Announcement} {credential : Credential}
  {schedule : RefreshSchedule} {n : Nat} {turns : List Turn} {log : List LogEntry} {k : Keeper}
  {d : Directory} {p : Pacer}

/-- While a listing is kept, the server has accepted the announcement and every refresh, and every
pause has elapsed. -/
theorem Kept.follows (kept : Kept config session credential schedule n turns log)
    (follows : Follows d p turns) :
    Announced d session credential ∧ (∀ i < n, IsOk (beatAnswer d session credential i)) ∧
      ∀ i < n, p i schedule.wait = .elapsed := by
  induction kept with
  | accepted accepts of_lease =>
    obtain ⟨answer, -⟩ := follows
    exact ⟨⟨_, _, answer.symm, accepts⟩, by simp, by simp⟩
  | @beat n turns log response kept status ih =>
    rw [follows_append] at follows
    obtain ⟨before, outcome, answer, -⟩ := follows
    obtain ⟨announced, ok, elapsed⟩ := ih before
    -- The calls and the pauses before the last refresh are known, so it is the n-th one.
    rw [callsOf_append, kept.callsOf_eq] at answer
    rw [kept.pausesOf_eq, List.length_replicate] at outcome
    refine ⟨announced, fun i hi => ?_, fun i hi => ?_⟩
    · rcases Nat.lt_succ_iff_lt_or_eq.mp hi with lt | rfl
      · exact ok i lt
      · refine ⟨response, ?_, by simpa [refreshStatuses] using status⟩
        simpa [beatAnswer, callsBefore] using answer.symm
    · rcases Nat.lt_succ_iff_lt_or_eq.mp hi with lt | rfl
      · exact elapsed i lt
      · exact outcome.symm

/-- **The order of the calls of a run**: an announcement, some refreshes and at most one removal,
with the credential that the server has given out. -/
structure CallOrder (config : LifecycleConfig) (d : Directory) (p : Pacer) (session : Announcement)
    (r : Run) (beats removals : List Call) : Prop where
  /-- Nothing else is called, and in no other order. -/
  calls : r.calls = .announce session :: (beats ++ removals)
  removals_le_one : removals.length ≤ 1
  /-- A refresh needs an accepted announcement, has its credential and changes no field. -/
  beats_keep : ∀ call ∈ beats, ∃ credential, Announced d session credential ∧
    call = .update credential.id credential.key SortedMap.empty
  /-- The removal needs an accepted announcement and has its credential. -/
  removals_end : ∀ call ∈ removals, ∃ credential, Announced d session credential ∧
    call = .unlist credential.id credential.key
  /-- A refresh that is followed by another one was answered with 200. -/
  beats_ok : ∀ i call, beats[i]? = some call → i + 1 < beats.length →
    IsOk (d (.announce session :: beats.take i) call)
  /-- The listing is removed if a pause was cancelled, or if a refresh failed and the policy is to
  clean up, and only then. -/
  removals_iff : removals ≠ [] ↔
    (∃ i length, r.pauses[i]? = some length ∧ p i length = .cancelled) ∨
      config.unlistOnRefreshFailure = true ∧
        ∃ i call, beats[i]? = some call ∧ ¬ IsOk (d (.announce session :: beats.take i) call)

/-! ## The endings -/

section Endings

variable {r : Run} {wait : Duration}

theorem heartbeat_of_getElem? (d : Directory) (session : Announcement) {m i : Nat} {call : Call}
    (at_i : (List.replicate m credential.heartbeat)[i]? = some call) :
    i < m ∧ d (.announce session :: (List.replicate m credential.heartbeat).take i) call =
      beatAnswer d session credential i := by
  obtain ⟨lt, rfl⟩ : i < m ∧ credential.heartbeat = call := by
    simpa [List.getElem?_replicate] using at_i
  refine ⟨lt, ?_⟩
  rw [beatAnswer, callsBefore, List.take_replicate, Nat.min_eq_left (Nat.le_of_lt lt)]

theorem heartbeats_keep (announced : Announced d session credential) (m : Nat) :
    ∀ call ∈ List.replicate m credential.heartbeat, ∃ credential, Announced d session credential ∧
      call = .update credential.id credential.key SortedMap.empty := by
  intro call mem
  exact ⟨credential, announced, List.eq_of_mem_replicate mem⟩

/-- Pauses that have all elapsed include none that was cancelled. -/
theorem not_cancelled_of_elapsed {m : Nat} (elapsed : ∀ i < m, p i wait = .elapsed) :
    ¬ ∃ i length, (List.replicate m wait)[i]? = some length ∧ p i length = .cancelled := by
  rintro ⟨i, length, at_i, cancelled⟩
  obtain ⟨lt, rfl⟩ : i < m ∧ wait = length := by
    simpa [List.getElem?_replicate] using at_i
  simp [elapsed i lt] at cancelled

/-- The order where the announcement is refused. -/
theorem callOrder_of_refused (calls : r.calls = [.announce session]) (pauses : r.pauses = []) :
    CallOrder config d p session r [] [] where
  calls := by simp [calls]
  removals_le_one := by simp
  beats_keep := by simp
  removals_end := by simp
  beats_ok := by simp
  removals_iff := by simp [pauses]

/-- The order where a pause is cancelled after refreshes that went well. -/
theorem callOrder_of_left (announced : Announced d session credential)
    (ok : ∀ i < n, IsOk (beatAnswer d session credential i)) (cancelled : p n wait = .cancelled)
    (calls : r.calls = callsBefore session credential n ++ [credential.removal])
    (pauses : r.pauses = List.replicate (n + 1) wait) :
    CallOrder config d p session r (List.replicate n credential.heartbeat)
      [credential.removal] where
  calls := by simp [calls, callsBefore]
  removals_le_one := by simp
  beats_keep := heartbeats_keep announced n
  removals_end := by
    intro call mem
    exact ⟨credential, announced, List.mem_singleton.mp mem⟩
  beats_ok := by
    intro i call at_i _
    obtain ⟨lt, answer⟩ := heartbeat_of_getElem? d session at_i
    rw [answer]
    exact ok i lt
  removals_iff := by
    refine iff_of_true (by simp) (.inl ⟨n, wait, ?_, cancelled⟩)
    simp [pauses]

/-- The order where a refresh fails after others that went well; the policy decides on the
removal. -/
theorem callOrder_of_failed (announced : Announced d session credential)
    (ok : ∀ i < n, IsOk (beatAnswer d session credential i))
    (bad : ¬ IsOk (beatAnswer d session credential n)) (elapsed : ∀ i < n + 1, p i wait = .elapsed)
    {removals : List Call}
    (policy : removals = if config.unlistOnRefreshFailure then [credential.removal] else [])
    (calls : r.calls = callsBefore session credential (n + 1) ++ removals)
    (pauses : r.pauses = List.replicate (n + 1) wait) :
    CallOrder config d p session r (List.replicate (n + 1) credential.heartbeat) removals where
  calls := by simp [calls, callsBefore]
  removals_le_one := by
    rw [policy]
    split <;> simp
  beats_keep := heartbeats_keep announced (n + 1)
  removals_end := by
    intro call mem
    rw [policy] at mem
    split at mem
    · exact ⟨credential, announced, List.mem_singleton.mp mem⟩
    · simp at mem
  beats_ok := by
    intro i call at_i later
    obtain ⟨-, answer⟩ := heartbeat_of_getElem? d session at_i
    rw [List.length_replicate] at later
    rw [answer]
    exact ok i (Nat.lt_of_succ_lt_succ later)
  removals_iff := by
    have last : (List.replicate (n + 1) credential.heartbeat)[n]? = some credential.heartbeat := by
      simp
    -- No pause was cancelled, so the failed refresh and the policy alone decide.
    rw [pauses, iff_false_intro (not_cancelled_of_elapsed elapsed), false_or, policy]
    split
    next cleanup =>
      refine iff_of_true (by simp) ⟨cleanup, n, _, last, ?_⟩
      rw [(heartbeat_of_getElem? d session last).2]
      exact bad
    next leave => simp [leave]

end Endings

/-- While a listing is kept and one more refresh is made, that refresh is the next one of the run
and its pause has elapsed. -/
theorem Kept.follows_beat {answer : Answer} {rest : List Turn}
    (kept : Kept config session credential schedule n turns log)
    (follows : Follows d p
      (turns ++ .pause schedule.wait .elapsed :: .call credential.heartbeat answer :: rest)) :
    answer = beatAnswer d session credential n ∧ ∀ i < n + 1, p i schedule.wait = .elapsed := by
  rw [follows_append] at follows
  obtain ⟨before, outcome, answer, -⟩ := follows
  rw [callsOf_append, kept.callsOf_eq] at answer
  rw [kept.pausesOf_eq, List.length_replicate] at outcome
  refine ⟨by simpa [beatAnswer, callsBefore] using answer, fun i hi => ?_⟩
  rcases Nat.lt_succ_iff_lt_or_eq.mp hi with lt | rfl
  · exact (kept.follows before).2.2 i lt
  · exact outcome.symm

/-- While a listing is kept and the next pause is cancelled, the removal comes right after it. -/
theorem Kept.follows_removal {answer : Answer} {rest : List Turn}
    (kept : Kept config session credential schedule n turns log)
    (follows : Follows d p
      (turns ++ .pause schedule.wait .cancelled :: .call credential.removal answer :: rest)) :
    p n schedule.wait = .cancelled ∧
      answer = d (callsBefore session credential n) credential.removal := by
  rw [follows_append] at follows
  obtain ⟨-, outcome, answer, -⟩ := follows
  rw [callsOf_append, kept.callsOf_eq] at answer
  rw [kept.pausesOf_eq, List.length_replicate] at outcome
  exact ⟨outcome.symm, by simpa [callsBefore] using answer⟩

/-- **Every run of a fresh controller that has returned has made its calls in order.** -/
theorem callOrder_of_returned {steps : Nat} {r : Run} {c : Controller}
    (returned : Controller.run? { config := config } d p session steps = some (r, c)) :
    ∃ beats removals, CallOrder config d p session r beats removals := by
  obtain ⟨turns, k, history, follows, phase, calls, pauses, -, -⟩ :=
    exists_history_of_returned returned
  -- The forms of a history that is over are the five endings.
  cases history with
  | fresh | waiting | due | cleaning | leaving => simp at phase
  | refused refusal => exact ⟨_, _, callOrder_of_refused calls pauses⟩
  | failed kept faulty policy =>
    obtain ⟨announced, ok, -⟩ := kept.follows (follows_append.mp follows).1
    obtain ⟨answer, elapsed⟩ := kept.follows_beat follows
    refine ⟨_, [], callOrder_of_failed announced ok (answer ▸ faulty.not_isOk) elapsed ?_ ?_ ?_⟩
    · simp [policy]
    · simpa [kept.callsOf_eq, callsBefore, List.replicate_succ'] using calls
    · simpa [kept.pausesOf_eq, List.replicate_succ'] using pauses
  | @cleaned credential _ _ _ _ _ _ kept faulty policy _ =>
    obtain ⟨announced, ok, -⟩ := kept.follows (follows_append.mp follows).1
    obtain ⟨answer, elapsed⟩ := kept.follows_beat follows
    refine ⟨_, [credential.removal],
      callOrder_of_failed announced ok (answer ▸ faulty.not_isOk) elapsed ?_ ?_ ?_⟩
    · simp only [policy, ↓reduceIte]
    · simpa [kept.callsOf_eq, callsBefore, List.replicate_succ'] using calls
    · simpa [kept.pausesOf_eq, List.replicate_succ'] using pauses
  | removed kept | unremoved kept =>
    obtain ⟨announced, ok, -⟩ := kept.follows (follows_append.mp follows).1
    refine ⟨_, _, callOrder_of_left announced ok (kept.follows_removal follows).1 ?_ ?_⟩
    · simpa [kept.callsOf_eq, callsBefore] using calls
    · simpa [kept.pausesOf_eq, List.replicate_succ'] using pauses

/-- A server that accepts announcements and removals, and refreshes until it has had a number of
calls. -/
def tiringServer (calls : Nat) : Directory := fun past call =>
  match call with
  | .announce _ => .ok ⟨200, "\x7b\"id\":17,\"key\":\"secret\"\x7d"⟩
  | .update _ _ _ => .ok ⟨if past.length < calls then 200 else 500, ""⟩
  | _ => .ok ⟨204, ""⟩

/-- With a server that is tired after two refreshes, and the policy to clean up, the run returns and
its calls are in order. -/
theorem callOrder_tiringServer :
    ∃ r c, Controller.run? { config := { unlistOnRefreshFailure := true } } (tiringServer 3)
        (.elapsing 9) (.ofDefaults {} "s") 20 = some (r, c) ∧
      ∃ beats removals, CallOrder { unlistOnRefreshFailure := true } (tiringServer 3) (.elapsing 9)
        (.ofDefaults {} "s") r beats removals := by
  obtain ⟨r, c, returned⟩ : ∃ r c, Controller.run? { config := { unlistOnRefreshFailure := true } }
      (tiringServer 3) (.elapsing 9) (.ofDefaults {} "s") 20 = some (r, c) := ⟨_, _, rfl⟩
  exact ⟨r, c, returned, callOrder_of_returned returned⟩

end SessionDirectory
