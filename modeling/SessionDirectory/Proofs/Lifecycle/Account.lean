import SessionDirectory.Proofs.Lifecycle.Lifetime

/-!
# What the log of a run accounts for

The log of a run holds its calls, its pauses and its events in the order in which they happened. An
event stands exactly where what came before it calls for one, and says what happened there. So the
log of a run that has returned accounts for everything: for an accepted announcement, for each
refresh that went well, for a pause that was cancelled and for each removal.

Each position of the log is judged by the moments before it, newest first. A log that is extended is
judged at its new positions only.

## Main definitions

* `Moment`, `momentsOf`: the entries of a log with the answers to calls and the outcomes of pauses
* `Due config session before e`: what came before calls for the event `e` at this point
* `Placed`: a moment stands where it should
* `FinalReports`: what the reports at the end of a log tell
* `Account`: the log of a run accounts for what happened

## Main results

* `eachAfter_append`: a log is judged position by position
* `Kept.account`: while a listing is kept, every moment stands where it should
* `History.account`: so it does in a history that is over
* `account_of_returned`: the log of every run that has returned accounts for what happened
-/

set_option autoImplicit false

namespace SessionDirectory

/-- An entry of a log with the answer to a call or the outcome of a pause. -/
inductive Moment where
  | call (call : Call) (answer : Answer)
  | pause (length : Duration) (outcome : WaitOutcome)
  | event (e : Event)

/-- An entry after others, with what a server or a pacer made of it. -/
def momentAfter (d : Directory) (p : Pacer) (past : List LogEntry) : LogEntry → Moment
  | .call c => .call c (d (past.filterMap LogEntry.call?) c)
  | .pause length => .pause length (p (past.filterMap LogEntry.pause?).length length)
  | .event e => .event e

/-- Entries after others, each with what a server or a pacer made of it. -/
def momentsAfter (d : Directory) (p : Pacer) : List LogEntry → List LogEntry → List Moment
  | _, [] => []
  | past, entry :: log => momentAfter d p past entry :: momentsAfter d p (past ++ [entry]) log

/-- **The moments of a log.** -/
def momentsOf (d : Directory) (p : Pacer) (log : List LogEntry) : List Moment :=
  momentsAfter d p [] log

/-- Whether a refresh went well. -/
def Moment.isGoodBeat : Moment → Bool
  | .call (.update _ _ _) (.ok response) => response.status = 200
  | _ => false

/-- **The event that is due** after some moments, newest first. After all others none is. -/
inductive Due (config : LifecycleConfig) (session : Announcement) : List Moment → Event → Prop where
  /-- An accepted announcement is reported with the lease of the reply, or the configured one. A
  message counts only if it says something. -/
  | announced {before : List Moment} {response : Response} {reply : AnnounceReply}
      {credential : Credential} {lease : Lease} (accepts : Accepts response reply credential)
      (minutes : lease.minutes = reply.expires.getD config.defaultLeaseMinutes)
      (message : ∀ m, lease.message = some m ↔ reply.message = some m ∧ m ≠ "") :
      Due config session (.call (.announce session) (.ok response) :: before)
        (.announced credential lease (RefreshSchedule.ofLease lease config).periodMinutes)
  /-- A refresh that went well is reported with its number and the message of the answer. -/
  | refreshed {before : List Moment} {response : Response} {id : ListingId} {key : String}
      {count : UInt32} {message : Option String} (status : response.status = 200)
      (number : count.toNat = before.countP Moment.isGoodBeat + 1)
      (told : ∀ m, message = some m ↔
        ∃ reply, RefreshReply.parse response.body = .ok reply ∧ reply.message = some m ∧ m ≠ "") :
      Due config session (.call (.update id key SortedMap.empty) (.ok response) :: before)
        (.refreshed count message)
  | cancelled {before : List Moment} {length : Duration} :
      Due config session (.pause length .cancelled :: before) .cancelled
  /-- The removal of a run that was cancelled is reported with its status, if it went well. -/
  | unlisted {before : List Moment} {response : Response} {id : ListingId} {key : String}
      (status : response.status = 200 ∨ response.status = 204) :
      Due config session (.call (.unlist id key) (.ok response) :: .event .cancelled :: before)
        (.unlisted response.status)
  /-- The removal after a refresh that failed is reported whatever came of it. -/
  | cleanupUnlist {before : List Moment} {answer removal : Answer} {id : ListingId} {key : String}
      (failed : ¬ IsOk answer) :
      Due config session
        (.call (.unlist id key) removal :: .call (.update id key SortedMap.empty) answer :: before)
        (.cleanupUnlist (match removal with
          | .ok response => some response.status
          | .error _ => none))

/-- **A moment stands where it should** after some others, newest first. -/
structure Placed (config : LifecycleConfig) (session : Announcement) (d : Directory)
    (before : List Moment) (m : Moment) : Prop where
  /-- It is an event if and only if that event is due. -/
  event : ∀ e, m = .event e ↔ Due config session before e
  /-- A refresh comes directly after one pause, which has elapsed. -/
  beat : ∀ id key fields answer, m = .call (.update id key fields) answer →
    ∃ length rest, before = .pause length .elapsed :: rest ∧
      ∀ length' outcome rest', rest ≠ .pause length' outcome :: rest'
  /-- A pause lasts as long as the lease of the accepted announcement demands. -/
  wait : ∀ length outcome, m = .pause length outcome →
    ∃ response reply credential, d [] (.announce session) = .ok response ∧
      Accepts response reply credential ∧
      length = (RefreshSchedule.ofLease (reply.lease config.defaultLeaseMinutes) config).wait

/-- What the reports at the end of a log tell. -/
structure FinalReports (config : LifecycleConfig) (moments : List Moment)
    (result : Except LifecycleError Outcome) : Prop where
  /-- The report of a cancellation is directly followed by the removal. -/
  cancelled : ∀ i, moments[i]? = some (.event .cancelled) →
    ∃ id key answer, moments[i + 1]? = some (.call (.unlist id key) answer)
  /-- A removal is reported, as the last thing, exactly if the run has ended well. -/
  unlisted : ∀ i status, moments[i]? = some (.event (.unlisted status)) ↔
    i + 1 = moments.length ∧ ∃ outcome, result = .ok outcome ∧ outcome.unlistStatus = status
  /-- The report of a removal after a failed refresh is the last thing. -/
  cleaned : ∀ i status, moments[i]? = some (.event (.cleanupUnlist status)) →
    i + 1 = moments.length
  /-- There is one exactly if a refresh has failed and the policy is to clean up. -/
  cleaned_iff : (∃ status, .event (.cleanupUnlist status) ∈ moments) ↔
    config.unlistOnRefreshFailure = true ∧
      ∃ id key fields answer, .call (.update id key fields) answer ∈ moments ∧ ¬ IsOk answer

/-- **The log of a run accounts for what happened.** -/
structure Account (config : LifecycleConfig) (session : Announcement) (d : Directory)
    (moments : List Moment) (result : Except LifecycleError Outcome) : Prop where
  /-- Every moment stands where it should. -/
  placed : ∀ i m, moments[i]? = some m → Placed config session d (moments.take i).reverse m
  /-- No event is missing, at the end of the log neither. -/
  reported : ∀ i e, Due config session (moments.take i).reverse e → moments[i]? = some (.event e)
  reports : FinalReports config moments result

variable {config : LifecycleConfig} {session : Announcement} {credential : Credential}
  {schedule : RefreshSchedule} {n : Nat} {turns : List Turn} {log : List LogEntry} {k : Keeper}
  {d : Directory} {p : Pacer} {before : List Moment} {response : Response} {answer : Answer}

/-! ## Positions of a list -/

section Positions

variable {α : Type} {P : List α → α → Prop}

/-- Every element of a list has a property that depends on the elements before it, newest first. -/
def EachAfter (P : List α → α → Prop) : List α → List α → Prop
  | _, [] => True
  | before, a :: rest => P before a ∧ EachAfter P (a :: before) rest

/-- A list that is extended has to be judged at its new positions only. -/
theorem eachAfter_append {before as bs : List α} :
    EachAfter P before (as ++ bs) ↔
      EachAfter P before as ∧ EachAfter P (as.reverse ++ before) bs := by
  induction as generalizing before with
  | nil => simp [EachAfter]
  | cons a as ih => simp [EachAfter, ih, and_assoc]

theorem EachAfter.of_getElem? {before as : List α} (each : EachAfter P before as) {i : Nat} {a : α}
    (at_i : as[i]? = some a) : P ((as.take i).reverse ++ before) a := by
  induction as generalizing before i with
  | nil => simp at at_i
  | cons b as ih =>
    obtain ⟨first, rest⟩ := each
    cases i with
    | zero =>
      obtain rfl : b = a := by simpa using at_i
      simpa using first
    | succ i => simpa using ih rest (by simpa using at_i)

end Positions

/-! ## What is due

After a moment that calls for a report the event of that report is due, and no other one: each
`due_iff` lemma is about one of the five kinds of events. After all other moments nothing is due. -/

theorem not_due_nil {e : Event} : ¬ Due config session [] e := nofun

theorem not_due_event {e e' : Event} : ¬ Due config session (.event e :: before) e' := nofun

theorem not_due_elapsed {length : Duration} {e : Event} :
    ¬ Due config session (.pause length .elapsed :: before) e := nofun

theorem not_due_of_refusal {fault : LifecycleError} {e : Event} (refusal : Refusal answer fault) :
    ¬ Due config session (.call (.announce session) answer :: before) e := by
  intro due
  cases due with
  | announced accepts => exact accepts.not_refusal refusal

theorem not_due_of_failed {e : Event} (failed : ¬ IsOk answer) :
    ¬ Due config session (.call credential.heartbeat answer :: before) e := by
  intro due
  rw [Credential.heartbeat] at due
  cases due with
  | refreshed status => exact failed ⟨_, rfl, status⟩

theorem not_due_of_unremoved {fault : LifecycleError} {e : Event}
    (faulty : Faulty .unlisting removalStatuses answer fault) :
    ¬ Due config session (.call credential.removal answer :: .event .cancelled :: before) e := by
  intro due
  rw [Credential.removal] at due
  cases due with
  | unlisted status => exact faulty.not_status ⟨_, rfl, by simpa [removalStatuses] using status⟩

theorem lease_message {reply : AnnounceReply} {minutes : Int64} (m : String) :
    (reply.lease minutes).message = some m ↔ reply.message = some m ∧ m ≠ "" := by
  simp [AnnounceReply.lease, Option.filter_eq_some_iff]

theorem messageOf_eq_some_iff {body m : String} :
    RefreshReply.messageOf body = some m ↔
      ∃ reply, RefreshReply.parse body = .ok reply ∧ reply.message = some m ∧ m ≠ "" := by
  unfold RefreshReply.messageOf
  cases RefreshReply.parse body with
  | error e => simp
  | ok reply => simp [Option.filter_eq_some_iff]

theorem due_announced_iff {reply : AnnounceReply} {e : Event}
    (accepts : Accepts response reply credential) :
    Due config session (.call (.announce session) (.ok response) :: before) e ↔
      e = .announced credential (reply.lease config.defaultLeaseMinutes)
        (RefreshSchedule.ofLease (reply.lease config.defaultLeaseMinutes) config).periodMinutes := by
  constructor
  · intro due
    cases due with
    | @announced _ _ reply' credential' lease accepts' minutes message =>
      -- The body has one reading only, and the lease is told by its two parts.
      obtain ⟨rfl, rfl⟩ := accepts.unique accepts'
      have same : lease = reply'.lease config.defaultLeaseMinutes := by
        have messages : lease.message = (reply'.lease config.defaultLeaseMinutes).message := by
          apply Option.ext
          intro m
          rw [message, lease_message]
        cases lease
        simp_all [AnnounceReply.lease]
      rw [same]
  · rintro rfl
    exact .announced accepts rfl fun m => lease_message m

theorem due_refreshed_iff {e : Event} {count : UInt32} (status : response.status = 200)
    (number : count.toNat = before.countP Moment.isGoodBeat + 1) :
    Due config session (.call credential.heartbeat (.ok response) :: before) e ↔
      e = .refreshed count (RefreshReply.messageOf response.body) := by
  rw [Credential.heartbeat]
  constructor
  · intro due
    cases due with
    | @refreshed _ _ _ _ count' message _ number' told =>
      have numbers : count' = count := UInt32.toNat_inj.mp (number'.trans number.symm)
      have messages : message = RefreshReply.messageOf response.body := by
        apply Option.ext
        intro m
        rw [told, messageOf_eq_some_iff]
      rw [numbers, messages]
  · rintro rfl
    exact .refreshed status number fun m => messageOf_eq_some_iff

theorem due_cancelled_iff {length : Duration} {e : Event} :
    Due config session (.pause length .cancelled :: before) e ↔ e = .cancelled := by
  constructor
  · intro due
    cases due
    rfl
  · rintro rfl
    exact .cancelled

theorem due_unlisted_iff {e : Event} (status : response.status ∈ removalStatuses) :
    Due config session
        (.call credential.removal (.ok response) :: .event .cancelled :: before) e ↔
      e = .unlisted response.status := by
  rw [Credential.removal]
  constructor
  · intro due
    cases due
    rfl
  · rintro rfl
    exact .unlisted (by simpa [removalStatuses] using status)

theorem due_cleanupUnlist_iff {removal : Answer} {e : Event} (failed : ¬ IsOk answer) :
    Due config session
        (.call credential.removal removal :: .call credential.heartbeat answer :: before) e ↔
      e = .cleanupUnlist (Keeper.statusOf removal) := by
  have same : Keeper.statusOf removal = match removal with
      | .ok response => some response.status
      | .error _ => none := by
    cases removal <;> rfl
  rw [Credential.removal, Credential.heartbeat, same]
  constructor
  · intro due
    cases due
    rfl
  · rintro rfl
    exact .cleanupUnlist failed

/-! ## Moments that stand where they should -/

/-- An event that is due, and the only one that is, stands where it should. -/
theorem placed_event {e : Event} (due : ∀ e', Due config session before e' ↔ e' = e) :
    Placed config session d before (.event e) where
  event e' := by
    rw [due, Moment.event.injEq]
    exact eq_comm
  beat := nofun
  wait := nofun

/-- A call that is no refresh may stand where no event is due. -/
theorem placed_call {call : Call} (quiet : ∀ e, ¬ Due config session before e)
    (other : call.operation ≠ .update) : Placed config session d before (.call call answer) where
  event e := iff_of_false nofun (quiet e)
  beat := by
    rintro id key fields answer' same
    obtain ⟨rfl, -⟩ := Moment.call.inj same
    exact absurd rfl other
  wait := nofun

theorem placed_beat {call : Call} {length : Duration} {e : Event} :
    Placed config session d (.pause length .elapsed :: .event e :: before) (.call call answer) where
  event e' := iff_of_false nofun not_due_elapsed
  beat := by
    intro _ _ _ _ _
    exact ⟨length, _, rfl, nofun⟩
  wait := nofun

/-- The keeping of a listing pauses for the time that its lease demands. -/
def Demands (config : LifecycleConfig) (session : Announcement) (d : Directory)
    (schedule : RefreshSchedule) : Prop :=
  ∃ response reply credential, d [] (.announce session) = .ok response ∧
    Accepts response reply credential ∧
    schedule = .ofLease (reply.lease config.defaultLeaseMinutes) config

theorem placed_pause {outcome : WaitOutcome} {e : Event} (demands : Demands config session d schedule) :
    Placed config session d (.event e :: before) (.pause schedule.wait outcome) where
  event e' := iff_of_false nofun not_due_event
  beat := nofun
  wait := by
    rintro length outcome' same
    obtain ⟨rfl, -⟩ := Moment.pause.inj same
    obtain ⟨response, reply, credential, answer, accepts, rfl⟩ := demands
    exact ⟨response, reply, credential, answer, accepts, rfl⟩

/-! ## The moments of a history -/

theorem momentsOf_append (log log' : List LogEntry) :
    momentsOf d p (log ++ log') = momentsOf d p log ++ momentsAfter d p log log' := by
  have general : ∀ past, momentsAfter d p past (log ++ log') =
      momentsAfter d p past log ++ momentsAfter d p (past ++ log) log' := by
    induction log with
    | nil => simp [momentsAfter]
    | cons entry log ih => simp [momentsAfter, ih]
  exact general []

/-- Turns in the places of the calls and the pauses of a log. -/
inductive Fills : List Turn → List LogEntry → List Moment → Prop where
  | nil : Fills [] [] []
  | call {turns : List Turn} {log : List LogEntry} {ms : List Moment} {call : Call} {answer : Answer}
      (fills : Fills turns log ms) :
      Fills (.call call answer :: turns) (.call call :: log) (.call call answer :: ms)
  | pause {turns : List Turn} {log : List LogEntry} {ms : List Moment} {length : Duration}
      {outcome : WaitOutcome} (fills : Fills turns log ms) :
      Fills (.pause length outcome :: turns) (.pause length :: log) (.pause length outcome :: ms)
  | event {turns : List Turn} {log : List LogEntry} {ms : List Moment} {e : Event}
      (fills : Fills turns log ms) : Fills turns (.event e :: log) (.event e :: ms)

/-- **The moments of a log are its turns**, if these follow a server and a pacer. -/
theorem Fills.momentsAfter_eq {turns' : List Turn} {log' : List LogEntry} {ms : List Moment}
    (fills : Fills turns' log' ms) (calls : log.filterMap LogEntry.call? = callsOf turns)
    (pauses : log.filterMap LogEntry.pause? = pausesOf turns)
    (follows : FollowsAfter d p turns turns') : momentsAfter d p log log' = ms := by
  -- The induction is on the turns, after any others that agree with the log so far.
  induction fills generalizing log turns with
  | nil => rfl
  | call _ ih =>
    obtain ⟨answered, follows⟩ := follows
    rw [momentsAfter, momentAfter, calls, ← answered, ih _ _ follows]
    · simp [calls, LogEntry.call?]
    · simp [pauses, List.filterMap_cons, LogEntry.pause?]
  | pause _ ih =>
    obtain ⟨ended, follows⟩ := follows
    rw [momentsAfter, momentAfter, pauses, ← ended, ih _ _ follows]
    · simp [calls, List.filterMap_cons, LogEntry.call?]
    · simp [pauses, LogEntry.pause?]
  | event _ ih =>
    rw [momentsAfter, momentAfter, ih _ _ follows]
    · simp [calls, List.filterMap_cons, LogEntry.call?]
    · simp [pauses, List.filterMap_cons, LogEntry.pause?]

/-- The refreshes of a listing that is kept are among those of the turns. -/
theorem Kept.lt_of_updates {m : Nat} {turns' : List Turn}
    (kept : Kept config session credential schedule n turns log)
    (small : (updatesOf (callsOf (turns ++ turns'))).length < m) : n < m := by
  have length : (updatesOf (callsOf turns)).length = n := by
    simp [kept.callsOf_eq, updatesOf, Call.operation, Credential.heartbeat]
  rw [callsOf_append, updatesOf_append, List.length_append, length] at small
  omega

theorem Kept.momentsOf_append {turns' : List Turn} {log' : List LogEntry} {ms : List Moment}
    (kept : Kept config session credential schedule n turns log)
    (follows : Follows d p (turns ++ turns')) (fills : Fills turns' log' ms) :
    momentsOf d p (log ++ log') = momentsOf d p log ++ ms := by
  rw [SessionDirectory.momentsOf_append,
    fills.momentsAfter_eq kept.log_eq.1 kept.log_eq.2 (follows_append.mp follows).2]

/-! ## While a listing is kept -/

/-- Whether a moment belongs to an ending: a refresh that failed, and the reports of a cancellation
and of a removal. -/
def Moment.IsLate : Moment → Prop
  | .event .cancelled | .event (.unlisted _) | .event (.cleanupUnlist _) => True
  | .call (.update _ _ _) answer => ¬ IsOk answer
  | _ => False

/-- What is known of the moments while a listing is kept. -/
structure KeptMoments (config : LifecycleConfig) (session : Announcement) (d : Directory)
    (schedule : RefreshSchedule) (n : Nat) (ms : List Moment) : Prop where
  placed : EachAfter (Placed config session d) [] ms
  demands : Demands config session d schedule
  beats : ms.reverse.countP Moment.isGoodBeat = n
  last : ∃ e before, ms.reverse = .event e :: before
  early : ∀ m ∈ ms, ¬ m.IsLate

theorem keptMoments_accepted {reply : AnnounceReply} (accepts : Accepts response reply credential)
    (of_lease : schedule = .ofLease (reply.lease config.defaultLeaseMinutes) config)
    (answer : d [] (.announce session) = .ok response) :
    KeptMoments config session d schedule 0 [.call (.announce session) (.ok response),
      .event (.announced credential (reply.lease config.defaultLeaseMinutes)
        schedule.periodMinutes)] where
  placed := by
    refine ⟨placed_call (fun _ => not_due_nil) (by simp [Call.operation]), ?_, trivial⟩
    rw [of_lease]
    exact placed_event fun e => due_announced_iff accepts
  demands := ⟨response, reply, credential, answer, accepts, of_lease⟩
  beats := rfl
  last := ⟨_, _, rfl⟩
  early := by
    intro m mem
    rcases List.mem_pair.mp mem with rfl | rfl <;> exact id

/-- A pause that elapses and a refresh that goes well add three moments. -/
theorem KeptMoments.beat {ms : List Moment} (kept : KeptMoments config session d schedule n ms)
    (small : n + 1 < UInt32.size) (status : response.status = 200) :
    KeptMoments config session d schedule (n + 1) (ms ++ [.pause schedule.wait .elapsed,
      .call credential.heartbeat (.ok response),
      .event (.refreshed (.ofNat (n + 1)) (RefreshReply.messageOf response.body))]) where
  placed := by
    obtain ⟨e, before, last⟩ := kept.last
    -- The pause in between is no refresh, and the number of this one still fits its word.
    have number : (UInt32.ofNat (n + 1)).toNat =
        (Moment.pause schedule.wait .elapsed :: ms.reverse).countP Moment.isGoodBeat + 1 := by
      rw [List.countP_cons_of_neg (by simp [Moment.isGoodBeat]), kept.beats]
      exact UInt32.toNat_ofNat_of_lt small
    rw [eachAfter_append, List.append_nil]
    refine ⟨kept.placed, ?_, ?_, placed_event fun e => due_refreshed_iff status number, trivial⟩
    · rw [last]
      exact placed_pause kept.demands
    · rw [last]
      exact placed_beat
  demands := kept.demands
  beats := by
    simp [kept.beats, Moment.isGoodBeat, Credential.heartbeat, status]
  last := ⟨_, _, List.reverse_append⟩
  early := by
    intro m mem
    rcases List.mem_append.mp mem with old | new
    · exact kept.early m old
    · simp only [List.mem_cons, List.not_mem_nil, or_false] at new
      rcases new with rfl | rfl | rfl
      · exact id
      · exact fun late => late ⟨response, rfl, status⟩
      · exact id

/-- **While a listing is kept, every moment stands where it should.** -/
theorem Kept.account (kept : Kept config session credential schedule n turns log)
    (follows : Follows d p turns) (small : n < UInt32.size) :
    KeptMoments config session d schedule n (momentsOf d p log) := by
  -- The induction is on the refreshes that went well.
  induction kept with
  | accepted accepts of_lease =>
    obtain ⟨answer, -⟩ := follows
    have moments := keptMoments_accepted accepts of_lease answer.symm
    rw [answer] at moments
    exact moments
  | @beat n turns log response kept status ih =>
    rw [kept.momentsOf_append follows (.pause (.call (.event .nil)))]
    exact (ih (follows_append.mp follows).1 (by omega)).beat small
      (by simpa [refreshStatuses] using status)

/-! ## At the end of a run -/

section Endings

variable {ms tail : List Moment} {result : Except LifecycleError Outcome} {fault : LifecycleError}

/-- A log whose moments stand where they should and after which nothing is due accounts for what
happened. -/
theorem account_of_each (placed : EachAfter (Placed config session d) [] ms)
    (settled : ∀ e, ¬ Due config session ms.reverse e) (reports : FinalReports config ms result) :
    Account config session d ms result where
  placed i m at_i := by simpa using placed.of_getElem? at_i
  reported i e due := by
    -- Inside the log the moment at this place tells, and at its end nothing is due.
    cases at_i : ms[i]? with
    | some m =>
      have stands : Placed config session d (ms.take i).reverse m := by
        simpa using placed.of_getElem? at_i
      rw [(stands.event e).mpr due]
    | none =>
      rw [List.take_of_length_le (List.getElem?_eq_none_iff.mp at_i)] at due
      exact absurd due (settled e)
  reports := reports

theorem getElem?_append_of_isLate {i : Nat} {m : Moment} (early : ∀ m ∈ ms, ¬ m.IsLate)
    (at_i : (ms ++ tail)[i]? = some m) (late : m.IsLate) :
    ∃ j, i = ms.length + j ∧ tail[j]? = some m := by
  -- A late moment is none of those before.
  by_cases lt : i < ms.length
  · rw [List.getElem?_append_left lt] at at_i
    exact absurd late (early m (List.mem_of_getElem? at_i))
  · refine ⟨i - ms.length, by omega, ?_⟩
    rwa [List.getElem?_append_right (by omega)] at at_i

/-- The reports at the end of a log may be looked for after the moments of a listing that is
kept. -/
theorem FinalReports.after (reports : FinalReports config tail result) (some : tail ≠ [])
    (early : ∀ m ∈ ms, ¬ m.IsLate) : FinalReports config (ms ++ tail) result where
  cancelled i at_i := by
    obtain ⟨j, rfl, at_j⟩ := getElem?_append_of_isLate early at_i trivial
    obtain ⟨id, key, answer, next⟩ := reports.cancelled j at_j
    refine ⟨id, key, answer, ?_⟩
    rw [Nat.add_assoc, List.getElem?_append_right (by omega), Nat.add_sub_cancel_left]
    exact next
  unlisted i status := by
    have pos := List.length_pos_iff.mpr some
    rw [List.length_append]
    constructor
    · intro at_i
      obtain ⟨j, rfl, at_j⟩ := getElem?_append_of_isLate early at_i trivial
      obtain ⟨last, well⟩ := (reports.unlisted j status).mp at_j
      exact ⟨by omega, well⟩
    · rintro ⟨last, well⟩
      rw [List.getElem?_append_right (by omega)]
      exact (reports.unlisted _ status).mpr ⟨by omega, well⟩
  cleaned i status at_i := by
    obtain ⟨j, rfl, at_j⟩ := getElem?_append_of_isLate early at_i trivial
    have last := reports.cleaned j status at_j
    rw [List.length_append]
    omega
  cleaned_iff := by
    constructor
    · rintro ⟨status, mem⟩
      rcases List.mem_append.mp mem with old | new
      · exact absurd trivial (early _ old)
      · obtain ⟨policy, id, key, fields, answer, beat, failed⟩ := reports.cleaned_iff.mp ⟨status, new⟩
        exact ⟨policy, id, key, fields, answer, List.mem_append_right _ beat, failed⟩
    · rintro ⟨policy, id, key, fields, answer, mem, failed⟩
      rcases List.mem_append.mp mem with old | new
      · exact absurd failed (early _ old)
      · obtain ⟨status, report⟩ := reports.cleaned_iff.mpr ⟨policy, id, key, fields, answer, new, failed⟩
        exact ⟨status, List.mem_append_right _ report⟩

/-- The log of a listing that was kept accounts for what happened if its ending does. -/
theorem KeptMoments.account (kept : KeptMoments config session d schedule n ms)
    (placed : EachAfter (Placed config session d) ms.reverse tail)
    (settled : ∀ e, ¬ Due config session (tail.reverse ++ ms.reverse) e)
    (reports : FinalReports config tail result) (some : tail ≠ []) :
    Account config session d (ms ++ tail) result := by
  apply account_of_each
  · rw [eachAfter_append, List.append_nil]
    exact ⟨kept.placed, placed⟩
  · rw [List.reverse_append]
    exact settled
  · exact reports.after some kept.early

theorem finalReports_of_refused :
    FinalReports config [.call (.announce session) answer] (.error fault) where
  cancelled i at_i := by rcases i with _ | i <;> simp at at_i
  unlisted i status := by rcases i with _ | i <;> simp
  cleaned i status at_i := by rcases i with _ | i <;> simp at at_i
  cleaned_iff := by simp

variable (config session d) in
theorem account_of_refused (refusal : Refusal answer fault) :
    Account config session d [.call (.announce session) answer] (.error fault) := by
  apply account_of_each
  · exact ⟨placed_call (fun _ => not_due_nil) (by simp [Call.operation]), trivial⟩
  · exact fun e => not_due_of_refusal refusal
  · exact finalReports_of_refused

/-- The account of a run that ends with a failed refresh. -/
theorem KeptMoments.account_of_failed (kept : KeptMoments config session d schedule n ms)
    (failed : ¬ IsOk answer) (policy : config.unlistOnRefreshFailure = false) :
    Account config session d
      (ms ++ [.pause schedule.wait .elapsed, .call credential.heartbeat answer])
      (.error fault) := by
  obtain ⟨e, before, last⟩ := kept.last
  apply kept.account
  · rw [last]
    exact ⟨placed_pause kept.demands, placed_beat, trivial⟩
  · exact fun e => not_due_of_failed failed
  · constructor
    · intro i at_i
      rcases i with _ | _ | i <;> simp at at_i
    · intro i status
      rcases i with _ | _ | i <;> simp
    · intro i status at_i
      rcases i with _ | _ | i <;> simp at at_i
    · simp [policy]
  · simp

/-- The account of a run that ends with the removal after a failed refresh. -/
theorem KeptMoments.account_of_cleaned (kept : KeptMoments config session d schedule n ms)
    (failed : ¬ IsOk answer) (policy : config.unlistOnRefreshFailure = true) (removal : Answer) :
    Account config session d
      (ms ++ [.pause schedule.wait .elapsed, .call credential.heartbeat answer,
        .call credential.removal removal, .event (.cleanupUnlist (Keeper.statusOf removal))])
      (.error fault) := by
  obtain ⟨e, before, last⟩ := kept.last
  apply kept.account
  · rw [last]
    refine ⟨placed_pause kept.demands, placed_beat, ?_, ?_, trivial⟩
    · exact placed_call (fun e => not_due_of_failed failed)
        (by simp [Credential.removal, Call.operation])
    · exact placed_event fun e => due_cleanupUnlist_iff failed
  · exact fun e => not_due_event
  · constructor
    · intro i at_i
      rcases i with _ | _ | _ | _ | i <;> simp at at_i
    · intro i status
      rcases i with _ | _ | _ | _ | i <;> simp
    · intro i status at_i
      rcases i with _ | _ | _ | _ | i <;> simp at at_i
      rfl
    · refine iff_of_true ⟨_, by simp; rfl⟩ ⟨policy, ?_⟩
      exact ⟨credential.id, credential.key, SortedMap.empty, answer,
        by simp [Credential.heartbeat], failed⟩
  · simp

/-- The account of a run that was cancelled and ends with the removal of the listing. -/
theorem KeptMoments.account_of_removed (kept : KeptMoments config session d schedule n ms)
    {outcome : Outcome} (status : response.status ∈ removalStatuses)
    (told : outcome.unlistStatus = response.status) :
    Account config session d
      (ms ++ [.pause schedule.wait .cancelled, .event .cancelled,
        .call credential.removal (.ok response), .event (.unlisted response.status)])
      (.ok outcome) := by
  obtain ⟨e, before, last⟩ := kept.last
  apply kept.account
  · rw [last]
    refine ⟨placed_pause kept.demands, placed_event fun e => due_cancelled_iff, ?_, ?_, trivial⟩
    · exact placed_call (fun e => not_due_event) (by simp [Credential.removal, Call.operation])
    · exact placed_event fun e => due_unlisted_iff status
  · exact fun e => not_due_event
  · constructor
    · intro i at_i
      rcases i with _ | _ | _ | _ | i <;> simp at at_i
      exact ⟨credential.id, credential.key, _, rfl⟩
    · intro i status
      rcases i with _ | _ | _ | _ | i <;> simp [told]
    · intro i status at_i
      rcases i with _ | _ | _ | _ | i <;> simp at at_i
    · simp [Credential.removal]
  · simp

/-- The account of a run that was cancelled and whose removal of the listing failed. -/
theorem KeptMoments.account_of_unremoved (kept : KeptMoments config session d schedule n ms)
    {cause : LifecycleError} (faulty : Faulty .unlisting removalStatuses answer cause) :
    Account config session d
      (ms ++ [.pause schedule.wait .cancelled, .event .cancelled, .call credential.removal answer])
      (.error fault) := by
  obtain ⟨e, before, last⟩ := kept.last
  apply kept.account
  · rw [last]
    refine ⟨placed_pause kept.demands, placed_event fun e => due_cancelled_iff, ?_, trivial⟩
    exact placed_call (fun e => not_due_event) (by simp [Credential.removal, Call.operation])
  · exact fun e => not_due_of_unremoved faulty
  · constructor
    · intro i at_i
      rcases i with _ | _ | _ | i <;> simp at at_i
      exact ⟨credential.id, credential.key, answer, rfl⟩
    · intro i status
      rcases i with _ | _ | _ | i <;> simp
    · intro i status at_i
      rcases i with _ | _ | _ | i <;> simp at at_i
    · simp [Credential.removal]
  · simp

end Endings

/-- **The log of a run that is over accounts for what happened.** -/
theorem History.account {result : Except LifecycleError Outcome}
    (history : History config session turns k) (follows : Follows d p turns)
    (small : (updatesOf k.calls).length < UInt32.size) (phase : k.phase = .finished result) :
    Account config session d (momentsOf d p k.log) result := by
  rw [history.calls_eq] at small
  -- The moments are those of the listing while it was kept, and those of one of the five endings.
  cases history with
  | fresh | waiting | due | cleaning | leaving => simp at phase
  | refused refusal =>
    obtain rfl := Phase.finished.inj phase
    obtain ⟨answer, -⟩ := follows
    have account := account_of_refused config session d refusal
    rw [answer] at account
    exact account
  | failed kept faulty policy =>
    obtain rfl := Phase.finished.inj phase
    rw [kept.momentsOf_append follows (.pause (.call .nil))]
    have moments := kept.account (follows_append.mp follows).1 (kept.lt_of_updates small)
    exact moments.account_of_failed faulty.not_isOk policy
  | cleaned kept faulty policy removal =>
    obtain rfl := Phase.finished.inj phase
    rw [kept.momentsOf_append follows (.pause (.call (.call (.event .nil))))]
    have moments := kept.account (follows_append.mp follows).1 (kept.lt_of_updates small)
    exact moments.account_of_cleaned faulty.not_isOk policy removal
  | removed kept status =>
    obtain rfl := Phase.finished.inj phase
    rw [kept.momentsOf_append follows (.pause (.event (.call (.event .nil))))]
    have moments := kept.account (follows_append.mp follows).1 (kept.lt_of_updates small)
    exact moments.account_of_removed status rfl
  | unremoved kept faulty =>
    obtain rfl := Phase.finished.inj phase
    rw [kept.momentsOf_append follows (.pause (.event (.call .nil)))]
    have moments := kept.account (follows_append.mp follows).1 (kept.lt_of_updates small)
    exact moments.account_of_unremoved faulty

/-- **The log of every run that has returned accounts for what happened**, whatever runs the
controller has made before. -/
theorem account_of_returned {runs : List Run} {left : List LifecycleState} {c c' : Controller}
    {r : Run} {steps : Nat} (life : Life config runs left c)
    (returned : c.run? d p session steps = some (r, c'))
    (small : (updatesOf r.calls).length < UInt32.size) :
    Account config session d (momentsOf d p r.log) r.result := by
  rcases life.new_or_spent with ⟨rfl, rfl, rfl⟩ | spent
  · obtain ⟨turns, history, follows, -⟩ := exists_history_of_start config session d p steps
    obtain ⟨phase, log, -, -⟩ := Controller.finished_of_run? returned
    rw [Run.calls, log] at small
    rw [log]
    exact history.account follows small phase
  · rw [Controller.run?_of_ended spent.ended] at returned
    obtain ⟨rfl, rfl⟩ := by simpa using returned
    -- Nothing has happened, and there is nothing to account for.
    apply account_of_each
    · trivial
    · exact fun e => not_due_nil
    · constructor <;> simp [momentsOf, momentsAfter]

/-- The log of a run accounts for what happened where the server is tired after two refreshes and
the policy is to clean up. -/
theorem account_tiringServer :
    ∃ r c, Life { unlistOnRefreshFailure := true } [] []
        { config := { unlistOnRefreshFailure := true } } ∧
      Controller.run? { config := { unlistOnRefreshFailure := true } } (tiringServer 3)
        (.elapsing 9) (.ofDefaults {} "s") 20 = some (r, c) ∧
      (updatesOf r.calls).length < UInt32.size ∧ r.log.length = 12 ∧
      Account { unlistOnRefreshFailure := true } (.ofDefaults {} "s") (tiringServer 3)
        (momentsOf (tiringServer 3) (.elapsing 9) r.log) r.result := by
  obtain ⟨r, c, returned, small, length⟩ : ∃ r c,
      Controller.run? { config := { unlistOnRefreshFailure := true } } (tiringServer 3)
        (.elapsing 9) (.ofDefaults {} "s") 20 = some (r, c) ∧
      (updatesOf r.calls).length = 3 ∧ r.log.length = 12 := ⟨_, _, rfl, rfl, rfl⟩
  have small : (updatesOf r.calls).length < UInt32.size := by
    rw [small]
    decide
  exact ⟨r, c, .new, returned, small, length, account_of_returned .new returned small⟩

end SessionDirectory
