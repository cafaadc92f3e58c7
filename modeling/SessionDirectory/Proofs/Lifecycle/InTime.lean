import SessionDirectory.Proofs.Lifecycle.Acceptance
import SessionDirectory.Proofs.Lifecycle.Account
import SessionDirectory.Proofs.Lifecycle.Schedule

/-!
# Refreshes before the lease runs out

The wait is a minute less than the lease with the margin added to it. So it ends before the lease
does as long as the margin is less than that minute and the floor does not hold the wait up; and a
lease of more than a day is refreshed in time whatever is configured, since no wait is longer than a
day.

## Main definitions

* `AnnounceReply.leaseMinutes`: the minutes of the lease that comes with a reply
* `Duration.EndsWithin`: a pause is over before a lease is
* `LifecycleConfig.Safe`: the margins and floors that are safe for a lease
* `Timely`: which leases are refreshed in time

## Main results

* `exactWait_lt_iff`: which waits are shorter than the lease
* `Kept.demands`, `History.pauses_eq_wait`: the pauses of a run are those of the lease
* `timely_of_lease`: the leases that are refreshed in time
-/

set_option autoImplicit false

namespace SessionDirectory

/-- The minutes of the lease that comes with a reply, or the configured ones where it names none. -/
def AnnounceReply.leaseMinutes (reply : AnnounceReply) (config : LifecycleConfig) : Int :=
  (reply.expires.getD config.defaultLeaseMinutes).toInt

/-- The schedule that an accepted announcement is kept by. -/
def AnnounceReply.schedule (reply : AnnounceReply) (config : LifecycleConfig) : RefreshSchedule :=
  .ofLease (reply.lease config.defaultLeaseMinutes) config

/-- **The duration is over before a lease of some minutes is.** -/
def Duration.EndsWithin (d : Duration) (minutes : Int) : Prop :=
  (d.toNanoseconds : Int) < 1000000000 * (60 * minutes)

/-- **The margin and the floor are safe for a lease**: it is longer than a day, or the margin is less
than a minute and the floor is less than the lease. -/
def LifecycleConfig.Safe (config : LifecycleConfig) (minutes : Int) : Prop :=
  1440 < minutes ∨
    config.refreshMarginSecs < 60 ∧ (config.minRefreshSecs.toNat : Int) < 60 * minutes

/-- **Which leases are refreshed in time.** -/
structure Timely (config : LifecycleConfig) (reply : AnnounceReply) : Prop where
  /-- The wait is shorter than the lease if and only if the margin and the floor are safe for it. -/
  wait : (reply.schedule config).wait.EndsWithin (reply.leaseMinutes config) ↔
    config.Safe (reply.leaseMinutes config)
  /-- An accepted announcement is followed by this wait. -/
  first : ∀ (d : Directory) (p : Pacer) (session : Announcement) (response : Response)
    (credential : Credential), d [] (.announce session) = .ok response →
    Accepts response reply credential →
    ((Controller.start { config := config } session).step d p).next =
      .pause (reply.schedule config).wait
  /-- And so is every refresh: the run never pauses for another time. -/
  every : ∀ (d : Directory) (p : Pacer) (session : Announcement) (response : Response)
    (credential : Credential), d [] (.announce session) = .ok response →
    Accepts response reply credential →
    ∀ steps, ∀ length ∈ ((Controller.start { config := config } session).run d p steps).pauses,
      length = (reply.schedule config).wait
  /-- With the built-in margin and floor every lease is refreshed in time. -/
  builtIn : config.refreshMarginSecs = ({} : LifecycleConfig).refreshMarginSecs →
    config.minRefreshSecs = ({} : LifecycleConfig).minRefreshSecs →
    (reply.schedule config).wait.EndsWithin (reply.leaseMinutes config)

variable {config : LifecycleConfig} {session : Announcement} {credential : Credential}
  {schedule : RefreshSchedule} {reply : AnnounceReply} {response : Response} {n : Nat}
  {turns : List Turn} {log : List LogEntry} {k : Keeper} {d : Directory} {p : Pacer}

/-! ## The wait and the lease -/

/-- **The waits that are shorter than the lease**, in seconds. -/
theorem exactWait_lt_iff {minutes margin floor : Int} (positive : 1 ≤ minutes) :
    exactWait minutes margin floor < 60 * minutes ↔
      1440 < minutes ∨ margin < 60 ∧ floor < 60 * minutes := by
  have period : max (minutes - 1) 0 = minutes - 1 := by omega
  rw [exactWait, period]
  -- The margin makes up for the missing minute at 60 seconds, and a day has 1440 minutes.
  have margins : 60 * (minutes - 1) + margin < 60 * minutes ↔ margin < 60 := by omega
  have day : (86400 : Int) < 60 * minutes ↔ 1440 < minutes := by omega
  rw [← margins, ← day]
  omega

/-- The wait ends before the lease does if and only if the margin and the floor are safe. -/
theorem endsWithin_wait_iff (positive : 1 ≤ reply.leaseMinutes config) :
    (reply.schedule config).wait.EndsWithin (reply.leaseMinutes config) ↔
      config.Safe (reply.leaseMinutes config) := by
  have length := RefreshSchedule.toNanoseconds_wait (reply.lease config.defaultLeaseMinutes) config
  have shorter : (reply.lease config.defaultLeaseMinutes).exactWait config <
      60 * reply.leaseMinutes config ↔ 1440 < reply.leaseMinutes config ∨
        (config.refreshMarginSecs.toNat : Int) < 60 ∧
          (config.minRefreshSecs.toNat : Int) < 60 * reply.leaseMinutes config :=
    exactWait_lt_iff positive
  have margins : config.refreshMarginSecs < 60 ↔ (config.refreshMarginSecs.toNat : Int) < 60 :=
    UInt64.lt_iff_toNat_lt.trans Int.ofNat_lt.symm
  rw [Duration.EndsWithin, AnnounceReply.schedule, length, LifecycleConfig.Safe, margins, ← shorter]
  omega

/-! ## The pauses of a run -/

/-- While a listing is kept, it is kept by the schedule of the announcement. -/
theorem Kept.demands (kept : Kept config session credential schedule n turns log)
    (follows : Follows d p turns) : Demands config session d schedule := by
  induction kept with
  | @accepted response reply accepts of_lease =>
    obtain ⟨answer, -⟩ := follows
    exact ⟨response, reply, credential, answer.symm, accepts, of_lease⟩
  | beat _ _ ih => exact ih (follows_append.mp follows).1

/-- The schedule is that of the one reply that the announcement got. -/
theorem Demands.schedule_eq (demands : Demands config session d schedule)
    (answer : d [] (.announce session) = .ok response)
    (accepts : Accepts response reply credential) : schedule = reply.schedule config := by
  obtain ⟨response', reply', credential', answer', accepts', rfl⟩ := demands
  obtain rfl : response = response' := Except.ok.inj (answer.symm.trans answer')
  rw [(accepts.unique accepts').1, AnnounceReply.schedule]

/-- **Every pause of a run has the length that the lease demands.** -/
theorem History.pauses_eq_wait (history : History config session turns k)
    (follows : Follows d p turns) (answer : d [] (.announce session) = .ok response)
    (accepts : Accepts response reply credential) :
    ∀ length ∈ k.pauses, length = (reply.schedule config).wait := by
  intro length mem
  rw [history.pauses_eq] at mem
  cases history with
  | fresh | refused => simp at mem
  | waiting kept =>
    have same := (kept.demands follows).schedule_eq answer accepts
    rw [kept.pausesOf_eq, List.mem_replicate] at mem
    rw [mem.2, same]
  | due kept | failed kept | cleaning kept | cleaned kept | leaving kept | removed kept
  | unremoved kept =>
    -- The last pause was made by the same schedule as the ones before.
    have same := (kept.demands (follows_append.mp follows).1).schedule_eq answer accepts
    rw [pausesOf_append, kept.pausesOf_eq] at mem
    rcases List.mem_append.mp mem with before | last
    · rw [(List.mem_replicate.mp before).2, same]
    · rw [← same]
      simpa using last

/-- **The leases that are refreshed in time**, of at least one minute, whatever is configured. -/
theorem timely_of_lease (positive : 1 ≤ reply.leaseMinutes config) : Timely config reply where
  wait := endsWithin_wait_iff positive
  first := by
    intro d p session response credential answer accepts
    rw [step_start, answer, Keeper.answered_announcing_of_accepts rfl accepts]
    rfl
  every := by
    intro d p session response credential answer accepts steps
    obtain ⟨turns, history, follows, -⟩ := exists_history_of_start config session d p steps
    exact history.pauses_eq_wait follows answer accepts
  builtIn := by
    intro margin floor
    rw [endsWithin_wait_iff positive]
    right
    rw [margin, floor]
    refine ⟨by decide, ?_⟩
    have thirty : (({} : LifecycleConfig).minRefreshSecs.toNat : Int) = 30 := rfl
    omega

/-- A margin of a minute takes the wait for a lease of one day to the end of the lease. -/
theorem timely_oneDay :
    1 ≤ AnnounceReply.leaseMinutes ⟨none, none, some 1440, none, none, none⟩
        { refreshMarginSecs := 60 } ∧
      Timely { refreshMarginSecs := 60 } ⟨none, none, some 1440, none, none, none⟩ ∧
      ¬ LifecycleConfig.Safe { refreshMarginSecs := 60 } 1440 := by
  refine ⟨by decide, timely_of_lease (by decide), ?_⟩
  rintro (longer | ⟨narrow, -⟩)
  · omega
  · exact absurd narrow (by decide)

end SessionDirectory
