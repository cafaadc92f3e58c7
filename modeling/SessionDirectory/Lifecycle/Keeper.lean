import SessionDirectory.Lifecycle.Error
import SessionDirectory.Lifecycle.Pacer
import SessionDirectory.Lifecycle.Schedule

/-!
# Keeping a listing alive

A session is announced, its listing refreshed shortly before each lease runs out, and removed once
the loop is cancelled. Every fault is final: the server drops stale listings by itself.

The keeper is a machine that asks for one thing at a time, a call or a pause, and goes on with
what came of it. Whoever runs it supplies the outcomes, so the same machine serves a real server
and a scripted one, and anything may happen between two of its steps.

## Main definitions

* `Event`, `LogEntry`: what a run reports, and the log of a run
* `Phase`: what the keeper is about to do
* `Keeper.next`, `Keeper.answered`, `Keeper.paused`: what it asks for, and how it goes on
* `Keeper.run`: the keeper after a number of steps
* `Controller.run?`: a whole run of a controller, with its log, result and final state
-/

set_option autoImplicit false

namespace SessionDirectory

/-- What a run reports to a user. -/
inductive Event where
  | announced (credential : Credential) (lease : Lease) (periodMinutes : UInt64)
  | refreshed (count : UInt32) (message : Option String)
  | cancelled
  | unlisted (status : UInt16)
  /-- A removal was tried after a failed refresh; without a status it got no answer. -/
  | cleanupUnlist (status : Option UInt16)
  deriving DecidableEq

/-- An entry in the log of a run. -/
inductive LogEntry where
  | call (c : Call)
  | pause (d : Duration)
  | event (e : Event)

namespace LogEntry

/-- The call of an entry. -/
def call? : LogEntry → Option Call
  | .call c => some c
  | _ => none

/-- The pause of an entry. -/
def pause? : LogEntry → Option Duration
  | .pause d => some d
  | _ => none

/-- The event of an entry. -/
def event? : LogEntry → Option Event
  | .event e => some e
  | _ => none

end LogEntry

/-- The end of a life without faults. -/
structure Outcome where
  credential : Credential
  refreshes : UInt32
  unlistStatus : UInt16
  finalState : LifecycleState
  deriving DecidableEq

/-- What the keeper is about to do. -/
inductive Phase where
  | announcing (session : Announcement)
  | waiting (credential : Credential) (schedule : RefreshSchedule) (count : UInt32)
  | refreshing (credential : Credential) (schedule : RefreshSchedule) (count : UInt32)
  | unlisting (credential : Credential) (count : UInt32)
  | cleaning (credential : Credential) (fault : LifecycleError)
  | finished (result : Except LifecycleError Outcome)

/-- What the keeper asks for. -/
inductive Demand where
  | call (c : Call)
  | pause (d : Duration)
  | nothing (result : Except LifecycleError Outcome)

/-- A keeper: its policy, the states it has been in, newest first, its log and what is next. -/
structure Keeper where
  config : LifecycleConfig
  state : LifecycleState
  /-- The states before the present one, newest first. -/
  past : List LifecycleState
  log : List LogEntry
  phase : Phase

/-- The credential and the lease of an accepted announcement. -/
def acceptAnnouncement (config : LifecycleConfig) (state : LifecycleState) (response : Response) :
    Except LifecycleError (Credential × Lease) :=
  if response.isOk then
    match AnnounceReply.parse response.body with
    | .error e => .error (.malformed state response (.unparseable e))
    | .ok reply =>
      match reply.credential? with
      | some credential => .ok (credential, reply.lease config.defaultLeaseMinutes)
      | none =>
        .error (.malformed state response (if reply.id.isNone then .missingId else .missingKey))
  else .error (.rejected state response)

namespace Keeper

/-- A keeper that starts in a state. It does nothing where it may not announce from there. -/
def start (config : LifecycleConfig) (state : LifecycleState) (session : Announcement) : Keeper where
  config := config
  state := state
  past := []
  log := []
  phase :=
    match state.tryTransition .announced with
    | .ok _ => .announcing session
    | .error e => .finished (.error e)

/-- The calls made so far. -/
def calls (k : Keeper) : List Call := k.log.filterMap LogEntry.call?

/-- The pauses made so far. -/
def pauses (k : Keeper) : List Duration := k.log.filterMap LogEntry.pause?

/-- The events reported so far. -/
def events (k : Keeper) : List Event := k.log.filterMap LogEntry.event?

/-- Writes an entry into the log. -/
def note (k : Keeper) (e : LogEntry) : Keeper := { k with log := k.log ++ [e] }

/-- Reports an event. -/
def report (k : Keeper) (e : Event) : Keeper := k.note (.event e)

/-- Moves to a state. -/
def moveTo (k : Keeper) (s : LifecycleState) : Keeper :=
  { k with state := s, past := k.state :: k.past }

/-- Goes on to a phase. -/
def enter (k : Keeper) (p : Phase) : Keeper := { k with phase := p }

/-- Ends with a fault. -/
def fail (k : Keeper) (e : LifecycleError) : Keeper :=
  (k.moveTo .error).enter (.finished (.error e))

/-- Ends with a fault of a refresh, after one try to remove the listing if that is wanted. -/
def failRefresh (k : Keeper) (credential : Credential) (e : LifecycleError) : Keeper :=
  if k.config.unlistOnRefreshFailure then (k.moveTo .error).enter (.cleaning credential e)
  else k.fail e

/-- What the keeper asks for. -/
def next (k : Keeper) : Demand :=
  match k.phase with
  | .announcing session => .call (.announce session)
  | .waiting _ schedule _ => .pause schedule.wait
  | .refreshing credential _ _ => .call (.update credential.id credential.key SortedMap.empty)
  | .unlisting credential _ => .call (.unlist credential.id credential.key)
  | .cleaning credential _ => .call (.unlist credential.id credential.key)
  | .finished result => .nothing result

/-- Goes on after the announcement. -/
def announced (k : Keeper) (answer : Answer) : Keeper :=
  match answer with
  | .error e => k.fail (.transport k.state e)
  | .ok response =>
    match acceptAnnouncement k.config k.state response with
    | .error e => k.fail e
    | .ok (credential, lease) =>
      let schedule := RefreshSchedule.ofLease lease k.config
      (((k.moveTo .announced).report (.announced credential lease schedule.periodMinutes)).moveTo
        .refreshing).enter (.waiting credential schedule 0)

/-- Goes on after a refresh. -/
def refreshed (k : Keeper) (credential : Credential) (schedule : RefreshSchedule) (count : UInt32)
    (answer : Answer) : Keeper :=
  match answer with
  | .error e => k.failRefresh credential (.transport k.state e)
  | .ok response =>
    if response.isOk then
      (k.report (.refreshed (count + 1) (RefreshReply.messageOf response.body))).enter
        (.waiting credential schedule (count + 1))
    else k.failRefresh credential (.rejected k.state response)

/-- Goes on after the removal of the listing. -/
def unlisted (k : Keeper) (credential : Credential) (count : UInt32)
    (answer : Answer) : Keeper :=
  match answer with
  | .error e => k.fail (.transport k.state e)
  | .ok response =>
    if response.isOkOrNoContent then
      ((k.moveTo .terminated).report (.unlisted response.status)).enter
        (.finished (.ok ⟨credential, count, response.status, .terminated⟩))
    else k.fail (.rejected k.state response)

/-- Goes on after the removal that follows a failed refresh; the fault stays what it was. -/
def cleaned (k : Keeper) (fault : LifecycleError) (answer : Answer) :
    Keeper :=
  let status := match answer with
    | .ok response => some response.status
    | .error _ => none
  (k.report (.cleanupUnlist status)).enter (.finished (.error fault))

/-- Goes on with the answer to the call that was asked for. -/
def answered (k : Keeper) (call : Call) (answer : Answer) : Keeper :=
  let k := k.note (.call call)
  match k.phase with
  | .announcing _ => k.announced answer
  | .refreshing credential schedule count => k.refreshed credential schedule count answer
  | .unlisting credential count => k.unlisted credential count answer
  | .cleaning _ fault => k.cleaned fault answer
  | .waiting _ _ _ => k
  | .finished _ => k

/-- Goes on with the outcome of the pause that was asked for. -/
def paused (k : Keeper) (length : Duration) (outcome : WaitOutcome) : Keeper :=
  let k := k.note (.pause length)
  match k.phase, outcome with
  | .waiting credential schedule count, .elapsed =>
    k.enter (.refreshing credential schedule count)
  | .waiting credential _ count, .cancelled =>
    ((k.report .cancelled).moveTo .unlisting).enter (.unlisting credential count)
  | _, _ => k

/-- One step: the keeper asks, and the server or the pacer answers. -/
def step (d : Directory) (p : Pacer) (k : Keeper) : Keeper :=
  match k.next with
  | .call c => k.answered c (d k.calls c)
  | .pause length => k.paused length (p k.pauses.length length)
  | .nothing _ => k

/-- The keeper after a number of steps. -/
def run (d : Directory) (p : Pacer) : Nat → Keeper → Keeper
  | 0, k => k
  | steps + 1, k =>
    match k.phase with
    | .finished _ => k
    | _ => run d p steps (k.step d p)

/-- The result, once there is one. -/
def result? (k : Keeper) : Option (Except LifecycleError Outcome) :=
  match k.phase with
  | .finished result => some result
  | _ => none

end Keeper

/-- A controller: a policy, and the state in which the last run has left the listing. -/
structure Controller where
  config : LifecycleConfig
  state : LifecycleState := .unannounced

/-- What a run did and how it ended. -/
structure Run where
  log : List LogEntry
  result : Except LifecycleError Outcome
  state : LifecycleState

namespace Controller

/-- The keeper of a run, before its first step. -/
def start (c : Controller) (session : Announcement) : Keeper :=
  Keeper.start c.config c.state session

/-- A run that returns within a number of steps, and the controller after it. -/
def run? (c : Controller) (d : Directory) (p : Pacer) (session : Announcement) (steps : Nat) :
    Option (Run × Controller) :=
  let k := (c.start session).run d p steps
  k.result?.map fun result => (⟨k.log, result, k.state⟩, { c with state := k.state })

end Controller

end SessionDirectory
