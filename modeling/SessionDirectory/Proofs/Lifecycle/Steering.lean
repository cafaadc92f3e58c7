import Mathlib.Data.List.Forall2
import SessionDirectory.Proofs.Lifecycle.Cleanup

/-!
# What steers a keeper

Once its announcement is answered, a keeper looks at the statuses of the answers and at nothing
else. Two servers that answer the announcement alike and every later call with the same status, or
not at all, lead a controller through the same calls, pauses and states, whatever the bodies of
their answers are. A body shows in the message of a report and in the fault that ends a run, and
nowhere else.

Where there are no answers, the servers may give different causes. How far the faults agree is then
a matter of how far the causes do, so everything below is stated for a relation between causes.

## Main definitions

* `SameStatus`: answers of one status
* `SameFault`, `SameResult`, `SameEntry`: what may differ in faults, in results and in logs
* `Keeper.Alike`: keepers that differ in nothing else
* `SteeredAlike`: two servers lead a controller alike

## Main results

* `SameStatus.expected_or_faulty`: whether a call is at fault is a matter of the status
* `Keeper.Alike.step`: a step keeps two keepers alike
* `steeredAlike_of_sameStatus`: two servers with the same statuses lead every controller alike
-/

set_option autoImplicit false

namespace SessionDirectory

/-- The status that a fault carries. -/
def LifecycleError.status? : LifecycleError → Option UInt16
  | .rejected _ response | .malformed _ response _ => some response.status
  | _ => none

/-- Two log entries are the same, or they report the same refresh with different messages. -/
inductive SameEntry : LogEntry → LogEntry → Prop where
  | same (e : LogEntry) : SameEntry e e
  | refreshed (count : UInt32) (message message' : Option String) :
      SameEntry (.event (.refreshed count message)) (.event (.refreshed count message'))

section Relations

variable (R : DirectoryError → DirectoryError → Prop)

/-- Two answers have the same status, with any bodies, or there is no answer in either case. -/
inductive SameStatus : Answer → Answer → Prop where
  | answered {response response' : Response} (status : response'.status = response.status) :
      SameStatus (.ok response) (.ok response')
  | unanswered {cause cause' : DirectoryError} (related : R cause cause') :
      SameStatus (.error cause) (.error cause')

/-- Two faults are the same but for the body that the server sent. -/
inductive SameFault : LifecycleError → LifecycleError → Prop where
  | same (fault : LifecycleError) : SameFault fault fault
  | transport (state : LifecycleState) {cause cause' : DirectoryError} (related : R cause cause') :
      SameFault (.transport state cause) (.transport state cause')
  | rejected (state : LifecycleState) {response response' : Response}
      (status : response'.status = response.status) :
      SameFault (.rejected state response) (.rejected state response')

/-- Two results are the same outcome, or faults that are the same but for a body. -/
inductive SameResult : Except LifecycleError Outcome → Except LifecycleError Outcome → Prop where
  | ok (outcome : Outcome) : SameResult (.ok outcome) (.ok outcome)
  | error {fault fault' : LifecycleError} (faults : SameFault R fault fault') :
      SameResult (.error fault) (.error fault')

/-- Two phases are the same but for the body in a fault. In neither of them is the announcement
still to be made. -/
inductive SamePhase : Phase → Phase → Prop where
  | waiting (credential : Credential) (schedule : RefreshSchedule) (count : UInt32) :
      SamePhase (.waiting credential schedule count) (.waiting credential schedule count)
  | refreshing (credential : Credential) (schedule : RefreshSchedule) (count : UInt32) :
      SamePhase (.refreshing credential schedule count) (.refreshing credential schedule count)
  | unlisting (credential : Credential) (count : UInt32) :
      SamePhase (.unlisting credential count) (.unlisting credential count)
  | cleaning (credential : Credential) {fault fault' : LifecycleError}
      (faults : SameFault R fault fault') :
      SamePhase (.cleaning credential fault) (.cleaning credential fault')
  | finished {result result' : Except LifecycleError Outcome}
      (results : SameResult R result result') : SamePhase (.finished result) (.finished result')

/-- **Two keepers that are led alike**: they differ in reported messages and in the body of a fault
only. -/
inductive Keeper.Alike : Keeper → Keeper → Prop where
  | intro (config : LifecycleConfig) (state : LifecycleState) (past : List LifecycleState)
      {log log' : List LogEntry} {phase phase' : Phase} (logs : List.Forall₂ SameEntry log log')
      (phases : SamePhase R phase phase') :
      Keeper.Alike ⟨config, state, past, log, phase⟩ ⟨config, state, past, log', phase'⟩

/-- Two keepers in the course of a run. Until the announcement is answered they are the same, and
then they are led alike. -/
inductive Steered (session : Announcement) : Keeper → Keeper → Prop where
  | fresh {k : Keeper} (phase : k.phase = .announcing session) (first : k.calls = []) :
      Steered session k k
  | onward {k k' : Keeper} (alike : Keeper.Alike R k k')
      (called : k.calls = [] →
        ∃ result result', k.phase = .finished result ∧ k'.phase = .finished result') :
      Steered session k k'

/-- **Two servers lead a controller alike**: after every number of steps both runs have done the
same, and they return together. -/
structure SteeredAlike (c : Controller) (d d' : Directory) (p : Pacer) (session : Announcement) :
    Prop where
  /-- The same calls and pauses in the same order, and the same states. -/
  underway : ∀ steps, let k := (c.start session).run d p steps
    let k' := (c.start session).run d' p steps
    k'.calls = k.calls ∧ k'.pauses = k.pauses ∧ k'.state = k.state ∧ k'.past = k.past ∧
      List.Forall₂ SameEntry k.log k'.log
  /-- Neither run returns before the other one. -/
  pending : ∀ steps, c.run? d p session steps = none ↔ c.run? d' p session steps = none
  /-- The results agree, and the controller is left the same. -/
  returned : ∀ steps r c₁ r' c₂, c.run? d p session steps = some (r, c₁) →
    c.run? d' p session steps = some (r', c₂) → SameResult R r.result r'.result ∧ c₂ = c₁
  /-- Faults are of one kind, and report one state and one status. -/
  faults : ∀ steps r c₁ r' c₂ fault fault', c.run? d p session steps = some (r, c₁) →
    c.run? d' p session steps = some (r', c₂) → r.result = .error fault →
    r'.result = .error fault' →
    fault'.kind = fault.kind ∧ fault'.state = fault.state ∧ fault'.status? = fault.status?

end Relations

variable {R : DirectoryError → DirectoryError → Prop} {answer answer' : Answer}
  {fault fault' : LifecycleError} {result result' : Except LifecycleError Outcome}
  {log log' : List LogEntry} {d d' : Directory} {p : Pacer} {session : Announcement}
  {k k' : Keeper} {c : Controller}

/-! ## Faults -/

/-- Faults that are the same but for a body have one kind, one state and one status. -/
theorem SameFault.agree (faults : SameFault R fault fault') :
    fault'.kind = fault.kind ∧ fault'.state = fault.state ∧ fault'.status? = fault.status? := by
  cases faults with
  | same => exact ⟨rfl, rfl, rfl⟩
  | transport => exact ⟨rfl, rfl, rfl⟩
  | rejected state status => exact ⟨rfl, rfl, congrArg some status⟩

/-- **Whether a call is at fault is a matter of the status**: of two answers of one status both are
as expected, or both are at fault in the same way. -/
theorem SameStatus.expected_or_faulty (same : SameStatus R answer answer') (state : LifecycleState)
    (expected : List UInt16) :
    (∃ response response', answer = .ok response ∧ answer' = .ok response' ∧
        response'.status = response.status ∧ response.status ∈ expected) ∨
      ∃ fault fault', Faulty state expected answer fault ∧ Faulty state expected answer' fault' ∧
        SameFault R fault fault' := by
  cases same with
  | unanswered related => exact .inr ⟨_, _, .unreachable _, .unreachable _, .transport _ related⟩
  | @answered response response' status =>
    by_cases mem : response.status ∈ expected
    · exact .inl ⟨response, response', rfl, rfl, status, mem⟩
    · exact .inr ⟨_, _, .status mem, .status (status ▸ mem), .rejected _ status⟩

theorem SameStatus.statusOf_eq (same : SameStatus R answer answer') :
    Keeper.statusOf answer' = Keeper.statusOf answer := by
  cases same with
  | answered status => exact congrArg some status
  | unanswered => rfl

/-! ## Logs -/

/-- Calls and pauses are no reports, so logs that differ in messages have the same ones. -/
theorem SameEntry.agree {e e' : LogEntry} (same : SameEntry e e') :
    e'.call? = e.call? ∧ e'.pause? = e.pause? := by
  cases same <;> exact ⟨rfl, rfl⟩

theorem filterMap_eq_of_sameEntry {α : Type} {f : LogEntry → Option α}
    (agree : ∀ e e', SameEntry e e' → f e' = f e) (logs : List.Forall₂ SameEntry log log') :
    log'.filterMap f = log.filterMap f := by
  induction logs with
  | nil => rfl
  | cons same _ ih => rw [List.filterMap_cons, List.filterMap_cons, agree _ _ same, ih]

theorem sameEntry_refl (log : List LogEntry) : List.Forall₂ SameEntry log log :=
  List.forall₂_same.mpr fun e _ => .same e

theorem sameEntry_append (logs : List.Forall₂ SameEntry log log') (entries : List LogEntry) :
    List.Forall₂ SameEntry (log ++ entries) (log' ++ entries) :=
  List.rel_append logs (sameEntry_refl entries)

/-! ## Two keepers -/

namespace Keeper.Alike

theorem calls_eq (alike : Keeper.Alike R k k') : k'.calls = k.calls := by
  obtain ⟨_, _, _, logs, -⟩ := alike
  exact filterMap_eq_of_sameEntry (fun e e' same => same.agree.1) logs

theorem pauses_eq (alike : Keeper.Alike R k k') : k'.pauses = k.pauses := by
  obtain ⟨_, _, _, logs, -⟩ := alike
  exact filterMap_eq_of_sameEntry (fun e e' same => same.agree.2) logs

/-- Both keepers ask for the same thing, or both are over. -/
theorem next_eq (alike : Keeper.Alike R k k') : k'.next = k.next ∨
    ∃ result result', k.phase = .finished result ∧ k'.phase = .finished result' := by
  obtain ⟨_, _, _, -, phases⟩ := alike
  cases phases with
  | waiting | refreshing | unlisting | cleaning => exact .inl rfl
  | finished => exact .inr ⟨_, _, rfl, rfl⟩

/-- **Two answers of one status keep two keepers alike.** -/
theorem answered (alike : Keeper.Alike R k k') (same : SameStatus R answer answer') (call : Call) :
    Keeper.Alike R (k.answered call answer) (k'.answered call answer') := by
  obtain ⟨config, state, past, logs, phases⟩ := alike
  cases phases with
  | waiting credential schedule count =>
    exact ⟨_, _, _, sameEntry_append logs _, .waiting credential schedule count⟩
  | refreshing credential schedule count =>
    rcases same.expected_or_faulty state refreshStatuses with
      ⟨response, response', rfl, rfl, status, expected⟩ | ⟨fault, fault', faulty, faulty', faults⟩
    · rw [Keeper.answered_refreshing_of_status rfl expected,
        Keeper.answered_refreshing_of_status rfl (status ▸ expected)]
      -- The messages of the two reports are those of the two bodies.
      refine ⟨_, _, _, List.rel_append logs ?_, .waiting credential schedule (count + 1)⟩
      exact .cons (.same _) (.cons (.refreshed _ _ _) .nil)
    · rw [Keeper.answered_refreshing_of_faulty rfl faulty,
        Keeper.answered_refreshing_of_faulty rfl faulty']
      refine ⟨_, _, _, sameEntry_append logs _, ?_⟩
      by_cases policy : config.unlistOnRefreshFailure = true
      · rw [if_pos policy, if_pos policy]
        exact .cleaning credential faults
      · rw [if_neg policy, if_neg policy]
        exact .finished (.error faults)
  | unlisting credential count =>
    rcases same.expected_or_faulty state removalStatuses with
      ⟨response, response', rfl, rfl, status, expected⟩ | ⟨fault, fault', faulty, faulty', faults⟩
    · rw [Keeper.answered_unlisting_of_status rfl expected,
        Keeper.answered_unlisting_of_status rfl (status ▸ expected), status]
      exact ⟨_, _, _, sameEntry_append logs _, .finished (.ok _)⟩
    · rw [Keeper.answered_unlisting_of_faulty rfl faulty,
        Keeper.answered_unlisting_of_faulty rfl faulty']
      exact ⟨_, _, _, sameEntry_append logs _, .finished (.error faults)⟩
  | cleaning credential faults =>
    rw [Keeper.answered_cleaning rfl, Keeper.answered_cleaning rfl, same.statusOf_eq]
    exact ⟨_, _, _, sameEntry_append logs _, .finished (.error faults)⟩
  | finished results => exact ⟨_, _, _, sameEntry_append logs _, .finished results⟩

theorem paused (alike : Keeper.Alike R k k') (length : Duration) (outcome : WaitOutcome) :
    Keeper.Alike R (k.paused length outcome) (k'.paused length outcome) := by
  obtain ⟨config, state, past, logs, phases⟩ := alike
  have logs := sameEntry_append logs [.pause length]
  cases phases with
  | waiting credential schedule count =>
    cases outcome with
    | elapsed => exact ⟨_, _, _, logs, .refreshing credential schedule count⟩
    | cancelled =>
      exact ⟨_, _, _, sameEntry_append logs [.event .cancelled], .unlisting credential count⟩
  | refreshing | unlisting => cases outcome <;> exact ⟨_, _, _, logs, by constructor⟩
  | cleaning credential faults => cases outcome <;> exact ⟨_, _, _, logs, .cleaning _ faults⟩
  | finished results => cases outcome <;> exact ⟨_, _, _, logs, .finished results⟩

/-- **A step keeps two keepers alike**, if what is asked for is answered with one status. -/
theorem step (alike : Keeper.Alike R k k') (p : Pacer)
    (answers : ∀ call, SameStatus R (d k.calls call) (d' k.calls call)) :
    Keeper.Alike R (k.step d p) (k'.step d' p) := by
  rcases alike.next_eq with next | ⟨result, result', phase, phase'⟩
  · cases asked : k.next with
    | call call =>
      simp only [Keeper.step, next, asked, alike.calls_eq]
      exact alike.answered (answers call) call
    | pause length =>
      simp only [Keeper.step, next, asked, alike.pauses_eq]
      exact alike.paused length _
    | nothing result => simpa only [Keeper.step, next, asked] using alike
  · rwa [Keeper.step_of_finished phase, Keeper.step_of_finished phase']

end Keeper.Alike

/-! ## Runs -/

theorem SamePhase.refl {phase : Phase} (announced : ∀ session, phase ≠ .announcing session) :
    SamePhase R phase phase := by
  cases phase with
  | announcing session => exact absurd rfl (announced session)
  | waiting => exact .waiting _ _ _
  | refreshing => exact .refreshing _ _ _
  | unlisting => exact .unlisting _ _
  | cleaning => exact .cleaning _ (.same _)
  | finished result =>
    cases result with
    | error fault => exact .finished (.error (.same fault))
    | ok outcome => exact .finished (.ok outcome)

theorem Keeper.Alike.refl {k : Keeper} (announced : ∀ session, k.phase ≠ .announcing session) :
    Keeper.Alike R k k :=
  ⟨_, _, _, sameEntry_refl _, .refl announced⟩

/-- A keeper that has been told of an answer is not about to announce. -/
theorem Keeper.phase_announced_ne (k : Keeper) (answer : Answer) (session : Announcement) :
    (k.announced answer).phase ≠ .announcing session := by
  unfold announced
  split
  · exact Phase.noConfusion
  · split <;> exact Phase.noConfusion

theorem steered_start (c : Controller) (session : Announcement) :
    Steered R session (c.start session) (c.start session) := by
  unfold Controller.start Keeper.start
  split
  next => exact .fresh rfl rfl
  next => exact .onward (.refl fun other => Phase.noConfusion) fun _ => ⟨_, _, rfl, rfl⟩

namespace Steered

theorem calls_eq (steered : Steered R session k k') : k'.calls = k.calls := by
  cases steered with
  | fresh => rfl
  | onward alike => exact alike.calls_eq

theorem agree (steered : Steered R session k k') :
    k'.calls = k.calls ∧ k'.pauses = k.pauses ∧ k'.state = k.state ∧ k'.past = k.past ∧
      List.Forall₂ SameEntry k.log k'.log := by
  cases steered with
  | fresh => exact ⟨rfl, rfl, rfl, rfl, sameEntry_refl _⟩
  | onward alike =>
    have calls := alike.calls_eq
    have pauses := alike.pauses_eq
    obtain ⟨_, _, _, logs, -⟩ := alike
    exact ⟨calls, pauses, rfl, rfl, logs⟩

/-- The two keepers are over at the same time, with results that agree. -/
theorem result? (steered : Steered R session k k') :
    k.result? = none ∧ k'.result? = none ∨
      ∃ result result', k.result? = some result ∧ k'.result? = some result' ∧
        SameResult R result result' := by
  cases steered with
  | fresh phase =>
    have none : k.result? = none := by simp [Keeper.result?, phase]
    exact .inl ⟨none, none⟩
  | onward alike =>
    obtain ⟨_, _, _, -, phases⟩ := alike
    cases phases with
    | waiting | refreshing | unlisting | cleaning => exact .inl ⟨rfl, rfl⟩
    | finished results => exact .inr ⟨_, _, rfl, rfl, results⟩

variable (announce : d' [] (.announce session) = d [] (.announce session))
  (later : ∀ past call, past ≠ [] → SameStatus R (d past call) (d' past call))
include announce later

theorem step (steered : Steered R session k k') (p : Pacer) :
    Steered R session (k.step d p) (k'.step d' p) := by
  cases steered with
  | fresh phase first =>
    -- The announcement is answered alike, so the keepers are still the same.
    have same : k.step d' p = k.step d p := by
      simp only [Keeper.step, Keeper.next, phase, first, announce]
    rw [same]
    refine .onward (.refl fun other => ?_) fun none => ?_
    · simp only [Keeper.step, Keeper.next, phase, Keeper.answered, Keeper.note]
      exact Keeper.phase_announced_ne _ _ other
    · simp [Keeper.calls_step, Keeper.next, phase] at none
  | onward alike called =>
    -- Where no call has been made, the run was over from the start.
    by_cases first : k.calls = []
    · obtain ⟨result, result', phase, phase'⟩ := called first
      rw [Keeper.step_of_finished phase, Keeper.step_of_finished phase']
      exact .onward alike called
    · refine .onward (alike.step p fun call => later _ call first) fun none => ?_
      rw [Keeper.calls_step] at none
      exact absurd (List.append_eq_nil_iff.mp none).1 first

theorem run (steered : Steered R session k k') (p : Pacer) (steps : Nat) :
    Steered R session (k.run d p steps) (k'.run d' p steps) := by
  induction steps with
  | zero => exact steered
  | succ steps ih =>
    rw [Keeper.run_succ', Keeper.run_succ']
    exact ih.step announce later p

end Steered

/-- **Two servers with the same statuses lead every controller alike**, if they give the same answer
to the announcement. -/
theorem steeredAlike_of_sameStatus (c : Controller) (p : Pacer)
    (announce : d' [] (.announce session) = d [] (.announce session))
    (later : ∀ past call, past ≠ [] → SameStatus R (d past call) (d' past call)) :
    SteeredAlike R c d d' p session := by
  have steered : ∀ steps, Steered R session ((c.start session).run d p steps)
      ((c.start session).run d' p steps) :=
    (steered_start c session).run announce later p
  have results : ∀ steps r c₁ r' c₂, c.run? d p session steps = some (r, c₁) →
      c.run? d' p session steps = some (r', c₂) → SameResult R r.result r'.result ∧ c₂ = c₁ := by
    intro steps r c₁ r' c₂ returned returned'
    obtain ⟨-, -, state, -⟩ := (steered steps).agree
    rcases (steered steps).result? with ⟨none, -⟩ | ⟨result, result', some, some', results⟩
    · simp [Controller.run?, none] at returned
    · simp only [Controller.run?, some, some', Option.map_some, Option.some.injEq,
        Prod.mk.injEq] at returned returned'
      obtain ⟨rfl, rfl⟩ := returned
      obtain ⟨rfl, rfl⟩ := returned'
      exact ⟨results, by rw [state]⟩
  refine ⟨fun steps => (steered steps).agree, fun steps => ?_, results, ?_⟩
  · rcases (steered steps).result? with ⟨none, none'⟩ | ⟨_, _, some, some', -⟩
    · simp [Controller.run?, none, none']
    · simp [Controller.run?, some, some']
  · intro steps r c₁ r' c₂ fault fault' returned returned' failed failed'
    obtain ⟨same, -⟩ := results steps r c₁ r' c₂ returned returned'
    rw [failed, failed'] at same
    cases same with
    | error faults => exact faults.agree

/-- The server that is tired after a number of calls, with something to say after the first one. -/
def chattyServer (calls : Nat) (body : String) : Directory := fun past call =>
  match past with
  | [] => tiringServer calls [] call
  | _ => (tiringServer calls past call).map fun response => { response with body := body }

/-- A server that answers refreshes with bodies that are no JSON leads a controller to the same
fault as a silent one, and the fault has the body of the last answer. -/
theorem steeredAlike_chattyServer :
    chattyServer 3 "busy" [] (.announce (.ofDefaults {} "s")) =
        tiringServer 3 [] (.announce (.ofDefaults {} "s")) ∧
      (∀ past call, past ≠ [] →
        SameStatus Eq (tiringServer 3 past call) (chattyServer 3 "busy" past call)) ∧
      SteeredAlike Eq { config := {} } (tiringServer 3) (chattyServer 3 "busy") (.elapsing 9)
        (.ofDefaults {} "s") ∧
      ∃ r r' c', Controller.run? { config := {} } (tiringServer 3) (.elapsing 9)
          (.ofDefaults {} "s") 20 = some (r, c') ∧
        Controller.run? { config := {} } (chattyServer 3 "busy") (.elapsing 9)
          (.ofDefaults {} "s") 20 = some (r', c') ∧
        r.result = .error (.rejected .refreshing ⟨500, ""⟩) ∧
        r'.result = .error (.rejected .refreshing ⟨500, "busy"⟩) := by
  have later : ∀ past call, past ≠ [] →
      SameStatus Eq (tiringServer 3 past call) (chattyServer 3 "busy" past call) := by
    intro past call called
    obtain ⟨first, rest, rfl⟩ := List.exists_cons_of_ne_nil called
    show SameStatus Eq _ ((tiringServer 3 (first :: rest) call).map _)
    cases tiringServer 3 (first :: rest) call with
    | error cause => exact .unanswered rfl
    | ok response => exact .answered rfl
  exact ⟨rfl, later, steeredAlike_of_sameStatus _ _ rfl later, _, _, _, rfl, rfl, rfl, rfl⟩

end SessionDirectory
