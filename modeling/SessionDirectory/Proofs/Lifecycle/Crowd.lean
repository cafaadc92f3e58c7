import Mathlib.Data.List.Induction
import Mathlib.Logic.Function.Basic
import SessionDirectory.Proofs.Lifecycle.Flags

/-!
# Threads that share tokens

Any number of threads hold tokens, make clones of them, cancel them and pause on them. A cancel has
two steps: it sets the flag, and then it wakes the pauses that sleep on the flag. In between the
other threads go on. A pause looks at the flag and at the clock, and returns or goes to sleep, in
one step, since it holds the lock of the flag meanwhile. A sleeping pause is woken by a cancel, and
apart from that at any time: because its time is over or without need.

The clock counts nanoseconds and never goes back. There is a last instant that it can tell, and a
pause that would end later has no deadline.

## Main definitions

* `Wait`, `Wait.deadline?`, `Wait.look`: a pause under way, its deadline, and what it finds when it
  looks
* `Stance`, `Crowd`, `Act`: a thread, the whole, and what can happen
* `Crowd.Step`, `Crowd.Runs`: one step, and several

## Main results

* `Wait.look_eq_cancelled_iff`, `Wait.look_eq_elapsed_iff`: how a pause ends
* `Wait.look_eq_pause`: a pause whose time is over ends as its token says
* `Wait.look_eq_pauseUntilCancelled`: a pause without deadline ends when its token is cancelled
* `Crowd.wait?_of_step`, `Crowd.asleep_of_step`, `Crowd.rousing_of_step`: where the pauses, the
  sleepers and the wakers of a crowd come from
-/

set_option autoImplicit false

namespace SessionDirectory

/-! ## Pauses -/

/-- A pause under way. -/
structure Wait where
  token : Nat
  length : Duration
  /-- The instant at which the pause was started. -/
  began : Nat

namespace Wait

variable {limit now : Nat} {tokens : CancelFlags} {w : Wait}

/-- The instant at which the time of a pause is over, unless it is after the last one. -/
def deadline? (limit : Nat) (w : Wait) : Option Nat :=
  if w.began + w.length.toNanoseconds ≤ limit then some (w.began + w.length.toNanoseconds) else none

/-- How a pause ends that looks at the flag and then at the clock, unless it goes to sleep. -/
def look (limit : Nat) (tokens : CancelFlags) (now : Nat) (w : Wait) : Option WaitOutcome :=
  if tokens.isCancelled w.token then some .cancelled
  else
    match w.deadline? limit with
    | some deadline => if deadline ≤ now then some .elapsed else none
    | none => none

theorem look_eq_cancelled_iff :
    w.look limit tokens now = some .cancelled ↔ tokens.isCancelled w.token = true := by
  unfold look
  split
  next set => simp [set]
  next clear =>
    refine iff_of_false ?_ clear
    repeat' split <;> simp

/-- **A pause elapses if the flag is clear and its deadline has come.** -/
theorem look_eq_elapsed_iff : w.look limit tokens now = some .elapsed ↔
    tokens.isCancelled w.token = false ∧ ∃ deadline, w.deadline? limit = some deadline ∧
      deadline ≤ now := by
  unfold look
  cases tokens.isCancelled w.token with
  | true => simp
  | false => cases w.deadline? limit <;> simp

theorem clear_of_look_eq_none (looked : w.look limit tokens now = none) :
    tokens.isCancelled w.token = false := by
  by_contra set
  rw [look_eq_cancelled_iff.mpr (eq_true_of_ne_false set)] at looked
  cases looked

/-- A pause whose time is over ends as the state of its token says. -/
theorem look_eq_pause {deadline : Nat} (due : w.deadline? limit = some deadline)
    (passed : deadline ≤ now) : w.look limit tokens now = some (tokens.pause w.token) := by
  unfold CancelFlags.pause
  split
  next set => exact look_eq_cancelled_iff.mpr set
  next clear => exact look_eq_elapsed_iff.mpr ⟨eq_false_of_ne_true clear, deadline, due, passed⟩

/-- A pause without deadline goes to sleep until its token is cancelled, and returns then. -/
theorem look_eq_pauseUntilCancelled (inPlace : tokens.InPlace)
    (held : w.token < tokens.tokens.length) (clear : tokens.isCancelled w.token = false)
    (endless : w.deadline? limit = none) :
    w.look limit tokens now = none ∧
      w.look limit (tokens.pauseUntilCancelled w.token).2 now =
        some (tokens.pauseUntilCancelled w.token).1 := by
  constructor
  · rw [look, clear, endless]
    rfl
  · exact look_eq_cancelled_iff.mpr (CancelFlags.isCancelled_cancel_self inPlace held)

theorem deadline?_eq_some {deadline : Nat} (due : w.deadline? limit = some deadline) :
    deadline = w.began + w.length.toNanoseconds := by
  unfold deadline? at due
  split at due <;> cases due
  rfl

end Wait

/-! ## Threads and steps -/

/-- What a thread is doing with the tokens. -/
inductive Stance where
  | idle
  /-- A cancel has set the flag of its token and has not woken the pauses yet. -/
  | rousing (token : Nat)
  /-- A pause is about to look. -/
  | checking (w : Wait)
  /-- A pause sleeps. -/
  | asleep (w : Wait)

namespace Stance

/-- The pause under way. -/
def wait? : Stance → Option Wait
  | .checking w | .asleep w => some w
  | .idle | .rousing _ => none

/-- The stance after those that sleep on some tokens are woken. -/
def roused (tokens : Nat → Bool) : Stance → Stance
  | .asleep w => if tokens w.token then .checking w else .asleep w
  | stance => stance

variable {tokens : Nat → Bool} {stance : Stance} {w : Wait} {token : Nat}

/-- A pause that is woken is still under way. -/
theorem wait?_roused : (stance.roused tokens).wait? = stance.wait? := by
  cases stance with
  | asleep w =>
    simp only [roused]
    split <;> rfl
  | idle | rousing | checking => rfl

/-- Those sleep on that are not woken. -/
theorem roused_eq_asleep_iff :
    stance.roused tokens = .asleep w ↔ stance = .asleep w ∧ tokens w.token = false := by
  cases stance with
  | asleep w' =>
    simp only [roused]
    split
    next woken =>
      refine iff_of_false (by simp) ?_
      rintro ⟨⟨⟩, sleeps⟩
      rw [woken] at sleeps
      cases sleeps
    next sleeps =>
      constructor
      · rintro ⟨⟩
        exact ⟨rfl, eq_false_of_ne_true sleeps⟩
      · exact fun h => h.1
  | idle | rousing | checking => simp [roused]

/-- A waking leaves who does not sleep. -/
theorem roused_eq_self (awake : ∀ w, stance ≠ .asleep w) : stance.roused tokens = stance := by
  cases stance with
  | asleep w => exact absurd rfl (awake w)
  | idle | rousing | checking => rfl

/-- A cancel under way is left to wake. -/
theorem roused_eq_rousing_iff : stance.roused tokens = .rousing token ↔ stance = .rousing token := by
  cases stance with
  | asleep w =>
    simp only [roused]
    split <;> simp
  | idle | rousing | checking => rfl

theorem roused_none : stance.roused (fun _ => false) = stance := by
  cases stance <;> rfl

end Stance

/-- Threads, the tokens that they hold, and the clock. -/
structure Crowd where
  tokens : CancelFlags
  now : Nat
  threads : Nat → Stance

/-- What can happen in a crowd. -/
inductive Act where
  /-- A thread starts to cancel a token: the flag is set. -/
  | raise (thread token : Nat)
  /-- The cancel wakes the pauses that sleep on the flag, and returns. -/
  | rouse (thread token : Nat)
  /-- A thread starts a pause. -/
  | pause (thread token : Nat) (length : Duration)
  /-- A pause looks and returns. -/
  | give (thread : Nat) (outcome : WaitOutcome)
  /-- A pause looks and goes to sleep. -/
  | doze (thread : Nat)
  /-- A sleeping pause wakes up because its time is over, or without need. -/
  | stir (thread : Nat)
  /-- A clone of a token is made. -/
  | clone (token : Nat)
  /-- A token of its own is made. -/
  | create
  /-- Time goes by. -/
  | tick (now : Nat)

/-- The thread whose act it is. -/
def Act.thread? : Act → Option Nat
  | .raise thread _ | .rouse thread _ | .pause thread _ _ | .give thread _ | .doze thread
  | .stir thread => some thread
  | .clone _ | .create | .tick _ => none

namespace Crowd

/-- One token that nobody has cancelled, and threads that have not begun. -/
def initial (now : Nat) : Crowd := ⟨.one, now, fun _ => .idle⟩

/-- A thread takes a stance. -/
def turn (s : Crowd) (thread : Nat) (stance : Stance) : Crowd :=
  { s with threads := Function.update s.threads thread stance }

/-- Those that sleep on the flag of a token are woken. -/
def roused (s : Crowd) (token : Nat) : Crowd :=
  { s with threads := fun thread => (s.threads thread).roused (s.tokens.shares token) }

/-- **One step of a crowd**, in which the last instant of the clock is given. -/
inductive Step (limit : Nat) (s : Crowd) : Act → Crowd → Prop where
  | raise {thread token : Nat} (idle : s.threads thread = .idle)
      (held : token < s.tokens.tokens.length) :
      Step limit s (.raise thread token)
        ({ s with tokens := s.tokens.cancel token }.turn thread (.rousing token))
  | rouse {thread token : Nat} (rousing : s.threads thread = .rousing token) :
      Step limit s (.rouse thread token) ((s.roused token).turn thread .idle)
  | pause {thread token : Nat} (length : Duration) (idle : s.threads thread = .idle)
      (held : token < s.tokens.tokens.length) :
      Step limit s (.pause thread token length)
        (s.turn thread (.checking ⟨token, length, s.now⟩))
  | give {thread : Nat} {w : Wait} {outcome : WaitOutcome} (checking : s.threads thread = .checking w)
      (looked : w.look limit s.tokens s.now = some outcome) :
      Step limit s (.give thread outcome) (s.turn thread .idle)
  | doze {thread : Nat} {w : Wait} (checking : s.threads thread = .checking w)
      (looked : w.look limit s.tokens s.now = none) :
      Step limit s (.doze thread) (s.turn thread (.asleep w))
  | stir {thread : Nat} {w : Wait} (asleep : s.threads thread = .asleep w) :
      Step limit s (.stir thread) (s.turn thread (.checking w))
  | clone {token : Nat} (held : token < s.tokens.tokens.length) :
      Step limit s (.clone token) { s with tokens := s.tokens.clone token }
  | create : Step limit s .create { s with tokens := s.tokens.create }
  | tick {now : Nat} (later : s.now ≤ now) : Step limit s (.tick now) { s with now := now }

/-- Several steps of a crowd. -/
inductive Runs (limit : Nat) (s : Crowd) : List Act → Crowd → Prop where
  | nil : Runs limit s [] s
  | snoc {acts : List Act} {act : Act} {t u : Crowd} (runs : Runs limit s acts t)
      (step : Step limit t act u) : Runs limit s (acts ++ [act]) u

variable {limit thread other token place : Nat} {s t u : Crowd} {act : Act} {acts acts' : List Act}
  {w : Wait} {stance : Stance}

@[simp] theorem turn_tokens : (s.turn thread stance).tokens = s.tokens := rfl

@[simp] theorem turn_self : (s.turn thread stance).threads thread = stance := by
  simp [turn]

theorem turn_of_ne (ne : other ≠ thread) :
    (s.turn thread stance).threads other = s.threads other := by
  simp [turn, ne]

theorem Runs.cons (step : s.Step limit act t) (runs : t.Runs limit acts u) :
    s.Runs limit (act :: acts) u := by
  induction runs with
  | nil => exact Runs.nil.snoc step
  | snoc _ last ih => exact ih.snoc last

/-- Runs end with their last step. -/
theorem Runs.eq_append_singleton (runs : s.Runs limit (acts ++ [act]) u) :
    ∃ t, s.Runs limit acts t ∧ t.Step limit act u := by
  generalize whole : acts ++ [act] = all at runs
  cases runs with
  | nil => simp at whole
  | snoc runs step =>
    obtain ⟨rfl, same⟩ := List.append_inj' whole rfl
    cases same
    exact ⟨_, runs, step⟩

/-- Runs of two parts come through a crowd in between. -/
theorem Runs.exists_of_append (runs : s.Runs limit (acts ++ acts') u) :
    ∃ t, s.Runs limit acts t ∧ t.Runs limit acts' u := by
  induction acts' using List.reverseRecOn generalizing u with
  | nil =>
    rw [List.append_nil] at runs
    exact ⟨u, runs, .nil⟩
  | append_singleton acts' act ih =>
    rw [← List.append_assoc] at runs
    obtain ⟨v, runs, step⟩ := runs.eq_append_singleton
    obtain ⟨t, first, second⟩ := ih runs
    exact ⟨t, first, second.snoc step⟩

/-! ## What a step does to the tokens -/

/-- A token keeps its flag. -/
theorem place_of_step (step : s.Step limit act t)
    (at_token : s.tokens.tokens[token]? = some place) : t.tokens.tokens[token]? = some place := by
  cases step with
  | rouse | pause | give | doze | stir | tick => exact at_token
  | raise =>
    rw [turn_tokens, CancelFlags.tokens_cancel]
    exact at_token
  | clone => exact CancelFlags.getElem?_tokens_clone at_token _
  | create => exact CancelFlags.getElem?_tokens_create at_token

theorem inPlace_of_step (inPlace : s.tokens.InPlace) (step : s.Step limit act t) :
    t.tokens.InPlace := by
  cases step with
  | rouse | pause | give | doze | stir | tick => exact inPlace
  | raise => exact inPlace.cancel _
  | clone => exact inPlace.clone _
  | create => exact inPlace.create

/-- **A flag is set by a cancel of one of its tokens**, and nothing clears it. -/
theorem isSet_of_step (inPlace : s.tokens.InPlace) (step : s.Step limit act t) :
    t.tokens.IsSet place ↔ s.tokens.IsSet place ∨
      ∃ thread token, act = .raise thread token ∧ s.tokens.tokens[token]? = some place := by
  cases step with
  | rouse | pause | give | doze | stir | tick => simp [roused]
  | raise => simp [CancelFlags.isSet_cancel inPlace, and_assoc]
  | clone => simp [CancelFlags.IsSet, CancelFlags.flags_clone]
  | create => simp [CancelFlags.isSet_create]

/-! ## What a step does to the threads -/

/-- The tokens of the pauses that an act wakes. -/
def wakes (s : Crowd) : Act → Nat → Bool
  | .rouse _ token => s.tokens.shares token
  | _ => fun _ => false

/-- **A thread is changed by its own acts**, and else is woken or stays as it is. -/
theorem threads_of_step (step : s.Step limit act t) (foreign : act.thread? ≠ some thread) :
    t.threads thread = (s.threads thread).roused (s.wakes act) := by
  have ne : ∀ {actor}, act.thread? = some actor → thread ≠ actor := by
    rintro actor acts rfl
    exact foreign acts
  cases step with
  | rouse => exact turn_of_ne (ne rfl)
  | raise | pause | give | doze | stir => exact (turn_of_ne (ne rfl)).trans Stance.roused_none.symm
  | clone | create | tick => exact Stance.roused_none.symm

/-- **A pause under way was under way before the step**, or the step has started it. -/
theorem wait?_of_step (step : s.Step limit act t) (underway : (t.threads thread).wait? = some w) :
    ((s.threads thread).wait? = some w ∧ ∀ outcome, act ≠ .give thread outcome) ∨
      act = .pause thread w.token w.length ∧ w.began = s.now ∧
        w.token < s.tokens.tokens.length := by
  by_cases own : act.thread? = some thread
  · cases step with
    | raise | rouse | give =>
      obtain rfl := Option.some.inj own
      simp [Stance.wait?] at underway
    | pause length idle held =>
      obtain rfl := Option.some.inj own
      rw [turn_self] at underway
      obtain rfl := Option.some.inj underway
      exact .inr ⟨rfl, rfl, held⟩
    | doze checking =>
      obtain rfl := Option.some.inj own
      rw [turn_self] at underway
      obtain rfl := Option.some.inj underway
      exact .inl ⟨by rw [checking]; rfl, by simp⟩
    | stir asleep =>
      obtain rfl := Option.some.inj own
      rw [turn_self] at underway
      obtain rfl := Option.some.inj underway
      exact .inl ⟨by rw [asleep]; rfl, by simp⟩
    | clone | create | tick => cases own
  · rw [threads_of_step step own, Stance.wait?_roused] at underway
    refine .inl ⟨underway, ?_⟩
    rintro outcome rfl
    exact own rfl

/-- **A sleeper was asleep before the step and is not woken by it**, or it has just looked at a
flag that is clear. -/
theorem asleep_of_step (step : s.Step limit act t) (asleep : t.threads thread = .asleep w) :
    (s.threads thread = .asleep w ∧ s.wakes act w.token = false) ∨
      (s.threads thread).wait? = some w ∧ s.tokens.isCancelled w.token = false := by
  by_cases own : act.thread? = some thread
  · cases step with
    | raise | rouse | pause | give | stir =>
      obtain rfl := Option.some.inj own
      simp at asleep
    | doze checking looked =>
      obtain rfl := Option.some.inj own
      rw [turn_self] at asleep
      cases asleep
      exact .inr ⟨by rw [checking]; rfl, Wait.clear_of_look_eq_none looked⟩
    | clone | create | tick => cases own
  · rw [threads_of_step step own] at asleep
    exact .inl (Stance.roused_eq_asleep_iff.mp asleep)

/-- A cancel whose wake-up is to come had it to come before the step, or the step has set its
flag. -/
theorem rousing_of_step (step : s.Step limit act t) (rousing : t.threads thread = .rousing token) :
    s.threads thread = .rousing token ∨
      act = .raise thread token ∧ token < s.tokens.tokens.length := by
  by_cases own : act.thread? = some thread
  · cases step with
    | raise idle held =>
      obtain rfl := Option.some.inj own
      rw [turn_self] at rousing
      cases rousing
      exact .inr ⟨rfl, held⟩
    | rouse | pause | give | doze | stir =>
      obtain rfl := Option.some.inj own
      simp at rousing
    | clone | create | tick => cases own
  · rw [threads_of_step step own] at rousing
    exact .inl (Stance.roused_eq_rousing_iff.mp rousing)

/-- A cancel under way stays so until it wakes. -/
theorem rousing_stays (step : s.Step limit act t) (rousing : s.threads thread = .rousing token) :
    t.threads thread = .rousing token ∨ act = .rouse thread token := by
  by_cases own : act.thread? = some thread
  · cases step with
    | rouse rousing' =>
      obtain rfl := Option.some.inj own
      cases rousing.symm.trans rousing'
      exact .inr rfl
    | raise other | pause _ other | give other | doze other | stir other =>
      obtain rfl := Option.some.inj own
      cases rousing.symm.trans other
    | clone | create | tick => cases own
  · rw [threads_of_step step own]
    exact .inl (Stance.roused_eq_rousing_iff.mpr rousing)

theorem rousing_of_raise (step : s.Step limit (.raise thread token) t) :
    t.threads thread = .rousing token := by
  cases step with
  | raise => exact turn_self

theorem rousing_of_rouse (step : s.Step limit (.rouse thread token) t) :
    s.threads thread = .rousing token := by
  cases step with
  | rouse rousing => exact rousing

/-- A pause that is about to look is so until its thread acts. -/
theorem checking_of_foreign_step (step : s.Step limit act t) (foreign : act.thread? ≠ some thread)
    (checking : s.threads thread = .checking w) : t.threads thread = .checking w := by
  rw [threads_of_step step foreign, checking]
  exact Stance.roused_eq_self (by simp)

end Crowd

end SessionDirectory
