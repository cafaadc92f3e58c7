import SessionDirectory.Proofs.Lifecycle.CallOrder

/-!
# The verdict on a run

Where the pacer lets a number of pauses elapse and cancels the next one, a run returns, and its
result is a matter of the answers alone: the first answer that is not as it should be decides, and
where there is none the run ends well. `Verdict` says so without the keeper.

## Main definitions

* `Verdict d session n`: the result that the answers of a server call for
* `endState`: the state in which a result leaves the listing

## Main results

* `Verdict.unique`: the answers call for one result only
* `History.length_lt_of_cancels`: a run that is not over has taken fewer turns than there can be
* `History.verdict`: a run that is over has the verdict
* `verdict_of_elapsing`: every run returns with the verdict
-/

set_option autoImplicit false

namespace SessionDirectory

/-- **The result that the answers of a server call for**, where a run refreshes `n` times. -/
inductive Verdict (d : Directory) (session : Announcement) (n : Nat) :
    Except LifecycleError Outcome → Prop where
  | refused {fault : LifecycleError} (refusal : Refusal (d [] (.announce session)) fault) :
      Verdict d session n (.error fault)
  | beatFailed {credential : Credential} {i : Nat} {fault : LifecycleError}
      (announced : Announced d session credential) (lt : i < n)
      (first : ∀ j < i, IsOk (beatAnswer d session credential j))
      (faulty : Faulty .refreshing refreshStatuses (beatAnswer d session credential i) fault) :
      Verdict d session n (.error fault)
  | unremoved {credential : Credential} {fault : LifecycleError}
      (announced : Announced d session credential)
      (ok : ∀ j < n, IsOk (beatAnswer d session credential j))
      (faulty : Faulty .unlisting removalStatuses
        (d (callsBefore session credential n) credential.removal) fault) :
      Verdict d session n (.error fault)
  | removed {credential : Credential} {response : Response} {refreshes : UInt32}
      (announced : Announced d session credential)
      (ok : ∀ j < n, IsOk (beatAnswer d session credential j))
      (answer : d (callsBefore session credential n) credential.removal = .ok response)
      (status : response.status ∈ removalStatuses) (count : refreshes.toNat = n) :
      Verdict d session n (.ok ⟨credential, refreshes, response.status, .terminated⟩)

/-- The state in which a result leaves the listing. -/
def endState : Except LifecycleError Outcome → LifecycleState
  | .ok _ => .terminated
  | .error _ => .error

variable {config : LifecycleConfig} {session : Announcement} {credential credential' : Credential}
  {schedule : RefreshSchedule} {n m : Nat} {turns : List Turn} {log : List LogEntry} {k : Keeper}
  {d : Directory} {p : Pacer}

/-! ## The answers call for one result only -/

theorem Announced.unique (announced : Announced d session credential)
    (announced' : Announced d session credential') : credential' = credential := by
  obtain ⟨response, reply, answer, accepts⟩ := announced
  obtain ⟨response', reply', answer', accepts'⟩ := announced'
  obtain rfl : response = response' := by simpa [answer] using answer'
  exact (accepts.unique accepts').2

theorem Announced.not_refusal {fault : LifecycleError}
    (announced : Announced d session credential) :
    ¬ Refusal (d [] (.announce session)) fault := by
  obtain ⟨response, reply, answer, accepts⟩ := announced
  rw [answer]
  exact accepts.not_refusal

/-- The first refresh at fault is one only. -/
theorem first_beat_unique {i j : Nat} {fault fault' : LifecycleError}
    (first : ∀ l < i, IsOk (beatAnswer d session credential l))
    (faulty : Faulty .refreshing refreshStatuses (beatAnswer d session credential i) fault)
    (first' : ∀ l < j, IsOk (beatAnswer d session credential l))
    (faulty' : Faulty .refreshing refreshStatuses (beatAnswer d session credential j) fault') :
    i = j := by
  rcases Nat.lt_trichotomy i j with lt | eq | gt
  · exact absurd (first' i lt) faulty.not_isOk
  · exact eq
  · exact absurd (first j gt) faulty'.not_isOk

/-- **The answers of a server call for one result only.** -/
theorem Verdict.unique {result result' : Except LifecycleError Outcome}
    (verdict : Verdict d session n result) (verdict' : Verdict d session n result') :
    result' = result := by
  -- The credential is that of the announcement; then the refreshes before the first one at fault
  -- agree, and so do the answers to the removal.
  cases verdict with
  | refused refusal =>
    cases verdict' with
    | refused refusal' => rw [refusal.unique refusal']
    | beatFailed announced | unremoved announced | removed announced =>
      exact absurd refusal announced.not_refusal
  | beatFailed announced lt first faulty =>
    cases verdict' with
    | refused refusal => exact absurd refusal announced.not_refusal
    | beatFailed announced' _ first' faulty' =>
      obtain rfl := announced.unique announced'
      obtain rfl := first_beat_unique first faulty first' faulty'
      rw [faulty.unique faulty']
    | unremoved announced' ok | removed announced' ok =>
      obtain rfl := announced.unique announced'
      exact absurd (ok _ lt) faulty.not_isOk
  | unremoved announced ok faulty =>
    cases verdict' with
    | refused refusal => exact absurd refusal announced.not_refusal
    | beatFailed announced' lt _ faulty' =>
      obtain rfl := announced.unique announced'
      exact absurd (ok _ lt) faulty'.not_isOk
    | unremoved announced' _ faulty' =>
      obtain rfl := announced.unique announced'
      rw [faulty.unique faulty']
    | removed announced' _ answer status =>
      obtain rfl := announced.unique announced'
      exact absurd ⟨_, answer, status⟩ faulty.not_status
  | removed announced ok answer status count =>
    cases verdict' with
    | refused refusal => exact absurd refusal announced.not_refusal
    | beatFailed announced' lt _ faulty' =>
      obtain rfl := announced.unique announced'
      exact absurd (ok _ lt) faulty'.not_isOk
    | unremoved announced' _ faulty' =>
      obtain rfl := announced.unique announced'
      exact absurd ⟨_, answer, status⟩ faulty'.not_status
    | removed announced' _ answer' _ count' =>
      obtain rfl := announced.unique announced'
      obtain rfl := Except.ok.inj (answer.symm.trans answer')
      rw [UInt32.toNat_inj.mp (count.trans count'.symm)]

/-! ## A run returns -/

/-- While a listing is kept, there is a turn for the announcement and two for each refresh. -/
theorem Kept.length_eq (kept : Kept config session credential schedule m turns log) :
    turns.length = 2 * m + 1 := by
  induction kept with
  | accepted => rfl
  | beat _ _ ih =>
    simp only [List.length_append, ih, List.length_cons, List.length_nil]
    omega

section Cancelling

variable (cancels : ∀ length, p n length = .cancelled)
include cancels

/-- There are no more refreshes than pauses that elapse. -/
theorem Kept.le_of_cancels (kept : Kept config session credential schedule m turns log)
    (follows : Follows d p turns) : m ≤ n := by
  apply Nat.le_of_not_lt
  intro lt
  have elapsed := (kept.follows follows).2.2 n lt
  simp [cancels] at elapsed

/-- A refresh that is made comes before the pause that is cancelled. -/
theorem Kept.lt_of_cancels {rest : List Turn}
    (kept : Kept config session credential schedule m turns log)
    (follows : Follows d p (turns ++ .pause schedule.wait .elapsed :: rest)) : m < n := by
  rw [follows_append] at follows
  obtain ⟨before, outcome, -⟩ := follows
  rw [kept.pausesOf_eq, List.length_replicate] at outcome
  have ne : m ≠ n := by
    rintro rfl
    simp [cancels] at outcome
  exact Nat.lt_of_le_of_ne (kept.le_of_cancels cancels before) ne

/-- A run that is not over has taken fewer turns than a whole run takes. -/
theorem History.length_lt_of_cancels (history : History config session turns k)
    (follows : Follows d p turns) :
    turns.length < 2 * n + 3 ∨ ∃ result, k.phase = .finished result := by
  -- The longest way is the announcement, the refreshes with their pauses, and the last pause.
  cases history with
  | refused | failed | cleaned | removed | unremoved => exact .inr ⟨_, rfl⟩
  | fresh =>
    left
    simp
  | waiting kept =>
    have le := kept.le_of_cancels cancels follows
    have length := kept.length_eq
    omega
  | due kept | cleaning kept =>
    have lt := kept.lt_of_cancels cancels follows
    simp only [List.length_append, List.length_cons, List.length_nil, kept.length_eq]
    omega
  | leaving kept =>
    have le := kept.le_of_cancels cancels (follows_append.mp follows).1
    simp only [List.length_append, List.length_cons, List.length_nil, kept.length_eq]
    omega

/-- A run that removes the listing has refreshed after every pause that elapsed. -/
theorem Kept.eq_of_cancels {answer : Answer} {rest : List Turn}
    (elapses : ∀ i < n, ∀ length, p i length = .elapsed)
    (kept : Kept config session credential schedule m turns log)
    (follows : Follows d p
      (turns ++ .pause schedule.wait .cancelled :: .call credential.removal answer :: rest)) :
    m = n := by
  have le := kept.le_of_cancels cancels (follows_append.mp follows).1
  have cancelled := (kept.follows_removal follows).1
  apply Nat.le_antisymm le
  apply Nat.le_of_not_lt
  intro lt
  -- A pause that elapses is not the one that is cancelled.
  simp [elapses m lt] at cancelled

/-- A run that is over has the verdict on the answers. -/
theorem History.verdict (small : n < UInt32.size) (elapses : ∀ i < n, ∀ length, p i length = .elapsed)
    {result : Except LifecycleError Outcome} (history : History config session turns k)
    (follows : Follows d p turns) (phase : k.phase = .finished result) :
    Verdict d session n result ∧ k.state = endState result := by
  cases history with
  | fresh | waiting | due | cleaning | leaving => simp at phase
  | refused refusal =>
    obtain rfl := Phase.finished.inj phase
    obtain ⟨answer, -⟩ := follows
    exact ⟨.refused (answer ▸ refusal), rfl⟩
  | failed kept faulty | cleaned kept faulty =>
    obtain rfl := Phase.finished.inj phase
    obtain ⟨announced, ok, -⟩ := kept.follows (follows_append.mp follows).1
    obtain ⟨answer, -⟩ := kept.follows_beat follows
    exact ⟨.beatFailed announced (kept.lt_of_cancels cancels follows) ok (answer ▸ faulty), rfl⟩
  | removed kept status =>
    obtain rfl := Phase.finished.inj phase
    obtain rfl := kept.eq_of_cancels cancels elapses follows
    obtain ⟨announced, ok, -⟩ := kept.follows (follows_append.mp follows).1
    obtain ⟨-, answer⟩ := kept.follows_removal follows
    exact ⟨.removed announced ok answer.symm status (UInt32.toNat_ofNat_of_lt small), rfl⟩
  | unremoved kept faulty =>
    obtain rfl := Phase.finished.inj phase
    obtain rfl := kept.eq_of_cancels cancels elapses follows
    obtain ⟨announced, ok, -⟩ := kept.follows (follows_append.mp follows).1
    obtain ⟨-, answer⟩ := kept.follows_removal follows
    exact ⟨.unremoved announced ok (answer ▸ faulty), rfl⟩

end Cancelling

/-- A run whose keeper has finished returns what the keeper has become. -/
theorem Controller.run?_eq_of_finished {c : Controller} {steps : Nat}
    {result : Except LifecycleError Outcome} (ended : (c.start session).run d p steps = k)
    (phase : k.phase = .finished result) :
    c.run? d p session steps = some (⟨k.log, result, k.state⟩, { c with state := k.state }) := by
  simp [Controller.run?, ended, Keeper.result?, phase]

/-- **Every run returns with the verdict on the answers**, where the pacer lets `n` pauses elapse
and cancels the next one; the listing is left terminated or in the error state. -/
theorem verdict_of_elapsing (d : Directory) (session : Announcement) (config : LifecycleConfig)
    (small : n < UInt32.size) (elapses : ∀ i < n, ∀ length, p i length = .elapsed)
    (cancels : ∀ length, p n length = .cancelled) {steps : Nat} (enough : 2 * n + 3 ≤ steps) :
    ∃ r, Controller.run? { config := config } d p session steps =
        some (r, { config := config, state := endState r.result }) ∧
      r.state = endState r.result ∧
      ∀ result, Verdict d session n result ↔ r.result = result := by
  obtain ⟨turns, history, follows, length⟩ := exists_history_of_start config session d p steps
  generalize ended : Keeper.run d p steps (Controller.start { config := config } session) = k
    at history length
  have finished : ∃ result, k.phase = .finished result := by
    rcases length with taken | finished
    · rcases history.length_lt_of_cancels cancels follows with lt | finished
      · omega
      · exact finished
    · exact finished
  -- So the run is over, and its history gives the verdict.
  obtain ⟨result, phase⟩ := finished
  obtain ⟨verdict, state⟩ := history.verdict cancels small elapses follows phase
  refine ⟨⟨k.log, result, k.state⟩, ?_, state, fun other => ⟨fun h => ?_, ?_⟩⟩
  · rw [Controller.run?_eq_of_finished ended phase, state]
  · exact (verdict.unique h).symm
  · rintro rfl
    exact verdict

/-- With a server that is tired after two refreshes, a run that would refresh five times returns
with the verdict. -/
theorem verdict_tiringServer :
    5 < UInt32.size ∧ (∀ i < 5, ∀ length, Pacer.elapsing 5 i length = .elapsed) ∧
      (∀ length, Pacer.elapsing 5 5 length = .cancelled) ∧ 2 * 5 + 3 ≤ 13 ∧
      ∃ r, Controller.run? { config := {} } (tiringServer 3) (.elapsing 5) (.ofDefaults {} "s") 13 =
          some (r, { config := {}, state := endState r.result }) ∧
        r.state = endState r.result ∧
        ∀ result, Verdict (tiringServer 3) (.ofDefaults {} "s") 5 result ↔ r.result = result := by
  have elapses : ∀ i < 5, ∀ length, Pacer.elapsing 5 i length = .elapsed := by
    intro i lt length
    simp [Pacer.elapsing, lt]
  have cancels : ∀ length, Pacer.elapsing 5 5 length = .cancelled := fun _ => rfl
  exact ⟨by decide, elapses, cancels, by decide,
    verdict_of_elapsing _ _ _ (by decide) elapses cancels (by decide)⟩

end SessionDirectory
