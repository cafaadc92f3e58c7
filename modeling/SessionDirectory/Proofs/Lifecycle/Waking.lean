import SessionDirectory.Proofs.Lifecycle.Crowd

/-!
# No wake-up is lost

The laws of tokens in every crowd that is reached, whatever the order in which its threads set
flags, wake, look, sleep and are woken. That a pause looks and goes to sleep in one step keeps it
from falling asleep between the two steps of a cancel; a pause that was asleep before is woken by
the second one.

## Main definitions

* `Crowd.Sound`: the flags are those of the tokens that were cancelled
* `Crowd.Awake`: who sleeps on a flag that is set will be woken
* `Crowd.Started`: a pause under way, told by the acts that have led to it
* `Crowd.Ending`: how a pause may end
* `Crowd.Ready`: a pause that can do nothing but return as cancelled
* `Crowd.Prompt`: a pause that returns as cancelled when it first looks
* `Crowd.TokenLaws`: the laws
* `Crowd.twoPauses`: two pauses and a cancel

## Main results

* `Crowd.Runs.sound`, `Crowd.Runs.awake`: the two invariants
* `Crowd.Runs.started`: every pause under way was started
* `Crowd.pauseUntilCancelled_of_step`: a pause without deadline returns once its token is cancelled
* `Crowd.tokenLaws_of_runs`: the laws hold in every crowd that is reached
-/

set_option autoImplicit false

namespace SessionDirectory.Crowd

variable {limit now thread token place : Nat} {s t u : Crowd} {act : Act} {acts acts' : List Act}
  {w : Wait} {outcome : WaitOutcome}

/-! ## The flags -/

/-- **The flags that are set are those of the tokens that were cancelled.** -/
structure Sound (acts : List Act) (s : Crowd) : Prop where
  inPlace : s.tokens.InPlace
  held : ∀ {thread token}, .raise thread token ∈ acts →
    ∃ place, s.tokens.tokens[token]? = some place
  isSet_iff : ∀ place, s.tokens.IsSet place ↔
    ∃ thread token, .raise thread token ∈ acts ∧ s.tokens.tokens[token]? = some place

/-- A token that has a place keeps it, so it has no other one after a step. -/
theorem place_eq_of_step (step : s.Step limit act t) {before : Nat}
    (at_token : s.tokens.tokens[token]? = some before)
    (at_token' : t.tokens.tokens[token]? = some place) : before = place :=
  Option.some.inj ((place_of_step step at_token).symm.trans at_token')

theorem Sound.step (sound : Sound acts s) (step : s.Step limit act t) :
    Sound (acts ++ [act]) t := by
  -- The token of a cancel exists when its flag is set.
  have held' : ∀ {thread token}, .raise thread token ∈ acts ++ [act] →
      ∃ place, s.tokens.tokens[token]? = some place := by
    intro thread token mem
    rcases List.mem_append.mp mem with mem | mem
    · exact sound.held mem
    · obtain rfl := List.mem_singleton.mp mem
      cases step with
      | raise idle held => exact ⟨_, List.getElem?_eq_getElem held⟩
  refine ⟨inPlace_of_step sound.inPlace step, ?_, ?_⟩
  · intro thread token mem
    obtain ⟨place, at_token⟩ := held' mem
    exact ⟨place, place_of_step step at_token⟩
  · intro place
    rw [isSet_of_step sound.inPlace step, sound.isSet_iff]
    constructor
    · rintro (⟨thread, token, mem, at_token⟩ | ⟨thread, token, rfl, at_token⟩)
      · exact ⟨thread, token, List.mem_append_left _ mem, place_of_step step at_token⟩
      · exact ⟨thread, token, List.mem_append_right _ List.mem_cons_self,
          place_of_step step at_token⟩
    · rintro ⟨thread, token, mem, at_token'⟩
      obtain ⟨before, at_token⟩ := held' mem
      obtain rfl := place_eq_of_step step at_token at_token'
      rcases List.mem_append.mp mem with mem | mem
      · exact .inl ⟨thread, token, mem, at_token⟩
      · exact .inr ⟨thread, token, (List.mem_singleton.mp mem).symm, at_token⟩

/-- **The flags of every crowd that is reached are sound.** -/
theorem Runs.sound (runs : (initial now).Runs limit acts s) : Sound acts s := by
  induction runs with
  | nil =>
    refine ⟨CancelFlags.inPlace_one, by simp, fun place => ?_⟩
    cases place <;> simp [initial, CancelFlags.IsSet, CancelFlags.one]
  | snoc _ step ih => exact ih.step step

/-- A token is cancelled if one that shares its flag was. -/
theorem Sound.isCancelled_iff (sound : Sound acts s) : s.tokens.isCancelled token = true ↔
    ∃ thread token', .raise thread token' ∈ acts ∧ s.tokens.shares token' token = true := by
  simp only [CancelFlags.isCancelled_iff, CancelFlags.shares_iff, sound.isSet_iff]
  constructor
  · rintro ⟨place, at_token, thread, token', mem, at_token'⟩
    exact ⟨thread, token', mem, place, at_token', at_token⟩
  · rintro ⟨thread, token', mem, place, at_token', at_token⟩
    exact ⟨place, at_token, thread, token', mem, at_token'⟩

/-- A token that is cancelled stays so. -/
theorem stays_cancelled_of_step (inPlace : s.tokens.InPlace) (step : s.Step limit act t)
    (cancelled : s.tokens.isCancelled token = true) : t.tokens.isCancelled token = true := by
  obtain ⟨place, at_token, set⟩ := CancelFlags.isCancelled_iff.mp cancelled
  exact CancelFlags.isCancelled_iff.mpr
    ⟨place, place_of_step step at_token, (isSet_of_step inPlace step).mpr (.inl set)⟩

/-! ## The sleepers -/

/-- **Who sleeps on a flag that is set will be woken**, and nobody does once a cancel has woken. -/
structure Awake (acts : List Act) (s : Crowd) : Prop where
  held : ∀ {thread w}, (s.threads thread).wait? = some w →
    ∃ place, s.tokens.tokens[w.token]? = some place
  rousing : ∀ {thread token}, s.threads thread = .rousing token →
    ∃ place, s.tokens.tokens[token]? = some place ∧ s.tokens.IsSet place
  pending : ∀ {thread w place}, s.threads thread = .asleep w →
    s.tokens.tokens[w.token]? = some place → s.tokens.IsSet place →
    ∃ waker token, s.threads waker = .rousing token ∧ s.tokens.tokens[token]? = some place
  roused : ∀ {waker token}, .rouse waker token ∈ acts →
    ∃ place, s.tokens.tokens[token]? = some place ∧ s.tokens.IsSet place ∧
      ∀ {thread w}, s.threads thread = .asleep w → s.tokens.tokens[w.token]? ≠ some place

theorem Awake.step (awake : Awake acts s) (inPlace : s.tokens.InPlace)
    (step : s.Step limit act t) : Awake (acts ++ [act]) t := by
  have stays : ∀ {place}, s.tokens.IsSet place → t.tokens.IsSet place := fun set =>
    (isSet_of_step inPlace step).mpr (.inl set)
  -- A sleeper has the flag that it had, and was asleep already if that one is set.
  have sleeper : ∀ {thread w place}, t.threads thread = .asleep w →
      t.tokens.tokens[w.token]? = some place → s.tokens.tokens[w.token]? = some place ∧
        (s.tokens.IsSet place → s.threads thread = .asleep w ∧ s.wakes act w.token = false) := by
    intro thread w place asleep at_token'
    rcases asleep_of_step step asleep with ⟨before, sleeps⟩ | ⟨underway, clear⟩
    · have underway : (s.threads thread).wait? = some w := by rw [before, Stance.wait?]
      obtain ⟨_, at_token⟩ := awake.held underway
      obtain rfl := place_eq_of_step step at_token at_token'
      exact ⟨at_token, fun _ => ⟨before, sleeps⟩⟩
    · obtain ⟨_, at_token⟩ := awake.held underway
      obtain rfl := place_eq_of_step step at_token at_token'
      exact ⟨at_token, fun set => absurd set (CancelFlags.not_isSet_of_not_cancelled clear at_token)⟩
  refine ⟨?_, ?_, ?_, ?_⟩
  · intro thread w underway
    rcases wait?_of_step step underway with ⟨before, -⟩ | ⟨-, -, held⟩
    · obtain ⟨place, at_token⟩ := awake.held before
      exact ⟨place, place_of_step step at_token⟩
    · exact ⟨_, place_of_step step (List.getElem?_eq_getElem held)⟩
  · intro thread token rousing
    rcases rousing_of_step step rousing with before | ⟨raise, held⟩
    · obtain ⟨place, at_token, set⟩ := awake.rousing before
      exact ⟨place, place_of_step step at_token, stays set⟩
    · have at_token := List.getElem?_eq_getElem held
      exact ⟨_, place_of_step step at_token,
        (isSet_of_step inPlace step).mpr (.inr ⟨thread, token, raise, at_token⟩)⟩
  · intro thread w place asleep at_token' set'
    obtain ⟨at_token, before⟩ := sleeper asleep at_token'
    rcases (isSet_of_step inPlace step).mp set' with set | ⟨waker, token, rfl, at_waker⟩
    · -- The flag was set, so a wake-up was to come, and it has not come for this sleeper.
      obtain ⟨before, sleeps⟩ := before set
      obtain ⟨waker, token, rousing, at_waker⟩ := awake.pending before at_token set
      rcases rousing_stays step rousing with still | rfl
      · exact ⟨waker, token, still, place_of_step step at_waker⟩
      · have woken : s.tokens.shares token w.token = true :=
          CancelFlags.shares_iff.mpr ⟨place, at_waker, at_token⟩
        rw [wakes, woken] at sleeps
        cases sleeps
    · -- The step has set the flag, and the cancel will wake.
      exact ⟨waker, token, rousing_of_raise step, place_of_step step at_waker⟩
  · intro waker token mem
    rcases List.mem_append.mp mem with mem | mem
    · obtain ⟨place, at_waker, set, none⟩ := awake.roused mem
      refine ⟨place, place_of_step step at_waker, stays set, fun asleep at_token' => ?_⟩
      obtain ⟨at_token, before⟩ := sleeper asleep at_token'
      exact none (before set).1 at_token
    · obtain rfl := List.mem_singleton.mp mem
      obtain ⟨place, at_waker, set⟩ := awake.rousing (rousing_of_rouse step)
      refine ⟨place, place_of_step step at_waker, stays set, fun asleep at_token' => ?_⟩
      -- All that slept on the flag have just been woken.
      obtain ⟨at_token, before⟩ := sleeper asleep at_token'
      have woken := CancelFlags.shares_iff.mpr ⟨place, at_waker, at_token⟩
      have sleeps := (before set).2
      rw [wakes, woken] at sleeps
      cases sleeps

/-- **The sleepers of every crowd that is reached will be woken.** -/
theorem Runs.awake (runs : (initial now).Runs limit acts s) : Awake acts s := by
  induction runs with
  | nil => exact ⟨by simp [initial, Stance.wait?], by simp [initial], by simp [initial], by simp⟩
  | snoc runs step ih => exact ih.step runs.sound.inPlace step

/-! ## The pauses -/

/-- **A pause under way was started and has not returned since**: the acts before its start lead to
the instant at which it began. -/
def Started (limit : Nat) (start : Crowd) (acts : List Act) (thread : Nat) (w : Wait) : Prop :=
  ∃ before s between, acts = before ++ .pause thread w.token w.length :: between ∧
    start.Runs limit before s ∧ s.now = w.began ∧ ∀ outcome, .give thread outcome ∉ between

/-- **Every pause under way was started.** -/
theorem Runs.started (runs : (initial now).Runs limit acts s)
    (underway : (s.threads thread).wait? = some w) :
    Started limit (initial now) acts thread w := by
  induction runs with
  | nil => simp [initial, Stance.wait?] at underway
  | @snoc acts act s t runs step ih =>
    rcases wait?_of_step step underway with ⟨before, stays⟩ | ⟨rfl, began, -⟩
    · obtain ⟨before, s, between, rfl, first, at_start, lasts⟩ := ih before
      refine ⟨before, s, between ++ [act], by simp, first, at_start, fun outcome mem => ?_⟩
      rcases List.mem_append.mp mem with mem | mem
      · exact lasts outcome mem
      · exact stays outcome (List.mem_singleton.mp mem).symm
    · exact ⟨acts, s, [], rfl, runs, began.symm, fun _ => List.not_mem_nil⟩

/-- **How a pause may end** at the flag and the clock of a crowd. -/
inductive Ending (limit : Nat) (s : Crowd) (w : Wait) : WaitOutcome → Prop where
  | cancelled (set : s.tokens.isCancelled w.token = true) : Ending limit s w .cancelled
  | elapsed {deadline : Nat} (clear : s.tokens.isCancelled w.token = false)
      (due : w.deadline? limit = some deadline)
      (passed : w.began + w.length.toNanoseconds ≤ s.now) : Ending limit s w .elapsed

theorem ending_of_look (looked : w.look limit s.tokens s.now = some outcome) :
    Ending limit s w outcome := by
  cases outcome with
  | cancelled => exact .cancelled (Wait.look_eq_cancelled_iff.mp looked)
  | elapsed =>
    obtain ⟨clear, deadline, due, passed⟩ := Wait.look_eq_elapsed_iff.mp looked
    rw [Wait.deadline?_eq_some due] at passed
    exact .elapsed clear due passed

/-- A pause returns when it looks, and ends accordingly. -/
theorem exists_ending_of_step (step : s.Step limit (.give thread outcome) t) :
    ∃ w, s.threads thread = .checking w ∧ Ending limit s w outcome := by
  cases step with
  | give checking looked => exact ⟨_, checking, ending_of_look looked⟩

/-- A pause without deadline has waited for a cancel of its token when it returns. -/
theorem pauseUntilCancelled_of_step (step : s.Step limit (.give thread outcome) t)
    (checking : s.threads thread = .checking w) (endless : w.deadline? limit = none) :
    s.tokens.pauseUntilCancelled w.token = (outcome, t.tokens) := by
  cases step with
  | give checking' looked =>
    cases checking.symm.trans checking'
    cases ending_of_look looked with
    | cancelled set =>
      rw [CancelFlags.pauseUntilCancelled, CancelFlags.cancel_of_isCancelled set, turn_tokens]
    | elapsed _ due => cases endless.symm.trans due

/-- **A thread can do nothing but return from its pause as cancelled**, and that it can do. -/
structure Ready (limit : Nat) (s : Crowd) (thread : Nat) : Prop where
  returns : ∃ t, s.Step limit (.give thread .cancelled) t
  only : ∀ {act t}, s.Step limit act t → act.thread? = some thread → act = .give thread .cancelled

/-- A pause is ready that is about to look at a flag that is set. -/
theorem ready_of_checking (checking : s.threads thread = .checking w)
    (set : s.tokens.isCancelled w.token = true) : Ready limit s thread := by
  have looks : w.look limit s.tokens s.now = some .cancelled := Wait.look_eq_cancelled_iff.mpr set
  refine ⟨⟨_, .give checking looks⟩, fun step own => ?_⟩
  cases step with
  | give checking' looked =>
    obtain rfl := Option.some.inj own
    cases checking.symm.trans checking'
    cases looks.symm.trans looked
    rfl
  | doze checking' looked =>
    obtain rfl := Option.some.inj own
    cases checking.symm.trans checking'
    cases looks.symm.trans looked
  | raise other | rouse other | pause _ other | stir other =>
    obtain rfl := Option.some.inj own
    cases checking.symm.trans other
  | clone | create | tick => cases own

/-- **A pause returns as cancelled when it first looks**, told by the acts since its start: its
thread has not acted and is ready, or its first act was to return. -/
def Prompt (limit : Nat) (s : Crowd) (thread : Nat) (since : List Act) : Prop :=
  (Ready limit s thread ∧ ∀ act ∈ since, act.thread? ≠ some thread) ∨
    ∃ waiting after, since = waiting ++ .give thread .cancelled :: after ∧
      ∀ act ∈ waiting, act.thread? ≠ some thread

/-- A pause that starts on a flag that is set is prompt. -/
theorem prompt_of_runs (inPlace : s.tokens.InPlace) (checking : s.threads thread = .checking w)
    (set : s.tokens.isCancelled w.token = true) (runs : s.Runs limit acts u) :
    Prompt limit u thread acts := by
  -- Until the thread acts, it is about to look at its flag, which stays set.
  have either : (u.tokens.InPlace ∧ u.threads thread = .checking w ∧
      u.tokens.isCancelled w.token = true ∧ ∀ act ∈ acts, act.thread? ≠ some thread) ∨
      ∃ waiting after, acts = waiting ++ .give thread .cancelled :: after ∧
        ∀ act ∈ waiting, act.thread? ≠ some thread := by
    induction runs with
    | nil => exact .inl ⟨inPlace, checking, set, by simp⟩
    | @snoc acts act t u _ step ih =>
      rcases ih with ⟨inPlace, checking, set, waits⟩ | ⟨waiting, after, rfl, waits⟩
      · by_cases own : act.thread? = some thread
        · obtain rfl := (ready_of_checking checking set).only step own
          exact .inr ⟨acts, [], rfl, waits⟩
        · refine .inl ⟨inPlace_of_step inPlace step, checking_of_foreign_step step own checking,
            stays_cancelled_of_step inPlace step set, fun act mem => ?_⟩
          rcases List.mem_append.mp mem with mem | mem
          · exact waits act mem
          · exact (List.mem_singleton.mp mem) ▸ own
      · exact .inr ⟨waiting, after ++ [act], by simp, waits⟩
  rcases either with ⟨_, checking, set, waits⟩ | returned
  · exact .inl ⟨ready_of_checking checking set, waits⟩
  · exact .inr returned

/-! ## The laws -/

/-- **The laws of tokens in a crowd**, with the acts that have led to it. -/
structure TokenLaws (limit : Nat) (start : Crowd) (acts : List Act) (s : Crowd) : Prop where
  /-- A token is cancelled if and only if some token that shares its flag was: all clones see the
  flag that one of them has set. -/
  cancelled_iff : ∀ token, s.tokens.isCancelled token = true ↔
    ∃ thread token', .raise thread token' ∈ acts ∧ s.tokens.shares token' token = true
  /-- The flag stays set, whatever comes next. -/
  stays : ∀ {act t token}, s.Step limit act t → s.tokens.isCancelled token = true →
    t.tokens.isCancelled token = true
  /-- A pause sleeps on a flag that is set only as long as a cancel has yet to wake it. -/
  pending : ∀ {thread w}, s.threads thread = .asleep w → s.tokens.isCancelled w.token = true →
    ∃ waker token, s.threads waker = .rousing token ∧ s.tokens.shares token w.token = true
  /-- Once a cancel has woken, no pause sleeps on its flag. -/
  awake : ∀ {waker token}, .rouse waker token ∈ acts → ∀ {thread w}, s.threads thread = .asleep w →
    s.tokens.shares token w.token = false
  started : ∀ {thread w}, (s.threads thread).wait? = some w → Started limit start acts thread w
  /-- A pause returns as cancelled only if the flag is set, and as elapsed only if it is clear and
  the time of the pause has passed since its start. -/
  ending : ∀ {thread outcome t}, s.Step limit (.give thread outcome) t →
    ∃ w, s.threads thread = .checking w ∧ Ending limit s w outcome
  /-- A pause without deadline does not elapse. -/
  endless : ∀ {thread w}, s.threads thread = .checking w → w.deadline? limit = none →
    ∀ t, ¬ s.Step limit (.give thread .elapsed) t
  /-- Once a cancel has woken, every pause on its flag is ready to return as cancelled. -/
  ready : ∀ {waker token}, .rouse waker token ∈ acts → ∀ {thread w},
    (s.threads thread).wait? = some w → s.tokens.shares token w.token = true →
    Ready limit s thread
  /-- A pause that is started after a cancel of its flag has returned is prompt, however long it
  is. -/
  prompt : ∀ {before thread token length since},
    acts = before ++ .pause thread token length :: since →
    ∀ {waker token'}, .rouse waker token' ∈ before → s.tokens.shares token' token = true →
    Prompt limit s thread since

/-- Once a cancel has woken, those that share its flag are cancelled. -/
theorem Awake.isCancelled_of_shares (awake : Awake acts s) {waker token' : Nat}
    (woken : .rouse waker token' ∈ acts) (shared : s.tokens.shares token' token = true) :
    s.tokens.isCancelled token = true := by
  obtain ⟨place, at_waker, set, -⟩ := awake.roused woken
  obtain ⟨place', at_waker', at_token⟩ := CancelFlags.shares_iff.mp shared
  cases at_waker.symm.trans at_waker'
  exact CancelFlags.isCancelled_iff.mpr ⟨place, at_token, set⟩

theorem Awake.shares_eq_false (awake : Awake acts s) {waker : Nat}
    (woken : .rouse waker token ∈ acts) (asleep : s.threads thread = .asleep w) :
    s.tokens.shares token w.token = false := by
  obtain ⟨place, at_waker, -, none⟩ := awake.roused woken
  refine eq_false_of_ne_true fun shared => ?_
  obtain ⟨place', at_waker', at_token⟩ := CancelFlags.shares_iff.mp shared
  cases at_waker.symm.trans at_waker'
  exact none asleep at_token

/-- Several steps leave a token its flag. -/
theorem Runs.place_of_start (runs : s.Runs limit acts t)
    (at_token : s.tokens.tokens[token]? = some place) : t.tokens.tokens[token]? = some place := by
  induction runs with
  | nil => exact at_token
  | snoc _ step ih => exact place_of_step step ih

/-- Tokens that exist share a flag after several steps only if they did before. -/
theorem Runs.shares_of_end (runs : s.Runs limit acts t) {token' place' : Nat}
    (at_token : s.tokens.tokens[token]? = some place)
    (at_token' : s.tokens.tokens[token']? = some place')
    (shared : t.tokens.shares token token' = true) : s.tokens.shares token token' = true := by
  obtain ⟨_, here, here'⟩ := CancelFlags.shares_iff.mp shared
  cases (runs.place_of_start at_token).symm.trans here
  cases (runs.place_of_start at_token').symm.trans here'
  exact CancelFlags.shares_iff.mpr ⟨place, at_token, at_token'⟩

theorem Runs.prompt {before since : List Act} {length : Duration} {waker token' : Nat}
    (runs : (initial now).Runs limit (before ++ .pause thread token length :: since) s)
    (woken : .rouse waker token' ∈ before) (shared : s.tokens.shares token' token = true) :
    Prompt limit s thread since := by
  rw [List.append_cons] at runs
  obtain ⟨u, first, rest⟩ := runs.exists_of_append
  obtain ⟨_, _, step⟩ := first.eq_append_singleton
  have checking : ∃ began, u.threads thread = .checking ⟨token, length, began⟩ := by
    cases step with
    | pause => exact ⟨_, turn_self⟩
  obtain ⟨began, checking⟩ := checking
  -- The two tokens shared their flag when the pause was started, and the flag was set.
  have woken := List.mem_append_left [.pause thread token length] woken
  obtain ⟨_, at_token', -⟩ := first.awake.roused woken
  have underway : (u.threads thread).wait? = some ⟨token, length, began⟩ := by
    rw [checking, Stance.wait?]
  obtain ⟨_, at_token⟩ := first.awake.held underway
  have set := first.awake.isCancelled_of_shares woken (rest.shares_of_end at_token' at_token shared)
  exact prompt_of_runs first.sound.inPlace checking set rest

/-- **The laws of tokens hold in every crowd that is reached**, in any order of steps. -/
theorem tokenLaws_of_runs (runs : (initial now).Runs limit acts s) :
    TokenLaws limit (initial now) acts s := by
  have sound := runs.sound
  have awake := runs.awake
  refine ⟨fun _ => sound.isCancelled_iff, stays_cancelled_of_step sound.inPlace, ?pending,
    fun woken => awake.shares_eq_false woken, runs.started, exists_ending_of_step, ?endless, ?ready,
    ?prompt⟩
  case pending =>
    intro thread w asleep cancelled
    obtain ⟨place, at_token, set⟩ := CancelFlags.isCancelled_iff.mp cancelled
    obtain ⟨waker, token, rousing, at_waker⟩ := awake.pending asleep at_token set
    exact ⟨waker, token, rousing, CancelFlags.shares_iff.mpr ⟨place, at_waker, at_token⟩⟩
  case endless =>
    intro thread w checking endless t step
    obtain ⟨w', checking', ending⟩ := exists_ending_of_step step
    cases checking.symm.trans checking'
    cases ending with
    | elapsed _ due => cases endless.symm.trans due
  case ready =>
    intro waker token woken thread w underway shared
    have set := awake.isCancelled_of_shares woken shared
    cases stance : s.threads thread with
    | checking w' =>
      rw [stance] at underway
      cases underway
      exact ready_of_checking stance set
    | asleep w' =>
      rw [stance] at underway
      cases underway
      rw [awake.shares_eq_false woken stance] at shared
      cases shared
    | idle | rousing =>
      rw [stance] at underway
      cases underway
  case prompt =>
    intro before thread token length since split waker token' woken shared
    subst split
    exact runs.prompt woken shared

/-- A pause without deadline falls asleep and stirs without need; a cancel of a clone sets the flag
before it can sleep again, and when the cancel has returned, a pause of no length is started. -/
def twoPauses : List Act :=
  [.clone 0, .pause 1 0 (.ofSeconds 60), .doze 1, .tick 90, .raise 2 1, .stir 1, .rouse 2 1,
    .pause 2 1 (.ofSeconds 0), .give 1 .cancelled, .give 2 .cancelled]

/-- Both pauses return as cancelled. -/
theorem tokenLaws_twoPauses :
    ∃ s, (initial 5).Runs 1000 twoPauses s ∧ TokenLaws 1000 (initial 5) twoPauses s := by
  obtain ⟨s, runs⟩ : ∃ s, (initial 5).Runs 1000 twoPauses s :=
    ⟨_, .cons (.clone (by decide)) <| .cons (.pause _ rfl (by decide)) <| .cons (.doze rfl rfl) <|
      .cons (.tick (by decide)) <| .cons (.raise rfl (by decide)) <| .cons (.stir rfl) <|
      .cons (.rouse rfl) <| .cons (.pause _ rfl (by decide)) <| .cons (.give rfl rfl) <|
      .cons (.give rfl rfl) .nil⟩
  exact ⟨s, runs, tokenLaws_of_runs runs⟩

end SessionDirectory.Crowd
