import SessionDirectory.Proofs.Json.Field
import SessionDirectory.Proofs.Lifecycle.Verdict
import SessionDirectory.Proofs.Listing.HandedBack

/-!
# Which replies adopt a listing

A reply to an announcement is read as a whole before its id and its key are looked at. So a reply
with an id and a key is accepted if its other known members have the types of their fields, whatever
members else it has, and it is refused if one of them has not: the listing is there, and nobody will
refresh or remove it.

## Main definitions

* `Usable`: the members of a reply name a listing and the key of it
* `WellTyped`: the other known members have the types of their fields
* `Adopts`: a fresh controller keeps the listing, or removes it when it is cancelled
* `AcceptanceLaw`: which replies a fresh controller accepts, and what it does with the others

## Main results

* `exists_accepts_iff`: of the usable replies, those with well-typed members are accepted
* `acceptanceLaw`: the law holds for every policy, server and session
* `not_adopts_of_textForFlag`: a usable reply that is refused for a member of a wrong type
-/

set_option autoImplicit false

namespace SessionDirectory

open Json (Raw)

/-- The members of a reply name one listing and its key. No known member is repeated, and the names
of all members can be read. -/
structure Usable (members : List (Option String × Raw)) (credential : Credential) : Prop where
  once : ∀ name ∈ AnnounceReply.fieldNames, (Raw.lookup members name).length ≤ 1
  named : ∀ m ∈ members, m.1.isSome
  id : (some "id", credential.id.toJson.tree) ∈ members
  key : (some "key", Raw.string (some credential.key)) ∈ members

/-- The members of a reply that are known and optional are null or of the types of their fields. -/
structure WellTyped (members : List (Option String × Raw)) : Prop where
  expires : ∀ r, (some "expires", r) ∈ members →
    r.NullOr fun n : Int64 => .number (some (.integer (.ofInt64 n)))
  message : ∀ r, (some "message", r) ∈ members → r.NullOr fun s : String => .string (some s)
  roomcode : ∀ r, (some "roomcode", r) ∈ members → r.NullOr fun s : String => .string (some s)
  isPrivate : ∀ r, (some "private", r) ∈ members → r.NullOr .bool

/-- The server answers the first announcement of a session with status 200 and an object. -/
structure AnswersObject (d : Directory) (session : Announcement) (response : Response)
    (members : List (Option String × Raw)) : Prop where
  answer : d [] (.announce session) = .ok response
  status : response.status = 200
  object : Raw.parse response.body = .ok (.object members)

/-- **A fresh controller adopts the listing of a credential**: it goes on to pause before the first
refresh, and if that pause is cancelled, its only other call removes the listing. -/
structure Adopts (config : LifecycleConfig) (d : Directory) (session : Announcement)
    (credential : Credential) (schedule : RefreshSchedule) : Prop where
  waits : ∀ p, ∃ log, (Controller.start { config := config } session).run d p 1 =
    ⟨config, .refreshing, [.announced, .unannounced], log, .waiting credential schedule 0⟩
  removes : ∀ p : Pacer, p 0 schedule.wait = .cancelled →
    ∃ r c, Controller.run? { config := config } d p session 3 = some (r, c) ∧
      r.calls = [.announce session, credential.removal]

/-- **Which replies a fresh controller accepts.** -/
structure AcceptanceLaw (config : LifecycleConfig) (d : Directory) (session : Announcement) :
    Prop where
  /-- The listing of a usable reply with well-typed members is adopted. -/
  adopted : ∀ response members credential, AnswersObject d session response members →
    Usable members credential → WellTyped members →
    ∃ schedule, Adopts config d session credential schedule
  /-- A usable reply with other members ends the run, with nothing else done. -/
  refused : ∀ response members credential, AnswersObject d session response members →
    Usable members credential → ¬ WellTyped members →
    ∃ cause, ∀ p, Controller.run? { config := config } d p session 1 =
      some (⟨[.call (.announce session)],
          .error (.malformed .unannounced response (.unparseable cause)), .error⟩,
        { config := config, state := .error })
  /-- A run that ends for a malformed reply ends for the reply to the announcement, and that one is
  not usable with well-typed members. -/
  malformed : ∀ p steps r c state response fault,
    Controller.run? { config := config } d p session steps = some (r, c) →
    r.result = .error (.malformed state response fault) →
    state = .unannounced ∧ d [] (.announce session) = .ok response ∧ response.status = 200 ∧
      ∀ members credential, Raw.parse response.body = .ok (.object members) →
        Usable members credential → ¬ WellTyped members

section Replies

variable {r : Raw} {members : List (Option String × Raw)} {credential : Credential}
  {response : Response} {reply : AnnounceReply} {get : String → Option Raw}

/-- A reply is read if and only if each of its fields is. -/
theorem AnnounceReply.exists_read_iff (fields : r.record AnnounceReply.fieldNames = .ok get) :
    (∃ reply, AnnounceReply.read r = .ok reply) ↔
      (∃ x, Raw.optionalField ListingId.read (get "id") = .ok x) ∧
      (∃ x, Raw.optionalField Raw.text (get "key") = .ok x) ∧
      (∃ x, Raw.optionalField Raw.int64 (get "expires") = .ok x) ∧
      (∃ x, Raw.optionalField Raw.text (get "message") = .ok x) ∧
      (∃ x, Raw.optionalField Raw.text (get "roomcode") = .ok x) ∧
      ∃ x, Raw.optionalField Raw.flag (get "private") = .ok x := by
  constructor
  · rintro ⟨reply, decoded⟩
    obtain ⟨get', fields', decoded⟩ := exists_of_bind_eq_ok decoded
    obtain rfl : get = get' := by simpa [fields] using fields'
    obtain ⟨id, idRead, decoded⟩ := exists_of_bind_eq_ok decoded
    obtain ⟨key, keyRead, decoded⟩ := exists_of_bind_eq_ok decoded
    obtain ⟨expires, expiresRead, decoded⟩ := exists_of_bind_eq_ok decoded
    obtain ⟨message, messageRead, decoded⟩ := exists_of_bind_eq_ok decoded
    obtain ⟨roomcode, roomcodeRead, decoded⟩ := exists_of_bind_eq_ok decoded
    obtain ⟨isPrivate, isPrivateRead, -⟩ := exists_of_bind_eq_ok decoded
    exact ⟨⟨_, idRead⟩, ⟨_, keyRead⟩, ⟨_, expiresRead⟩, ⟨_, messageRead⟩, ⟨_, roomcodeRead⟩,
      ⟨_, isPrivateRead⟩⟩
  · rintro ⟨⟨id, idRead⟩, ⟨key, keyRead⟩, ⟨expires, expiresRead⟩, ⟨message, messageRead⟩,
      ⟨roomcode, roomcodeRead⟩, isPrivate, isPrivateRead⟩
    refine ⟨⟨id, key, expires, message, roomcode, isPrivate⟩, ?_⟩
    rw [AnnounceReply.read, fields]
    show (do
      let id ← Raw.optionalField ListingId.read (get "id")
      let key ← Raw.optionalField Raw.text (get "key")
      let expires ← Raw.optionalField Raw.int64 (get "expires")
      let message ← Raw.optionalField Raw.text (get "message")
      let roomcode ← Raw.optionalField Raw.text (get "roomcode")
      let isPrivate ← Raw.optionalField Raw.flag (get "private")
      return AnnounceReply.mk id key expires message roomcode isPrivate) = _
    rw [idRead, keyRead, expiresRead, messageRead, roomcodeRead, isPrivateRead]
    rfl

namespace Usable

theorem record_eq (usable : Usable members credential) :
    (Raw.object members).record AnnounceReply.fieldNames =
      .ok fun name => (Raw.lookup members name).head? :=
  Raw.record_object_eq_ok_iff.mpr ⟨usable.once, usable.named, rfl⟩

/-- The id and the key are what is looked up. -/
theorem head?_eq (usable : Usable members credential) :
    (Raw.lookup members "id").head? = some credential.id.toJson.tree ∧
      (Raw.lookup members "key").head? = some (.string (some credential.key)) := by
  constructor
  · exact (Raw.head?_lookup_eq_some_iff (usable.once "id" (by decide))).mpr usable.id
  · exact (Raw.head?_lookup_eq_some_iff (usable.once "key" (by decide))).mpr usable.key

theorem optionalField_eq (usable : Usable members credential) :
    Raw.optionalField ListingId.read (Raw.lookup members "id").head? = .ok (some credential.id) ∧
      Raw.optionalField Raw.text (Raw.lookup members "key").head? = .ok (some credential.key) := by
  rw [usable.head?_eq.1, usable.head?_eq.2]
  constructor
  · exact ListingId.reads_read.optionalField_eq credential.id.tree_ne_null
  · exact Raw.reads_text.optionalField_eq fun absent => nomatch absent

/-- A usable reply is read if and only if its other known members are well typed. -/
theorem exists_read_iff (usable : Usable members credential) :
    (∃ reply, AnnounceReply.read (.object members) = .ok reply) ↔ WellTyped members := by
  rw [AnnounceReply.exists_read_iff usable.record_eq,
    and_iff_right ⟨_, usable.optionalField_eq.1⟩, and_iff_right ⟨_, usable.optionalField_eq.2⟩,
    Raw.reads_int64.exists_optionalField_iff (usable.once _ (by decide)),
    Raw.reads_text.exists_optionalField_iff (usable.once _ (by decide)),
    Raw.reads_text.exists_optionalField_iff (usable.once _ (by decide)),
    Raw.reads_flag.exists_optionalField_iff (usable.once _ (by decide))]
  constructor
  · rintro ⟨expires, message, roomcode, isPrivate⟩
    exact ⟨expires, message, roomcode, isPrivate⟩
  · rintro ⟨expires, message, roomcode, isPrivate⟩
    exact ⟨expires, message, roomcode, isPrivate⟩

/-- What is read has the id and the key of the reply. -/
theorem of_read_eq_ok (usable : Usable members credential)
    (decoded : AnnounceReply.read (.object members) = .ok reply) :
    reply.id = some credential.id ∧ reply.key = some credential.key := by
  obtain ⟨get, fields, id, key⟩ := AnnounceReply.of_read_eq_ok decoded
  obtain rfl : get = _ := Except.ok.inj (fields.symm.trans usable.record_eq)
  constructor
  · simpa using id.symm.trans usable.optionalField_eq.1
  · simpa using key.symm.trans usable.optionalField_eq.2

end Usable

theorem AnnounceReply.parse_eq_read (object : Raw.parse response.body = .ok r) :
    AnnounceReply.parse response.body = AnnounceReply.read r := by
  rw [AnnounceReply.parse, object]
  rfl

/-- **A usable reply of status 200 is accepted** if and only if its other known members are well
typed. -/
theorem exists_accepts_iff (status : response.status = 200)
    (object : Raw.parse response.body = .ok (.object members))
    (usable : Usable members credential) :
    (∃ reply, Accepts response reply credential) ↔ WellTyped members := by
  rw [← usable.exists_read_iff, ← AnnounceReply.parse_eq_read object]
  constructor
  · rintro ⟨reply, accepts⟩
    exact ⟨reply, accepts.parsed⟩
  · rintro ⟨reply, parsed⟩
    have decoded := (AnnounceReply.parse_eq_read object).symm.trans parsed
    obtain ⟨id, key⟩ := usable.of_read_eq_ok decoded
    exact ⟨reply, status, parsed, id, key⟩

end Replies

/-! ## Runs -/

section Runs

variable {config : LifecycleConfig} {d : Directory} {session : Announcement} {response : Response}
  {reply : AnnounceReply} {credential : Credential} {members : List (Option String × Raw)}

theorem step_start (config : LifecycleConfig) (d : Directory) (p : Pacer)
    (session : Announcement) :
    (Controller.start { config := config } session).step d p =
      (Controller.start { config := config } session).answered (.announce session)
        (d [] (.announce session)) := rfl

theorem Keeper.step_of_call {k : Keeper} {call : Call} (asked : k.next = .call call) (p : Pacer) :
    k.step d p = k.answered call (d k.calls call) := by
  simp only [Keeper.step, asked]

theorem Keeper.step_of_pause {k : Keeper} {length : Duration} (asked : k.next = .pause length)
    (d : Directory) (p : Pacer) :
    k.step d p = k.paused length (p k.pauses.length length) := by
  simp only [Keeper.step, asked]

/-- The removal of the listing ends a run, whatever comes of it. -/
theorem Keeper.exists_finished_of_unlisting {k : Keeper} {count : UInt32}
    (phase : k.phase = .unlisting credential count) (answer : Answer) :
    ∃ result, (k.answered credential.removal answer).phase = .finished result := by
  rcases status_or_faulty k.state removalStatuses answer with
    ⟨response, rfl, status⟩ | ⟨fault, faulty⟩
  · exact ⟨_, by rw [Keeper.answered_unlisting_of_status phase status]⟩
  · exact ⟨_, by rw [Keeper.answered_unlisting_of_faulty phase faulty]⟩

/-- After an accepted announcement the keeper waits. -/
theorem exists_history_of_accepts (config : LifecycleConfig)
    (answer : d [] (.announce session) = .ok response)
    (accepts : Accepts response reply credential) :
    ∃ schedule log k, k = ⟨config, .refreshing, [.announced, .unannounced], log,
        .waiting credential schedule 0⟩ ∧
      History config session [.call (.announce session) (.ok response)] k ∧
      ∀ p, (Controller.start { config := config } session).step d p = k := by
  refine ⟨_, _, _, rfl, .waiting (.accepted accepts rfl), fun p => ?_⟩
  rw [step_start, answer, Keeper.answered_announcing_of_accepts rfl accepts]
  rfl

/-- **The listing of an accepted announcement is adopted.** -/
theorem exists_adopts_of_accepts (answer : d [] (.announce session) = .ok response)
    (accepts : Accepts response reply credential) :
    ∃ schedule, Adopts config d session credential schedule := by
  obtain ⟨schedule, log, k, waiting, history, first⟩ :=
    exists_history_of_accepts config answer accepts
  refine ⟨schedule, fun p => ⟨log, ?_⟩, fun p cancels => ?_⟩
  · rw [Keeper.run_succ, first, Keeper.run, waiting]
  -- The pause is the first one, and it is cancelled.
  have pause : k.next = .pause schedule.wait := by
    rw [waiting]
    rfl
  have second : k.step d p = k.paused schedule.wait .cancelled := by
    rw [Keeper.step_of_pause pause, history.pauses_eq, pausesOf_call, pausesOf_nil,
      List.length_nil, cancels]
  -- So the removal comes next, and it ends the run whatever the answer is.
  have phase : (k.step d p).phase = .unlisting credential 0 := by
    rw [second, waiting]
    rfl
  have removal : (k.step d p).next = .call credential.removal := by
    rw [Keeper.next, phase]
    rfl
  have history := history.paused pause .cancelled
  rw [← second] at history
  obtain ⟨result, ended⟩ := Keeper.exists_finished_of_unlisting phase
    (d (k.step d p).calls credential.removal)
  have third : (Controller.start { config := config } session).run d p 3 =
      (k.step d p).answered credential.removal (d (k.step d p).calls credential.removal) := by
    rw [Keeper.run_succ, first, Keeper.run_succ, Keeper.run_succ, Keeper.run,
      Keeper.step_of_call removal]
  exact ⟨_, _, Controller.run?_eq_of_finished third ended, (history.answered removal _).calls_eq⟩

/-- A refused announcement ends the run, with nothing else done. -/
theorem run?_of_refusal {fault : LifecycleError}
    (refusal : Refusal (d [] (.announce session)) fault) (p : Pacer) :
    Controller.run? { config := config } d p session 1 =
      some (⟨[.call (.announce session)], .error fault, .error⟩,
        { config := config, state := .error }) := by
  have ended : (Controller.start { config := config } session).run d p 1 =
      ⟨config, .error, [.unannounced], [.call (.announce session)], .finished (.error fault)⟩ := by
    rw [Keeper.run_succ, step_start, Keeper.answered_announcing_of_refusal rfl rfl refusal,
      Keeper.run]
    rfl
  exact Controller.run?_eq_of_finished ended rfl

/-- The malformed reply of a refused announcement has status 200. -/
theorem Refusal.of_malformed {answer : Answer} {state : LifecycleState} {fault : ReplyFault}
    (refusal : Refusal answer (.malformed state response fault)) :
    state = .unannounced ∧ answer = .ok response ∧ response.status = 200 := by
  cases refusal with
  | unparseable status | noId status | noKey status => exact ⟨rfl, rfl, status⟩

/-- Only a refused announcement ends a run for a malformed reply. -/
theorem History.refusal_of_malformed {turns : List Turn} {k : Keeper} {state : LifecycleState}
    {fault : ReplyFault} {p : Pacer} (history : History config session turns k)
    (follows : Follows d p turns)
    (ended : k.phase = .finished (.error (.malformed state response fault))) :
    Refusal (d [] (.announce session)) (.malformed state response fault) := by
  cases history with
  | refused refusal =>
    have answer := follows.1
    rw [callsOf_nil] at answer
    cases ended
    rwa [← answer]
  | fresh | waiting | due | cleaning | leaving | removed => cases ended
  -- The faults of the other calls are of other kinds.
  | failed kept faulty | cleaned kept faulty | unremoved kept faulty =>
    cases ended
    cases faulty

/-- **The law of acceptance** holds for every policy, server and session. -/
theorem acceptanceLaw (config : LifecycleConfig) (d : Directory) (session : Announcement) :
    AcceptanceLaw config d session := by
  refine ⟨?adopted, ?refused, ?malformed⟩
  case adopted =>
    intro response members credential answers usable typed
    obtain ⟨reply, accepts⟩ :=
      (exists_accepts_iff answers.status answers.object usable).mpr typed
    exact exists_adopts_of_accepts answers.answer accepts
  case refused =>
    intro response members credential answers usable untyped
    -- A reply that is read would be well typed.
    cases parsed : AnnounceReply.parse response.body with
    | ok reply =>
      refine absurd (usable.exists_read_iff.mp ⟨reply, ?_⟩) untyped
      rw [← AnnounceReply.parse_eq_read answers.object, parsed]
    | error cause =>
      have refusal := Refusal.unparseable answers.status parsed
      rw [← answers.answer] at refusal
      exact ⟨cause, run?_of_refusal refusal⟩
  case malformed =>
    intro p steps r c state response fault returned result
    obtain ⟨turns, k, history, follows, ended, -⟩ := exists_history_of_returned returned
    rw [result] at ended
    -- The announcement was refused, so it was not accepted.
    have refusal := history.refusal_of_malformed follows ended
    obtain ⟨rfl, answer, status⟩ := refusal.of_malformed
    refine ⟨rfl, answer, status, fun members credential object usable typed => ?_⟩
    obtain ⟨reply, accepts⟩ := (exists_accepts_iff status object usable).mpr typed
    rw [answer] at refusal
    exact accepts.not_refusal refusal

end Runs

/-- A server that answers every announcement with a body, and removes every listing. -/
def replyingServer (body : String) : Directory := fun _ call =>
  match call with
  | .announce _ => .ok ⟨200, body⟩
  | _ => .ok ⟨204, ""⟩

/-- The members of a reply with a null, a negative lease and a member that nobody knows. -/
def oddMembers : List (Option String × Raw) :=
  [(some "x", .array [.object [(some "id", .null)]]), (some "key", .string (some "k")),
    (some "expires", .number (some (.integer ⟨-5, by decide, by decide⟩))),
    (some "id", .number (some (.integer (.ofUInt64 7)))), (some "private", .null)]

/-- The reply with those members is usable and well typed, so its listing is adopted. -/
theorem acceptanceLaw_oddMembers :
    let body :=
      "\x7b\"x\":[\x7b\"id\":null\x7d],\"key\":\"k\",\"expires\":-5,\"id\":7,\"private\":null\x7d"
    AnswersObject (replyingServer body) (.ofDefaults {} "s") ⟨200, body⟩ oddMembers ∧
      Usable oddMembers ⟨.number 7, "k"⟩ ∧ WellTyped oddMembers ∧
      ∃ schedule,
        Adopts {} (replyingServer body) (.ofDefaults {} "s") ⟨.number 7, "k"⟩ schedule := by
  have usable : Usable oddMembers ⟨.number 7, "k"⟩ :=
    ⟨by decide, by decide, .tail _ (.tail _ (.tail _ (.head _))), .tail _ (.head _)⟩
  have typed : WellTyped oddMembers := usable.exists_read_iff.mp ⟨_, rfl⟩
  exact ⟨⟨rfl, rfl, rfl⟩, usable, typed,
    (acceptanceLaw _ _ _).adopted _ _ _ ⟨rfl, rfl, rfl⟩ usable typed⟩

/-- The members of a reply with a text for a truth value. -/
def textForFlag : List (Option String × Raw) :=
  [(some "id", .number (some (.integer (.ofUInt64 7)))), (some "key", .string (some "k")),
    (some "private", .string (some "no"))]

/-- The reply with those members is usable, and it is refused: its listing is left alone. -/
theorem not_adopts_of_textForFlag :
    let body := "\x7b\"id\":7,\"key\":\"k\",\"private\":\"no\"\x7d"
    AnswersObject (replyingServer body) (.ofDefaults {} "s") ⟨200, body⟩ textForFlag ∧
      Usable textForFlag ⟨.number 7, "k"⟩ ∧ (textForFlag.map (·.1)).Nodup ∧
      (∀ schedule,
        ¬ Adopts {} (replyingServer body) (.ofDefaults {} "s") ⟨.number 7, "k"⟩ schedule) ∧
      ∀ p, Controller.run? { config := {} } (replyingServer body) p (.ofDefaults {} "s") 1 =
        some (⟨[.call (.announce (.ofDefaults {} "s"))],
            .error (.malformed .unannounced ⟨200, body⟩ (.unparseable (.mismatch "a boolean"))),
            .error⟩, { config := {}, state := .error }) := by
  refine ⟨⟨rfl, rfl, rfl⟩, ⟨by decide, by decide, .head _, .tail _ (.head _)⟩, by decide, ?_,
    fun p => rfl⟩
  intro schedule adopts
  obtain ⟨log, waits⟩ := adopts.waits (.elapsing 0)
  cases congrArg Keeper.phase waits

end SessionDirectory
