import SessionDirectory.Listing.Reply
import SessionDirectory.Proofs.Except
import SessionDirectory.Proofs.Json.Record
import SessionDirectory.ResponseFile

/-!
# Replies handed back

The reply to an announcement is printed as a line, and what is printed can be saved and handed back
as a response file. Both readers look for the id and the key in the same way, but a file is checked
where a reply is not: a reply with an empty id, the id `0` or an empty key is accepted, and as a
file it names no listing.

## Main definitions

* `Credential.Storable`: a credential that a response file may name
* `HandedBack`: what comes of a text that is handed back as a response file

## Main results

* `ResponseFile.parse_of_reply`: a reply is a response file with the id and the key of the reply
* `handedBack_of_reply`: a reply handed back gives its credential if that one is storable
* `not_parse_of_id_zero`: a reply that is accepted and cannot be handed back
-/

set_option autoImplicit false

namespace SessionDirectory

open Json (Raw)

section Replies

variable {path text body : String} {r : Raw} {reply : AnnounceReply} {credential : Credential}
  {members : List (Option String × Raw)}

/-- What is read as a reply has its id and its key as fields. -/
theorem AnnounceReply.of_read_eq_ok (decoded : AnnounceReply.read r = .ok reply) :
    ∃ get, r.record AnnounceReply.fieldNames = .ok get ∧
      Raw.optionalField ListingId.read (get "id") = .ok reply.id ∧
      Raw.optionalField Raw.text (get "key") = .ok reply.key := by
  obtain ⟨get, fields, decoded⟩ := exists_of_bind_eq_ok decoded
  obtain ⟨id, idRead, decoded⟩ := exists_of_bind_eq_ok decoded
  obtain ⟨key, keyRead, decoded⟩ := exists_of_bind_eq_ok decoded
  obtain ⟨_, -, decoded⟩ := exists_of_bind_eq_ok decoded
  obtain ⟨_, -, decoded⟩ := exists_of_bind_eq_ok decoded
  obtain ⟨_, -, decoded⟩ := exists_of_bind_eq_ok decoded
  obtain ⟨_, -, decoded⟩ := exists_of_bind_eq_ok decoded
  cases decoded
  exact ⟨get, fields, idRead, keyRead⟩

/-- **A reply that is an object without updates is a response file** with the id and the key of the
reply and no updates. -/
theorem ResponseFile.parse_of_reply (object : Raw.parse text = .ok (.object members))
    (noUpdates : ∀ m ∈ members, m.1 ≠ some "updates")
    (decoded : AnnounceReply.parse text = .ok reply) :
    ResponseFile.parse text = .ok ⟨reply.id, reply.key, SortedMap.empty⟩ := by
  obtain ⟨_, tree, decoded⟩ := exists_of_bind_eq_ok decoded
  cases object.symm.trans tree
  obtain ⟨get, fields, id, key⟩ := AnnounceReply.of_read_eq_ok decoded
  -- A file has the fields that a reply has, and the updates.
  have fields' : (Raw.object members).record ResponseFile.fieldNames = .ok get := by
    refine Raw.record_of_record fields fun name mem => ?_
    rcases List.mem_cons.mp mem with rfl | mem
    · exact .inl (by decide)
    rcases List.mem_cons.mp mem with rfl | mem
    · exact .inl (by decide)
    · rw [List.mem_singleton.mp mem]
      exact .inr noUpdates
  have absent : get "updates" = none := by
    obtain ⟨-, -, rfl⟩ := Raw.record_object_eq_ok_iff.mp fields
    show (Raw.lookup members "updates").head? = none
    rw [Raw.lookup_eq_nil_iff.mpr noUpdates, List.head?_nil]
  rw [ResponseFile.parse, object]
  show ResponseFile.read (.object members) = _
  rw [ResponseFile.read, fields']
  show (do
    let id ← Raw.optionalField ListingId.read (get "id")
    let key ← Raw.optionalField Raw.text (get "key")
    let updates ← Raw.defaulted _ _ (get "updates")
    return ResponseFile.mk id key updates) = _
  rw [id, key, absent]
  rfl

/-- A response file may name the credential: neither half is empty, and the id is not `0`. -/
structure Credential.Storable (c : Credential) : Prop where
  id : c.id.toText ≠ ""
  nonzero : c.id.toText ≠ "0"
  key : c.key ≠ ""

/-- **What comes of a text that is handed back as a response file**: the listing of a credential,
without updates, or the complaint that it names none. -/
structure HandedBack (path text : String) (credential : Credential) : Prop where
  stored : StoredListing.parse path text = .ok ⟨path, credential, SortedMap.empty⟩ ↔
    credential.Storable
  missingId : StoredListing.parse path text = .error (.missingId path) ↔
    credential.id.toText = "" ∨ credential.id.toText = "0"
  missingKey : StoredListing.parse path text = .error (.missingKey path) ↔
    credential.id.toText ≠ "" ∧ credential.id.toText ≠ "0" ∧ credential.key = ""

/-- A file with both halves of a credential is checked for what they are: the id before the key. -/
theorem parse_eq_of_file (path : String) {fields : UpdateFields}
    (file : ResponseFile.parse text = .ok ⟨some credential.id, some credential.key, fields⟩) :
    StoredListing.parse path text =
      if credential.id.toText = "" ∨ credential.id.toText = "0" then .error (.missingId path)
      else if credential.key = "" then .error (.missingKey path)
      else .ok ⟨path, credential, fields⟩ := by
  rw [StoredListing.parse, file]
  by_cases noId : credential.id.toText = "" ∨ credential.id.toText = "0"
  · rcases noId with empty | zero
    · simp [Option.filter_some, ListingId.isEmpty, empty]
    · simp [Option.filter_some, zero]
  · obtain ⟨id, nonzero⟩ := not_or.mp noId
    by_cases key : credential.key = ""
    · simp [Option.filter_some, ListingId.isEmpty, id, nonzero, key]
    · simp [Option.filter_some, ListingId.isEmpty, id, nonzero, key]

theorem handedBack_of_file
    (file : ResponseFile.parse text = .ok ⟨some credential.id, some credential.key, .empty⟩) :
    HandedBack path text credential := by
  have checked := parse_eq_of_file path file
  by_cases noId : credential.id.toText = "" ∨ credential.id.toText = "0"
  · rw [if_pos noId] at checked
    refine ⟨?_, iff_of_true checked noId, ?_⟩
    · exact iff_of_false (by simp [checked]) fun storable => noId.elim storable.id storable.nonzero
    · exact iff_of_false (by simp [checked]) fun named => noId.elim named.1 named.2.1
  rw [if_neg noId] at checked
  obtain ⟨id, nonzero⟩ := not_or.mp noId
  by_cases noKey : credential.key = ""
  · rw [if_pos noKey] at checked
    refine ⟨?_, ?_, iff_of_true checked ⟨id, nonzero, noKey⟩⟩
    · exact iff_of_false (by simp [checked]) fun storable => storable.key noKey
    · exact iff_of_false (by simp [checked]) noId
  · rw [if_neg noKey] at checked
    refine ⟨iff_of_true checked ⟨id, nonzero, noKey⟩, ?_, ?_⟩
    · exact iff_of_false (by simp [checked]) noId
    · exact iff_of_false (by simp [checked]) fun named => noKey named.2.2

/-- **A reply with a credential, handed back as it is or as the line that is printed, gives its
credential** if and only if that one is storable, and else is refused for the half that is not. -/
theorem handedBack_of_reply (object : Raw.parse body = .ok (.object members))
    (noUpdates : ∀ m ∈ members, m.1 ≠ some "updates")
    (decoded : AnnounceReply.parse body = .ok reply)
    (whole : reply.credential? = some credential) (path : String) :
    HandedBack path body credential ∧ HandedBack path (body ++ "\n") credential := by
  obtain ⟨id, key⟩ := AnnounceReply.credential?_eq_some_iff.mp whole
  have line := Raw.parse_append_newline object
  have decoded' : AnnounceReply.parse (body ++ "\n") = .ok reply := by
    rw [← decoded, AnnounceReply.parse, AnnounceReply.parse, line, object]
  constructor
  · apply handedBack_of_file
    rw [ResponseFile.parse_of_reply object noUpdates decoded, id, key]
  · apply handedBack_of_file
    rw [ResponseFile.parse_of_reply line noUpdates decoded', id, key]

end Replies

/-- A reply with a lease, handed back as the line that is printed. -/
theorem handedBack_of_lease :
    let body := "\x7b\"id\":17,\"key\":\"secret\",\"expires\":10\x7d"
    ∃ members reply, Raw.parse body = .ok (.object members) ∧
      (∀ m ∈ members, m.1 ≠ some "updates") ∧ AnnounceReply.parse body = .ok reply ∧
      reply.credential? = some ⟨.number 17, "secret"⟩ ∧
      HandedBack "reply.json" body ⟨.number 17, "secret"⟩ ∧
      HandedBack "reply.json" (body ++ "\n") ⟨.number 17, "secret"⟩ := by
  refine ⟨_, _, rfl, ?noUpdates, rfl, rfl, handedBack_of_reply rfl ?noUpdates rfl rfl "reply.json"⟩
  decide

/-- A reply with the id `0` is accepted, and handed back it is refused. -/
theorem not_parse_of_id_zero :
    let body := "\x7b\"id\":0,\"key\":\"k\"\x7d"
    (∃ members, Raw.parse body = .ok (.object members) ∧ ∀ m ∈ members, m.1 ≠ some "updates") ∧
      (∃ reply, AnnounceReply.parse body = .ok reply ∧
        reply.credential? = some ⟨.number 0, "k"⟩) ∧
      StoredListing.parse "f0.json" body = .error (.missingId "f0.json") := by
  refine ⟨⟨_, rfl, ?_⟩, ⟨_, rfl, rfl⟩, rfl⟩
  decide

end SessionDirectory
