import SessionDirectory.Announcement
import SessionDirectory.Listing.Record
import SessionDirectory.Listing.Reply
import SessionDirectory.Proofs.Json.ReadBack

/-!
# Records on the wire

Announcements, entries of the public list, credentials and what is needed to join a session are
written as JSON texts and read back from them, field by field. What a text leaves out is what its
reader takes for absent: an announcement without user names has no list of them, and an entry
without a room code or without a private flag has no such member.

## Main definitions

* `WireFormats`: the texts of all four kinds of records bring the records back

## Main results

* `Announcement.read_tree`, `SessionRecord.read_tree`, `Credential.read_tree`, `JoinInfo.read_tree`:
  the tree of a written record is read as the record
* `wireFormats_readBack`: all four kinds of records come back from their texts
-/

set_option autoImplicit false

namespace SessionDirectory

open Json (Raw Value)
open Json.Raw

/-! ## Announcements -/

namespace Announcement

theorem floatFree_toJson (a : Announcement) : a.toJson.FloatFree := by
  refine .object ?_
  cases a.usernames <;> simp

/-- The names of an announcement are distinct, and its members have nothing to sort inside. -/
theorem read_requestBody (a : Announcement) : read a.requestBody.tree = read a.toJson.tree := by
  have sorted : a.requestBody.tree.record fieldNames = a.toJson.tree.record fieldNames := by
    apply record_tree_sortKeys
    · cases a.usernames <;> simp
    · cases a.usernames <;> simp
  rw [read, read, sorted]

/-- **The tree of a written announcement is read as the announcement.** -/
theorem read_tree (a : Announcement) : read a.toJson.tree = .ok a := by
  obtain ⟨id, host, port, protocol, title, users, usernames, password, nsfm, owner, isPrivate⟩ := a
  -- The list of user names is left out when it is empty, which is its default.
  have names : ∀ field,
      field = (if usernames.isEmpty then none else some (Value.ofStrings usernames).tree) →
      defaulted [] texts field = .ok usernames := by
    intro field found
    rw [Value.tree_ofStrings] at found
    exact reads_texts.defaulted_of_omitted found List.isEmpty_iff.mp
  cases usernames
  all_goals
    refine bind_eq_ok (record_tree (by simp) fieldNames) ?_
    refine bind_eq_ok (reads_text.required_eq rfl) ?_
    refine bind_eq_ok (reads_text.required_eq rfl) ?_
    refine bind_eq_ok (reads_uint16.required_eq rfl) ?_
    refine bind_eq_ok (reads_text.required_eq rfl) ?_
    refine bind_eq_ok (reads_text.required_eq rfl) ?_
    refine bind_eq_ok (reads_uint32.required_eq rfl) ?_
    refine bind_eq_ok (names _ rfl) ?_
    refine bind_eq_ok (reads_flag.required_eq rfl) ?_
    refine bind_eq_ok (reads_flag.required_eq rfl) ?_
    refine bind_eq_ok (reads_text.required_eq rfl) ?_
    refine bind_eq_ok (reads_flag.required_eq rfl) ?_
    rfl

/-- Announcements come back from the bodies of their requests. -/
theorem readBack : ReadBack (fun a => a.requestBody.compact) parse :=
  .of_tree (fun a => a.floatFree_toJson.sortKeys) fun a => a.read_requestBody.trans a.read_tree

/-- An announcement leaves out the list of user names if it is empty. -/
theorem member?_usernames_iff (a : Announcement) :
    a.requestBody.member? "usernames" = none ↔ a.usernames = [] := by
  rw [requestBody, toJson, Value.member?_sortKeys_eq_none_iff, Value.member?_eq_none_iff]
  cases a.usernames <;> simp

end Announcement

/-! ## Entries of the public list -/

namespace SessionRecord

theorem floatFree_toJson (r : SessionRecord) : r.toJson.FloatFree := by
  refine .object ?_
  cases r.roomcode <;> cases r.isPrivate <;> simp

/-- **The tree of a written entry is read as the entry.** -/
theorem read_tree (r : SessionRecord) : read r.toJson.tree = .ok r := by
  obtain ⟨host, port, id, protocol, title, users, usernames, password, nsfm, owner, started,
    roomcode, isPrivate⟩ := r
  refine bind_eq_ok (record_tree (by cases roomcode <;> cases isPrivate <;> simp) fieldNames) ?_
  refine bind_eq_ok (reads_text.required_eq rfl) ?_
  refine bind_eq_ok (reads_uint16.required_eq rfl) ?_
  refine bind_eq_ok (reads_text.required_eq rfl) ?_
  refine bind_eq_ok (reads_text.defaulted_eq rfl) ?_
  refine bind_eq_ok (reads_text.defaulted_eq rfl) ?_
  refine bind_eq_ok (reads_uint32.defaulted_eq rfl) ?_
  refine bind_eq_ok (reads_texts.defaulted_eq (congrArg some (Value.tree_ofStrings usernames))) ?_
  refine bind_eq_ok (reads_flag.defaulted_eq rfl) ?_
  refine bind_eq_ok (reads_flag.defaulted_eq rfl) ?_
  refine bind_eq_ok (reads_text.defaulted_eq rfl) ?_
  refine bind_eq_ok (reads_text.defaulted_eq rfl) ?_
  refine bind_eq_ok (reads_text.optionalField_map_eq nofun roomcode ?_) ?_
  · cases roomcode <;> cases isPrivate <;> rfl
  refine bind_eq_ok (reads_flag.optionalField_map_eq nofun isPrivate ?_) ?_
  · cases roomcode <;> cases isPrivate <;> rfl
  rfl

theorem readBack : ReadBack (fun r => r.toJson.compact) parse :=
  .of_tree floatFree_toJson read_tree

theorem member?_roomcode_iff (r : SessionRecord) :
    r.toJson.member? "roomcode" = none ↔ r.roomcode = none := by
  rw [toJson, Value.member?_eq_none_iff]
  cases r.roomcode <;> cases r.isPrivate <;> simp

theorem member?_private_iff (r : SessionRecord) :
    r.toJson.member? "private" = none ↔ r.isPrivate = none := by
  rw [toJson, Value.member?_eq_none_iff]
  cases r.roomcode <;> cases r.isPrivate <;> simp

end SessionRecord

/-! ## Credentials and join information -/

namespace Credential

theorem floatFree_toJson (c : Credential) : c.toJson.FloatFree := by
  refine .object ?_
  cases c.id <;> simp [ListingId.toJson]

/-- **The tree of a written credential is read as the credential.** -/
theorem read_tree (c : Credential) : read c.toJson.tree = .ok c := by
  refine bind_eq_ok (record_tree (by simp) _) ?_
  refine bind_eq_ok (ListingId.reads_read.required_eq rfl) ?_
  refine bind_eq_ok (reads_text.required_eq rfl) ?_
  rfl

theorem readBack : ReadBack (fun c => c.toJson.compact) parse :=
  .of_tree floatFree_toJson read_tree

end Credential

namespace JoinInfo

theorem floatFree_toJson (j : JoinInfo) : j.toJson.FloatFree := .object (by simp)

/-- **The tree of written join information is read as that.** -/
theorem read_tree (j : JoinInfo) : read j.toJson.tree = .ok j := by
  refine bind_eq_ok (record_tree (by simp) fieldNames) ?_
  refine bind_eq_ok (reads_text.required_eq rfl) ?_
  refine bind_eq_ok (reads_uint16.required_eq rfl) ?_
  refine bind_eq_ok (reads_text.required_eq rfl) ?_
  rfl

theorem readBack : ReadBack (fun j => j.toJson.compact) parse :=
  .of_tree floatFree_toJson read_tree

end JoinInfo

/-! ## All formats -/

/-- **The texts of all four kinds of records bring the records back**, and a member is left out only
where its field has the value that is read when it is absent. -/
structure WireFormats : Prop where
  announcement : ReadBack (fun a : Announcement => a.requestBody.compact) Announcement.parse
  record : ReadBack (fun r : SessionRecord => r.toJson.compact) SessionRecord.parse
  credential : ReadBack (fun c : Credential => c.toJson.compact) Credential.parse
  joinInfo : ReadBack (fun j : JoinInfo => j.toJson.compact) JoinInfo.parse
  usernames : ∀ a : Announcement,
    a.requestBody.member? "usernames" = none ↔ a.usernames = []
  roomcode : ∀ r : SessionRecord, r.toJson.member? "roomcode" = none ↔ r.roomcode = none
  isPrivate : ∀ r : SessionRecord, r.toJson.member? "private" = none ↔ r.isPrivate = none

/-- **All four kinds of records come back from their texts.** -/
theorem wireFormats_readBack : WireFormats where
  announcement := Announcement.readBack
  record := SessionRecord.readBack
  credential := Credential.readBack
  joinInfo := JoinInfo.readBack
  usernames := Announcement.member?_usernames_iff
  roomcode := SessionRecord.member?_roomcode_iff
  isPrivate := SessionRecord.member?_private_iff

end SessionDirectory
