import SessionDirectory.Directory.Client
import SessionDirectory.Proofs.Update.BatchBody
import SessionDirectory.ResponseFile

/-!
# An update alone and in a batch

An update is sent alone as the body of a request, and in a batch as the member under the text of its
id. The member carries the update key, which replaces a field of the same name. A request for one
listing has the key in a header, but nothing keeps a field of that name out of its body: the two
forms have the same fields otherwise, and are the same exactly if the update has no such field.

## Main definitions

* `Sends`: updates are sent in one call with a body
* `Alike`: the body of an update alone is its member of a batch but for the update key
* `SentBothWays`: what is sent of an update alone and in a batch

## Main results

* `member?_ofPending_of_once`: an update is found in the body of a batch under the text of its id
* `sentBothWays_of_once`: when an update is the same alone and in a batch
* `not_alike_of_key_field`: an update that sends its key in the body
-/

set_option autoImplicit false

namespace SessionDirectory

open Json (Value)

section Alone

variable {ps before after : List PendingUpdate} {p : PendingUpdate}

/-- Updates are sent in one call that has the text of a value as its body, whatever the server
answers. -/
def Sends (ps : List PendingUpdate) (body : Value) : Prop :=
  ∃ call, (∀ d, ((submitUpdates ps).run d).1 = [call]) ∧ Client.body call = some body.compact

theorem sends_alone (p : PendingUpdate) : Sends [p] p.fields.requestBody :=
  ⟨.update p.credential.id p.credential.key p.fields, fun _ => rfl, rfl⟩

theorem sends_batch (several : 2 ≤ ps.length) :
    Sends ps (BatchUpdate.ofPending ps).requestBody := by
  match ps with
  | [] | [_] => simp at several
  | first :: second :: rest =>
    exact ⟨.batchUpdate (.ofPending (first :: second :: rest)), fun _ => rfl, rfl⟩

/-- **An update whose id text no other one has is the member of the batch under that text.** -/
theorem member?_ofPending_of_once
    (once : ∀ q ∈ before ++ after, q.credential.id.toText ≠ p.credential.id.toText) :
    (BatchUpdate.ofPending (before ++ p :: after)).requestBody.member? p.credential.id.toText =
      some p.entry.toJson.sortKeys := by
  refine member?_ofPending_of_last (fun q mem => once q (List.mem_append_right _ mem)) ?_
  intro q listed same
  -- Only the update itself has the text.
  rcases List.mem_append.mp listed with mem | mem
  · exact absurd same (once q (List.mem_append_left _ mem))
  rcases List.mem_cons.mp mem with rfl | mem
  · rfl
  · exact absurd same (once q (List.mem_append_right _ mem))

/-- The fields of an update and its member of a batch differ in nothing but the update key. -/
theorem without_requestBody (p : PendingUpdate) :
    p.fields.requestBody.without batchKeyField =
      p.entry.toJson.sortKeys.without batchKeyField :=
  (Value.without_sortKeys_insert p.fields batchKeyField _).symm

/-- **An update is the same alone and in a batch**: the body of the update alone has no member of
the name of the update key, and is the member of the batch without that one. -/
structure Alike (ps : List PendingUpdate) (p : PendingUpdate) : Prop where
  keyless : p.fields.requestBody.member? batchKeyField = none
  same : ∃ member,
    (BatchUpdate.ofPending ps).requestBody.member? p.credential.id.toText = some member ∧
      p.fields.requestBody = member.without batchKeyField

/-- **What is sent of an update alone and in a batch.** -/
structure SentBothWays (ps : List PendingUpdate) (p : PendingUpdate) : Prop where
  alone : Sends [p] p.fields.requestBody
  /-- A list of one update is sent as an update alone. -/
  batch : 2 ≤ ps.length → Sends ps (BatchUpdate.ofPending ps).requestBody
  /-- Under other names than that of the update key, the two forms have the same members. -/
  rest : ∃ member,
    (BatchUpdate.ofPending ps).requestBody.member? p.credential.id.toText = some member ∧
      member.member? batchKeyField = some (.string p.credential.key) ∧
      p.fields.requestBody.without batchKeyField = member.without batchKeyField
  alike_iff : Alike ps p ↔ p.fields.get? batchKeyField = none

/-- **An update whose id text no other one has is the same alone and in a batch** if and only if it
has no field of the name of the update key. -/
theorem sentBothWays_of_once
    (once : ∀ q ∈ before ++ after, q.credential.id.toText ≠ p.credential.id.toText) :
    SentBothWays (before ++ p :: after) p := by
  have member := member?_ofPending_of_once once
  have key : p.fields.requestBody.member? batchKeyField =
      (p.fields.get? batchKeyField).map Value.sortKeys :=
    Value.member?_sortKeys_ofEntries p.fields batchKeyField
  refine ⟨sends_alone p, sends_batch, ⟨_, member, (carries_toJson p).key, without_requestBody p⟩,
    ?_⟩
  constructor
  · intro alike
    exact Option.map_eq_none_iff.mp (key.symm.trans alike.keyless)
  · intro absent
    -- Without such a field the body alone loses nothing with the name of the key.
    have kept : p.fields.requestBody.without batchKeyField = p.fields.requestBody :=
      Value.without_sortKeys_eq_self absent
    refine ⟨by rw [key, absent, Option.map_none], _, member, ?_⟩
    rw [← without_requestBody, kept]

end Alone

/-- An update with a field is the same alone and next to an update of another listing. -/
theorem sentBothWays_title :
    let p : PendingUpdate := ⟨⟨.number 5, "secret"⟩, SortedMap.empty.insert "title" (.string "t")⟩
    let q : PendingUpdate := ⟨⟨.text "6", "other"⟩, SortedMap.empty⟩
    (∀ q' ∈ [] ++ [q], q'.credential.id.toText ≠ p.credential.id.toText) ∧
      p.fields.get? batchKeyField = none ∧ SentBothWays ([] ++ p :: [q]) p := by
  intro p q
  have once : ∀ q' ∈ [] ++ [q], q'.credential.id.toText ≠ p.credential.id.toText := by decide
  exact ⟨once, rfl, sentBothWays_of_once once⟩

/-- An update with a field of the name of the update key, as a response file may hold it: alone it
sends the key in its body, and in a batch the field does not count. -/
theorem not_alike_of_key_field :
    let p : PendingUpdate := ⟨⟨.number 5, "secret"⟩,
      SortedMap.ofList [("title", .string "t"), ("updatekey", .string "secret")]⟩
    let q : PendingUpdate := ⟨⟨.text "6", "other"⟩, SortedMap.empty⟩
    Sends [p] p.fields.requestBody ∧
      p.fields.requestBody.member? "updatekey" = some (.string "secret") ∧
      ¬ Alike [p] p ∧ ¬ Alike [p, q] p := by
  intro p q
  have key : p.fields.requestBody.member? batchKeyField = some (.string "secret") :=
    Value.member?_sortKeys_ofEntries p.fields batchKeyField
  refine ⟨sends_alone p, key, fun alike => ?_, fun alike => ?_⟩
  all_goals
    have keyless := alike.keyless
    rw [key] at keyless
    cases keyless

end SessionDirectory
