import Mathlib.Data.List.Nodup
import SessionDirectory.Proofs.Json.Members
import SessionDirectory.Update.Batch

/-!
# The body of a batch

A batch holds its entries under the ids of the listings, and its body names them by the texts of the
ids. Each entry becomes a member with its update key and its fields. Two ids of the same text, one
in text form and one in number form, are two entries but only one member, and then an update is
lost: the body of a batch holds every update exactly if no two of its ids are of that kind.

## Main definitions

* `Carries`: a member of the body is what an update asks for
* `NoneLost`: the body has a member for each entry, and for each update that is not replaced
* `TextsTellIds`: no two of the ids have the same text and different forms

## Main results

* `carries_toJson`: the member of an entry carries its update
* `BatchUpdate.memberCount_requestBody_eq_iff`: when the body has a member for each entry
* `keys_ofPending`: the ids of a batch
* `BatchUpdate.member?_requestBody_of_number`: an id in number form hides the one in text form
* `noneLost_iff`: when no update is lost
* `not_noneLost_of_two_forms`: an update that is lost
-/

set_option autoImplicit false

namespace SessionDirectory

open Json (Value)

/-! ## The member of an entry -/

/-- The entry of an update. -/
def PendingUpdate.entry (p : PendingUpdate) : BatchEntry := ⟨p.credential.key, p.fields⟩

/-- **A member of the body carries an update**: it has the update key, and its other members are the
fields of the update. -/
structure Carries (member : Value) (p : PendingUpdate) : Prop where
  key : member.member? batchKeyField = some (.string p.credential.key)
  /-- The objects inside a field have their members sorted. -/
  fields : ∀ name, name ≠ batchKeyField →
    member.member? name = (p.fields.get? name).map Value.sortKeys
  /-- Those that are sorted already, as all that are read are, stay as they are. -/
  ordered : ∀ name value, name ≠ batchKeyField → p.fields.get? name = some value → value.Ordered →
    member.member? name = some value

/-- The member of an entry carries its update, even if a field has the name of the update key. -/
theorem carries_toJson (p : PendingUpdate) : Carries p.entry.toJson.sortKeys p := by
  have fields : ∀ name, name ≠ batchKeyField →
      p.entry.toJson.sortKeys.member? name = (p.fields.get? name).map Value.sortKeys := by
    intro name other
    rw [BatchEntry.toJson, Value.member?_sortKeys_ofEntries, SortedMap.get?_insert_of_ne other]
    rfl
  refine ⟨?_, fields, fun name value other found ordered => ?_⟩
  · rw [BatchEntry.toJson, Value.member?_sortKeys_ofEntries, SortedMap.get?_insert_self]
    rfl
  · rw [fields name other, found, Option.map_some, ordered.sortKeys_eq_self]

/-! ## The members of the body -/

namespace BatchUpdate

/-- The members of the body before those of the same name are merged. -/
def named (b : BatchUpdate) : List (String × Value) :=
  b.entries.map fun e => (e.1.toText, e.2.toJson)

theorem map_fst_named (b : BatchUpdate) : b.named.map (·.1) = b.keys.map ListingId.toText := by
  simp [named, SortedMap.keys]

theorem member?_requestBody (b : BatchUpdate) (name : String) :
    b.requestBody.member? name = (b.members.get? name).map Value.sortKeys :=
  Value.member?_sortKeys_ofEntries b.members name

theorem memberCount_requestBody (b : BatchUpdate) : b.requestBody.memberCount = b.members.size := by
  rw [requestBody, Value.sortKeys_ofEntries, Value.memberCount, List.length_map, SortedMap.size]

/-- The body has a member for each entry if and only if the ids differ in their texts. -/
theorem memberCount_requestBody_eq_iff (b : BatchUpdate) :
    b.requestBody.memberCount = b.size ↔ (b.keys.map ListingId.toText).Nodup := by
  have length : b.named.length = b.size := by rw [named, List.length_map, SortedMap.size]
  rw [memberCount_requestBody, ← length, ← map_fst_named]
  exact SortedMap.size_ofList_eq_iff

end BatchUpdate

/-- **Of the entries whose ids have one text, the last one in the order of the ids is the
member.** -/
theorem BatchUpdate.member?_requestBody_of_last {b : BatchUpdate} {id : ListingId} {e : BatchEntry}
    (found : b.get? id = some e)
    (last : ∀ id' ∈ b.keys, id'.toText = id.toText → compare id id' ≠ .lt) :
    b.requestBody.member? id.toText = some e.toJson.sortKeys := by
  obtain ⟨before, after, split⟩ := List.append_of_mem (SortedMap.get?_eq_some_iff.mp found)
  have increase := b.increasing
  rw [split] at increase
  have below := (List.pairwise_cons.mp (List.pairwise_append.mp increase).2.1).1
  -- What comes later in the batch is greater, so it has another text.
  have other : id.toText ∉ (after.map fun e => (e.1.toText, e.2.toJson)).map (·.1) := by
    intro mem
    obtain ⟨e', later, same⟩ : ∃ e' ∈ after, e'.1.toText = id.toText := by simpa using mem
    have key : e'.1 ∈ b.keys := by
      rw [SortedMap.keys, split]
      exact List.mem_map_of_mem (List.mem_append_right _ (List.mem_cons_of_mem _ later))
    exact last e'.1 key same (below e' later)
  have member : b.members.get? id.toText = some e.toJson := by
    rw [members, split, List.map_append, List.map_cons]
    exact SortedMap.get?_ofList_of_last other
  rw [member?_requestBody, member, Option.map_some]

/-- An id in number form hides the id in text form that has the same text. -/
theorem BatchUpdate.member?_requestBody_of_number {b : BatchUpdate} {n : UInt64} {e : BatchEntry}
    (found : b.get? (.number n) = some e) :
    b.requestBody.member? (Decimal.text n.toNat) = some e.toJson.sortKeys := by
  apply BatchUpdate.member?_requestBody_of_last found
  intro id _ same lt
  cases id with
  | number m =>
    obtain rfl := ListingId.number_text_injective same
    simp [Std.ReflOrd.compare_self] at lt
  | text s =>
    -- The texts are the same, and a number form comes after a text form.
    change (compare (Decimal.text n.toNat) s).then .gt = .lt at lt
    cases order : compare (Decimal.text n.toNat) s with
    | lt =>
      change s = Decimal.text n.toNat at same
      simp [same, Std.ReflOrd.compare_self] at order
    | eq | gt => simp [order] at lt

/-! ## The batch of a list of updates -/

section Pending

variable {ps before after : List PendingUpdate} {p : PendingUpdate}

theorem ofPending_eq_ofList (ps : List PendingUpdate) :
    BatchUpdate.ofPending ps = SortedMap.ofList (ps.map fun p => (p.credential.id, p.entry)) := by
  rw [SortedMap.ofList, SortedMap.insertAll, List.foldl_map]
  rfl

/-- The ids of the batch are those of the updates. -/
theorem mem_keys_ofPending {id : ListingId} :
    id ∈ (BatchUpdate.ofPending ps).keys ↔ ∃ p ∈ ps, p.credential.id = id := by
  rw [ofPending_eq_ofList, SortedMap.mem_keys_ofList, List.map_map, List.mem_map]
  rfl

theorem ListingId.mem_sortDistinct {id : ListingId} {ids : List ListingId} :
    id ∈ sortDistinct ids ↔ id ∈ ids := by
  rw [sortDistinct, SortedMap.mem_keys_ofList, List.map_map]
  simp

/-- The batch has the ids of the updates in increasing order, each once. -/
theorem keys_ofPending (ps : List PendingUpdate) : (BatchUpdate.ofPending ps).keys =
    ListingId.sortDistinct (ps.map fun p => p.credential.id) := by
  refine SortedMap.keys_eq_of_mem_iff fun id => ?_
  show id ∈ (BatchUpdate.ofPending ps).keys ↔ id ∈ ListingId.sortDistinct _
  rw [mem_keys_ofPending, ListingId.mem_sortDistinct, List.mem_map]

/-- Of several updates for one id the last one counts. -/
theorem get?_ofPending_of_last (last : ∀ q ∈ after, q.credential.id ≠ p.credential.id) :
    (BatchUpdate.ofPending (before ++ p :: after)).get? p.credential.id = some p.entry := by
  rw [ofPending_eq_ofList, List.map_append, List.map_cons]
  refine SortedMap.get?_ofList_of_last ?_
  simpa using last

/-- **No update is lost**: the body of the batch has as many members as the batch has entries, and
the member of every update that is not replaced by a later one carries that update. -/
structure NoneLost (ps : List PendingUpdate) : Prop where
  count : (BatchUpdate.ofPending ps).requestBody.memberCount = (BatchUpdate.ofPending ps).size
  carried : ∀ before p after, ps = before ++ p :: after →
    (∀ q ∈ after, q.credential.id.toText ≠ p.credential.id.toText) →
    ∃ member, (BatchUpdate.ofPending ps).requestBody.member? p.credential.id.toText = some member ∧
      Carries member p

/-- The texts of the ids tell them apart: no two have the same text and different forms. -/
def TextsTellIds (ps : List PendingUpdate) : Prop :=
  ∀ p ∈ ps, ∀ q ∈ ps, p.credential.id.toText = q.credential.id.toText →
    p.credential.id = q.credential.id

theorem nodup_texts_iff : ((BatchUpdate.ofPending ps).keys.map ListingId.toText).Nodup ↔
    TextsTellIds ps := by
  constructor
  · intro differ p mem q mem' same
    exact List.inj_on_of_nodup_map differ (mem_keys_ofPending.mpr ⟨p, mem, rfl⟩)
      (mem_keys_ofPending.mpr ⟨q, mem', rfl⟩) same
  · intro tell
    refine List.Nodup.map_on ?_ (SortedMap.keys_nodup _)
    intro id mem id' mem' same
    obtain ⟨p, listed, rfl⟩ := mem_keys_ofPending.mp mem
    obtain ⟨q, listed', rfl⟩ := mem_keys_ofPending.mp mem'
    exact tell p listed q listed' same

/-- **Of the updates whose ids have one text the last one is the member**, if all of them are for one
id. -/
theorem member?_ofPending_of_last
    (last : ∀ q ∈ after, q.credential.id.toText ≠ p.credential.id.toText)
    (one : ∀ q ∈ before ++ p :: after, q.credential.id.toText = p.credential.id.toText →
      q.credential.id = p.credential.id) :
    (BatchUpdate.ofPending (before ++ p :: after)).requestBody.member? p.credential.id.toText =
      some p.entry.toJson.sortKeys := by
  have found : (BatchUpdate.ofPending (before ++ p :: after)).get? p.credential.id =
      some p.entry := by
    apply get?_ofPending_of_last
    intro q mem same
    exact last q mem (congrArg _ same)
  apply BatchUpdate.member?_requestBody_of_last found
  intro id mem same lt
  obtain ⟨q, listed, rfl⟩ := mem_keys_ofPending.mp mem
  -- An id of the same text is the same id, which is not greater than itself.
  rw [one q listed same, Std.ReflOrd.compare_self] at lt
  exact absurd lt (by decide)

/-- An update that is not replaced is carried, if the texts of the ids tell them apart. -/
theorem TextsTellIds.carried (tell : TextsTellIds (before ++ p :: after))
    (last : ∀ q ∈ after, q.credential.id.toText ≠ p.credential.id.toText) :
    (BatchUpdate.ofPending (before ++ p :: after)).requestBody.member? p.credential.id.toText =
      some p.entry.toJson.sortKeys := by
  apply member?_ofPending_of_last last
  intro q listed same
  exact tell q listed p (List.mem_append_right _ List.mem_cons_self) same

/-- **No update is lost if and only if the texts of the ids tell them apart.** -/
theorem noneLost_iff (ps : List PendingUpdate) : NoneLost ps ↔ TextsTellIds ps := by
  constructor
  · intro kept
    -- The number of members alone tells whether the texts of the ids differ.
    exact nodup_texts_iff.mp ((BatchUpdate.memberCount_requestBody_eq_iff _).mp kept.count)
  · intro tell
    constructor
    · exact (BatchUpdate.memberCount_requestBody_eq_iff _).mpr (nodup_texts_iff.mpr tell)
    · rintro before p after rfl last
      exact ⟨_, tell.carried last, carries_toJson p⟩

end Pending

/-- Of an update for the listing 42 in number form and a later one in text form, the body holds the
first one only. -/
theorem not_noneLost_of_two_forms :
    let ps : List PendingUpdate :=
      [⟨⟨.number 42, "a"⟩, SortedMap.empty⟩, ⟨⟨.text "42", "b"⟩, SortedMap.empty⟩]
    (BatchUpdate.ofPending ps).size = 2 ∧
      (BatchUpdate.ofPending ps).requestBody.memberCount = 1 ∧
      (∃ member, (BatchUpdate.ofPending ps).requestBody.member? "42" = some member ∧
        member.member? batchKeyField = some (.string "a")) ∧
      ¬ NoneLost ps := by
  intro ps
  have size : (BatchUpdate.ofPending ps).size = 2 := by decide
  have count : (BatchUpdate.ofPending ps).requestBody.memberCount = 1 := by
    rw [BatchUpdate.memberCount_requestBody]
    decide
  have found : (BatchUpdate.ofPending ps).get? (.number 42) = some ⟨"a", SortedMap.empty⟩ := rfl
  refine ⟨size, count, ⟨_, BatchUpdate.member?_requestBody_of_number found, ?_⟩, ?_⟩
  · exact (carries_toJson ⟨⟨.number 42, "a"⟩, SortedMap.empty⟩).key
  · intro kept
    have same := kept.count
    rw [size, count] at same
    exact absurd same (by decide)

end SessionDirectory
