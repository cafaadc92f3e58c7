import Mathlib.Data.Finset.Card
import SessionDirectory.Proofs.Update.BatchBody

/-!
# The last update counts

The batch of a list of updates is the map in which the last update for an id counts. An update that
comes again replaces the one before, and that one is handed back. In the body every member is the
object of an entry: the update key of the entry, whatever fields have its name, and its other fields.

## Main definitions

* `lastFor?`: the last update of a list that is for an id
* `IsMember`: a member of the body is the object of an update
* `IsBody`: what the members of the body are
* `LastWins`: what the batch of a list of updates is

## Main results

* `get?_ofPending`: the entry of an id in the batch
* `size_ofPending`: the number of entries
* `replace_ofPending`: what an update replaces
* `exists_requestBody_eq`: what the members of the body are
* `lastWins_ofPending`: the batch of every list of updates is its last-wins map
-/

set_option autoImplicit false

namespace SessionDirectory

open Json (Value)

/-- The last update of a list that is for an id. -/
def lastFor? (ps : List PendingUpdate) (id : ListingId) : Option PendingUpdate :=
  ps.reverse.find? fun p => p.credential.id = id

/-- **A member of the body is the object of an update**: its names are distinct, it has the update
key, and the others are the fields of the update. -/
structure IsMember (member : Value) (p : PendingUpdate) : Prop where
  object : ∃ fields, member = .object fields ∧ KeysIncrease fields
  carries : Carries member p

section Pending

variable {ps before qs : List PendingUpdate} {p : PendingUpdate} {id : ListingId}

theorem of_lastFor?_eq_some (last : lastFor? ps id = some p) :
    p ∈ ps ∧ p.credential.id = id := by
  have mem := List.mem_reverse.mp (List.mem_of_find?_eq_some last)
  have found := List.find?_some last
  exact ⟨mem, by simpa using found⟩

/-- **The entry of an id is that of the last update for it.** -/
theorem get?_ofPending (ps : List PendingUpdate) (id : ListingId) :
    (BatchUpdate.ofPending ps).get? id = (lastFor? ps id).map PendingUpdate.entry := by
  rw [ofPending_eq_ofList, SortedMap.get?_ofList, ← List.map_reverse, List.find?_map,
    Option.map_map]
  rfl

/-- **A batch has as many entries as there are ids.** -/
theorem size_ofPending (ps : List PendingUpdate) :
    (BatchUpdate.ofPending ps).size = (ps.map fun p => p.credential.id).toFinset.card := by
  rw [ofPending_eq_ofList, SortedMap.size_ofList, List.map_map]
  rfl

theorem ofPending_concat (before : List PendingUpdate) (p : PendingUpdate) :
    BatchUpdate.ofPending (before ++ [p]) = (BatchUpdate.ofPending before).add p :=
  List.foldl_append

/-- **What an update replaces is handed back**: the entry of the last one for its id before it. -/
theorem replace_ofPending (before : List PendingUpdate) (p : PendingUpdate) :
    (BatchUpdate.ofPending before).replace p =
      ((lastFor? before p.credential.id).map PendingUpdate.entry,
        BatchUpdate.ofPending (before ++ [p])) := by
  rw [BatchUpdate.replace, SortedMap.exchange_eq, get?_ofPending, ofPending_concat]
  rfl

/-- The order of updates for distinct ids does not matter. -/
theorem ofPending_eq_of_perm (distinct : (ps.map fun p => p.credential.id).Nodup)
    (perm : ps.Perm qs) : BatchUpdate.ofPending ps = BatchUpdate.ofPending qs := by
  rw [ofPending_eq_ofList, ofPending_eq_ofList]
  refine SortedMap.ofList_eq_of_perm ?_ (perm.map _)
  rw [List.map_map]
  exact distinct

/-! ## Members of the body -/

theorem isMember_toJson (p : PendingUpdate) : IsMember p.entry.toJson.sortKeys p := by
  refine ⟨⟨_, Value.sortKeys_ofEntries _, ?_⟩, carries_toJson p⟩
  exact Value.increasing_map _ (SortedMap.increasing _)

/-- **The names of the body are the texts of the ids**, each once, and every member is the object of
an update that counts. -/
structure IsBody (ps : List PendingUpdate) (members : List (String × Value)) : Prop where
  increase : KeysIncrease members
  names : ∀ name, name ∈ members.map (·.1) ↔ ∃ p ∈ ps, p.credential.id.toText = name
  each : ∀ m ∈ members, ∃ p ∈ ps, p.credential.id.toText = m.1 ∧
    (BatchUpdate.ofPending ps).get? p.credential.id = some p.entry ∧ IsMember m.2 p

theorem exists_requestBody_eq (ps : List PendingUpdate) :
    ∃ members, (BatchUpdate.ofPending ps).requestBody = .object members ∧ IsBody ps members := by
  set b := BatchUpdate.ofPending ps with batch
  refine ⟨_, Value.sortKeys_ofEntries b.members,
    Value.increasing_map _ b.members.increasing, fun name => ?_, fun m mem => ?_⟩
  · have keys : (b.members.entries.map fun e => (e.1, e.2.sortKeys)).map (·.1) =
        b.members.keys := by
      rw [List.map_map, SortedMap.keys]
      rfl
    have texts : name ∈ b.members.keys ↔ name ∈ b.keys.map ListingId.toText := by
      rw [← BatchUpdate.map_fst_named]
      exact SortedMap.mem_keys_ofList
    rw [keys, texts, List.mem_map]
    simp [batch, mem_keys_ofPending]
  · -- A member comes from an entry of the batch, and the entry from the last update for its id.
    obtain ⟨e, listed, rfl⟩ := List.mem_map.mp mem
    have named := (SortedMap.mem_insertAll listed).resolve_left List.not_mem_nil
    obtain ⟨entry, stored, rfl⟩ := List.mem_map.mp named
    have found := SortedMap.get?_eq_some_iff.mpr stored
    rw [batch, get?_ofPending] at found
    obtain ⟨p, last, same⟩ := Option.map_eq_some_iff.mp found
    obtain ⟨given, id⟩ := of_lastFor?_eq_some last
    refine ⟨p, given, congrArg _ id, ?_, ?_⟩
    · rw [get?_ofPending, id, last, Option.map_some]
    · rw [← same]
      exact isMember_toJson p

/-! ## The batch -/

/-- **The batch of a list of updates is its last-wins map.** -/
structure LastWins (ps : List PendingUpdate) : Prop where
  found : ∀ id, (BatchUpdate.ofPending ps).get? id = (lastFor? ps id).map PendingUpdate.entry
  size : (BatchUpdate.ofPending ps).size = (ps.map fun p => p.credential.id).toFinset.card
  /-- An update that is added hands back what it replaces, and nothing if it is the first one for
  its id. -/
  replaced : ∀ before p after, ps = before ++ p :: after →
    (BatchUpdate.ofPending before).replace p =
      ((lastFor? before p.credential.id).map PendingUpdate.entry,
        BatchUpdate.ofPending (before ++ [p]))
  body : ∃ members, (BatchUpdate.ofPending ps).requestBody = .object members ∧ IsBody ps members
  permuted : ∀ qs, ps.Perm qs → (ps.map fun p => p.credential.id).Nodup →
    BatchUpdate.ofPending qs = BatchUpdate.ofPending ps ∧
      (BatchUpdate.ofPending qs).requestBody.compact =
        (BatchUpdate.ofPending ps).requestBody.compact

/-- **The batch of every list of updates is its last-wins map.** -/
theorem lastWins_ofPending (ps : List PendingUpdate) : LastWins ps := by
  refine ⟨get?_ofPending ps, size_ofPending ps, fun before p after _ => replace_ofPending before p,
    exists_requestBody_eq ps, fun qs perm distinct => ?_⟩
  have same := ofPending_eq_of_perm distinct perm
  rw [same]
  exact ⟨rfl, rfl⟩

end Pending

end SessionDirectory
