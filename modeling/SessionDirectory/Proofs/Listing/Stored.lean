import SessionDirectory.Proofs.Json.Field
import SessionDirectory.Proofs.Listing.HandedBack

/-!
# Listings stored as files

A listing is written as a response file with its id, its key and its updates, and the file is read
back as the listing: the same credential, the id in its own form, and the same fields. To change
nothing then sends the updates as they have been written.

Fields are what a program can hold: the members of their objects are in order. How doubles are
written is left out, and values are nested so deeply at most that the file can be read, in which
they are two levels further in.

## Main definitions

* `UpdateFields.Plain`: fields that come back from a file
* `StoredListing.toJson`, `StoredListing.text`: a listing as a response file
* `RoundTrip`: what comes back from the file of a listing

## Main results

* `UpdateFields.Plain.parse_compact`: fields come back from the text of their body
* `ResponseFile.read_tree`: the tree of the file has the id, the key and the fields
* `StoredListing.roundTrip`: a listing comes back from its file
* `StoredListing.roundTrip_of_parse`: so does a listing that has come from a file without doubles
-/

set_option autoImplicit false

namespace SessionDirectory

open Json (Raw Value Error)

/-- The fields have values in order and without doubles, whose containers are nested in each other
at most a number of levels deep. -/
structure UpdateFields.Plain (fields : UpdateFields) (depth : Nat) : Prop where
  ordered : ∀ e ∈ fields.entries, e.2.Ordered
  free : ∀ e ∈ fields.entries, e.2.FloatFree
  nested : ∀ e ∈ fields.entries, e.2.NestedAtMost depth

/-- The listing as a response file. -/
def StoredListing.toJson (listing : StoredListing) : Value :=
  .object [("id", listing.credential.id.toJson), ("key", .string listing.credential.key),
    ("updates", listing.updates.requestBody)]

/-- The text of the file. -/
def StoredListing.text (listing : StoredListing) : String := listing.toJson.compact

/-- **What comes back from the file of a listing**: the listing, and the same credential and the
same text of the updates when nothing is changed. -/
structure RoundTrip (listing : StoredListing) : Prop where
  stored : StoredListing.parse listing.source listing.text = .ok listing
  sent : ∀ back, StoredListing.parse listing.source listing.text = .ok back →
    (back.merge SortedMap.empty).credential = listing.credential ∧
      (back.merge SortedMap.empty).fields.requestBody.compact =
        listing.updates.requestBody.compact

namespace UpdateFields

variable {fields : UpdateFields} {depth depth' : Nat}

theorem Plain.mono (plain : fields.Plain depth) (le : depth ≤ depth') : fields.Plain depth' :=
  ⟨plain.ordered, plain.free, fun e mem => (plain.nested e mem).mono le⟩

/-- Fields in order are sent as they are. -/
theorem Plain.requestBody_eq (plain : fields.Plain depth) :
    fields.requestBody = .object fields.entries := by
  have ordered : (Value.object fields.entries).Ordered := .object fields.increasing plain.ordered
  exact ordered.sortKeys_eq_self

theorem Plain.floatFree (plain : fields.Plain depth) : fields.requestBody.FloatFree := by
  rw [plain.requestBody_eq]
  exact .object plain.free

/-- **Fields are read from the tree of their body.** -/
theorem Plain.read_tree (plain : fields.Plain depth) :
    UpdateFields.read (depth + 1) fields.requestBody.tree = .ok fields := by
  have each : ∀ e ∈ fields.entries, e.2.tree.value depth = .ok e.2 := by
    intro e mem
    exact (plain.ordered e mem).value_tree (plain.nested e mem)
  rw [plain.requestBody_eq, Value.tree, UpdateFields.read, Raw.valueMembers_treeMembers each]
  exact congrArg Except.ok (SortedMap.ofList_entries fields)

/-- Fields are read from the text of their body. -/
theorem Plain.parse_compact (plain : fields.Plain depth) (shallow : depth + 1 ≤ Json.maxDepth) :
    UpdateFields.parse fields.requestBody.compact = .ok fields := by
  have deep : fields.Plain (Json.maxDepth - 1) := plain.mono (Nat.le_sub_one_of_lt shallow)
  rw [UpdateFields.parse, Raw.parse_compact plain.floatFree]
  exact deep.read_tree

/-- Fields that are read are plain, if they have no doubles. -/
theorem plain_of_read_eq_ok {r : Raw} (read : UpdateFields.read (depth + 1) r = .ok fields)
    (free : ∀ e ∈ fields.entries, e.2.FloatFree) : fields.Plain depth := by
  cases r with
  | null | bool | number | string | array => cases read
  | object members =>
    rw [UpdateFields.read] at read
    cases values : Raw.valueMembers depth members with
    | error e => rw [values] at read; cases read
    | ok entries =>
      rw [values] at read
      cases read
      -- What is in the map of the members is one of them.
      have each : ∀ e ∈ (SortedMap.ofList entries).entries, e.2.Ordered ∧ e.2.NestedAtMost depth :=
        fun e mem => Raw.ordered_of_valueMembers_eq_ok values e
          ((SortedMap.mem_insertAll mem).resolve_left List.not_mem_nil)
      exact ⟨fun e mem => (each e mem).1, free, fun e mem => (each e mem).2⟩

end UpdateFields

section Files

variable {listing : StoredListing} {depth : Nat} {path text : String}

/-- **The tree of the file has the id, the key and the fields.** -/
theorem ResponseFile.read_tree (plain : listing.updates.Plain (Json.maxDepth - 2)) :
    ResponseFile.read listing.toJson.tree =
      .ok ⟨some listing.credential.id, some listing.credential.key, listing.updates⟩ := by
  have tree : listing.toJson.tree = .object [(some "id", listing.credential.id.toJson.tree),
      (some "key", .string (some listing.credential.key)),
      (some "updates", listing.updates.requestBody.tree)] := rfl
  have id := ListingId.reads_read.optionalField_eq listing.credential.id.tree_ne_null
  have updates : UpdateFields.read (Json.maxDepth - 1) listing.updates.requestBody.tree =
    .ok listing.updates := plain.read_tree
  rw [ResponseFile.read, tree, Raw.record_object_eq_ok_iff.mpr
    ⟨by simp [fieldNames, Raw.lookup], by simp, rfl⟩]
  show (do
    let id ← Raw.optionalField ListingId.read (some listing.credential.id.toJson.tree)
    let updates ← UpdateFields.read (Json.maxDepth - 1) listing.updates.requestBody.tree
    return ResponseFile.mk id (some listing.credential.key) updates) = _
  rw [id, updates]
  rfl

theorem ListingId.floatFree_toJson (id : ListingId) : id.toJson.FloatFree := by
  cases id with
  | text s => exact .string s
  | number n => exact .integer _

theorem StoredListing.floatFree_toJson (plain : listing.updates.Plain depth) :
    listing.toJson.FloatFree := by
  refine .object fun m mem => ?_
  simp only [List.mem_cons, List.not_mem_nil, or_false] at mem
  rcases mem with rfl | rfl | rfl
  · exact listing.credential.id.floatFree_toJson
  · exact .string _
  · exact plain.floatFree

/-- To merge no overrides changes nothing. -/
theorem StoredListing.merge_empty (listing : StoredListing) :
    listing.merge SortedMap.empty = ⟨listing.credential, listing.updates⟩ := rfl

/-- **A listing comes back from its file**, if its credential may be stored and its fields are
plain. -/
theorem StoredListing.roundTrip (storable : listing.credential.Storable)
    (plain : listing.updates.Plain depth) (shallow : depth + 2 ≤ Json.maxDepth) :
    RoundTrip listing := by
  -- The fields stand two levels inside of the file: in the record and in its updates.
  have deep : listing.updates.Plain (Json.maxDepth - 2) := plain.mono (by omega)
  have file : ResponseFile.parse listing.text =
      .ok ⟨some listing.credential.id, some listing.credential.key, listing.updates⟩ := by
    rw [ResponseFile.parse, StoredListing.text, Raw.parse_compact (floatFree_toJson plain)]
    exact ResponseFile.read_tree deep
  have stored : StoredListing.parse listing.source listing.text = .ok listing := by
    rw [parse_eq_of_file listing.source file,
      if_neg (not_or.mpr ⟨storable.id, storable.nonzero⟩), if_neg storable.key]
  refine ⟨stored, fun back again => ?_⟩
  obtain rfl : listing = back := Except.ok.inj (stored.symm.trans again)
  rw [StoredListing.merge_empty]
  exact ⟨rfl, rfl⟩

/-- A listing with fields that are nested, escaped and at the end of their range. -/
def nestedListing : StoredListing where
  source := "f0.json"
  credential := ⟨.text "042", "k\"\t"⟩
  updates := .ofList [("n", .number (.integer ⟨-9223372036854775808, by decide, by decide⟩)),
    ("a", .array [.null, .object [("", .array []), ("b", .string "\n\x01\\é")]])]

/-- That listing comes back from its file. -/
theorem StoredListing.roundTrip_nestedListing :
    nestedListing.credential.Storable ∧ nestedListing.updates.Plain 100 ∧
      100 + 2 ≤ Json.maxDepth ∧ RoundTrip nestedListing := by
  have storable : nestedListing.credential.Storable := ⟨by decide, by decide, by decide⟩
  have inner : (Value.object [("", .array []), ("b", .string "\n\x01\\é")]).FloatFree :=
    .object (List.forall_mem_cons.mpr ⟨.array nofun, List.forall_mem_cons.mpr ⟨.string _, nofun⟩⟩)
  have free : ∀ e ∈ nestedListing.updates.entries, e.2.FloatFree :=
    List.forall_mem_cons.mpr
      ⟨.array (List.forall_mem_cons.mpr ⟨.null, List.forall_mem_cons.mpr ⟨inner, nofun⟩⟩),
        List.forall_mem_cons.mpr ⟨.integer _, nofun⟩⟩
  have read : UpdateFields.read (100 + 1) nestedListing.updates.toJson.tree =
    .ok nestedListing.updates := rfl
  have plain := UpdateFields.plain_of_read_eq_ok read free
  exact ⟨storable, plain, by decide, StoredListing.roundTrip storable plain (by decide)⟩

/-- A file names a listing only by a credential that may be stored. -/
theorem StoredListing.of_parse_eq_ok (stored : StoredListing.parse path text = .ok listing) :
    listing.credential.Storable ∧ listing.source = path ∧
      ResponseFile.parse text =
        .ok ⟨some listing.credential.id, some listing.credential.key, listing.updates⟩ := by
  unfold StoredListing.parse at stored
  split at stored
  · cases stored
  next file parsed =>
  split at stored
  · cases stored
  next id named =>
  split at stored
  · cases stored
  next key keyed =>
  cases stored
  obtain ⟨idRead, idChecked⟩ := Option.filter_eq_some_iff.mp named
  obtain ⟨keyRead, keyChecked⟩ := Option.filter_eq_some_iff.mp keyed
  have id : id.toText ≠ "" ∧ id.toText ≠ "0" := by simpa [ListingId.isEmpty] using idChecked
  have key : key ≠ "" := by simpa using keyChecked
  refine ⟨⟨id.1, id.2, key⟩, rfl, ?_⟩
  rw [parsed, ← idRead, ← keyRead]

/-- The updates of a file are plain, if they have no doubles. -/
theorem ResponseFile.plain_of_parse {file : ResponseFile}
    (parsed : ResponseFile.parse text = .ok file)
    (free : ∀ e ∈ file.updates.entries, e.2.FloatFree) :
    file.updates.Plain (Json.maxDepth - 2) := by
  -- Of what is read only the updates matter here.
  obtain ⟨r, -, read⟩ := exists_of_bind_eq_ok parsed
  obtain ⟨get, -, read⟩ := exists_of_bind_eq_ok read
  obtain ⟨_, -, read⟩ := exists_of_bind_eq_ok read
  obtain ⟨_, -, read⟩ := exists_of_bind_eq_ok read
  obtain ⟨updates, updatesRead, read⟩ := exists_of_bind_eq_ok read
  cases read
  cases present : get "updates" with
  | none =>
    rw [present] at updatesRead
    cases updatesRead
    exact ⟨fun _ => nofun, fun _ => nofun, fun _ => nofun⟩
  | some r =>
    rw [present] at updatesRead
    exact UpdateFields.plain_of_read_eq_ok updatesRead free

/-- **A listing that has come from a file comes back from its own file**, if it has no doubles. -/
theorem StoredListing.roundTrip_of_parse (stored : StoredListing.parse path text = .ok listing)
    (free : ∀ e ∈ listing.updates.entries, e.2.FloatFree) : RoundTrip listing := by
  obtain ⟨storable, -, parsed⟩ := StoredListing.of_parse_eq_ok stored
  exact StoredListing.roundTrip storable (ResponseFile.plain_of_parse parsed free) (by decide)

end Files

end SessionDirectory
