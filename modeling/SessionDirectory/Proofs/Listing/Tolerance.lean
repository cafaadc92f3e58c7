import Mathlib.Data.List.Count
import SessionDirectory.Listing.Record
import SessionDirectory.Listing.Reply
import SessionDirectory.ResponseFile
import SessionDirectory.Proofs.Except
import SessionDirectory.Proofs.Json.ObjectText
import SessionDirectory.Proofs.Json.ReadBack

/-!
# Unknown and repeated members

A record that is written as an object is read by the names of its fields. The order of the members
does not matter to it, and neither do members of other names, whatever their values are and however
many of them there are; but a field that is there twice is refused, so that no reply is read with
one of two ids or keys. The names of the other members are still read: one that holds half of a
surrogate pair is no name, and no text with such a member is read as a record.

## Main definitions

* `Json.SameFields`: two objects have the same fields of a record
* `Tolerates`: a reader of texts does not mind unknown members, and refuses repeated fields
* `TolerantReaders`: so do the readers of replies, of records and of response files

## Main results

* `Tolerates.of_record`: what is read from the fields of a record tolerates unknown members
* `tolerantReaders`: all readers of replies, of records and of response files do
* `refused_of_surrogate`: an unknown member whose name is no name is not tolerated
-/

set_option autoImplicit false

namespace SessionDirectory

open Json (Raw Error IsObjectText WrittenMember)

namespace Json

variable {members members' extra : List (Option String × Raw)} {names : List String}

/-! ## Fields of objects -/

/-- Two objects have the same fields of a record: the same values under each of their names. -/
structure SameFields (names : List String) (members members' : List (Option String × Raw)) :
    Prop where
  lookups : ∀ name ∈ names, (Raw.lookup members name).Perm (Raw.lookup members' name)
  readable : (∀ m ∈ members, m.1.isSome) ↔ ∀ m ∈ members', m.1.isSome

theorem SameFields.symm (same : SameFields names members members') :
    SameFields names members' members :=
  ⟨fun name mem => (same.lookups name mem).symm, same.readable.symm⟩

/-- Members of other names are no fields, and the order of the fields does not matter. -/
theorem SameFields.of_perm (perm : members'.Perm (members ++ extra))
    (unknown : ∀ m ∈ extra, ∃ name, m.1 = some name ∧ name ∉ names) :
    SameFields names members members' := by
  constructor
  · intro name mem
    have none : Raw.lookup extra name = [] := by
      refine Raw.lookup_eq_nil_iff.mpr fun m listed same => ?_
      obtain ⟨other, named, notField⟩ := unknown m listed
      obtain rfl := Option.some.inj (named.symm.trans same)
      exact notField mem
    have split : Raw.lookup (members ++ extra) name = Raw.lookup members name ++ [] := by
      rw [← none, Raw.lookup, List.filterMap_append]
      rfl
    have same := Raw.lookup_perm perm.symm name
    rwa [split, List.append_nil] at same
  · have named : ∀ m ∈ extra, m.1.isSome := by
      intro m mem
      obtain ⟨name, named, -⟩ := unknown m mem
      rw [named]
      rfl
    have all : (∀ m ∈ members', m.1.isSome) ↔ ∀ m ∈ members ++ extra, m.1.isSome :=
      forall_congr' fun m => by rw [perm.mem_iff]
    rw [all, List.forall_mem_append, and_iff_left named]

/-- An object with the same fields gives the same parts of the record. -/
theorem SameFields.exists_record (same : SameFields names members members')
    {get : String → Option Raw} (read : Raw.record names (.object members) = .ok get) :
    ∃ get', Raw.record names (.object members') = .ok get' ∧
      ∀ name ∈ names, get name = get' name := by
  obtain ⟨once, readable, rfl⟩ := Raw.record_object_eq_ok_iff.mp read
  refine ⟨_, Raw.record_object_eq_ok_iff.mpr ⟨fun name mem => ?_, same.readable.mp readable, rfl⟩,
    fun name mem => ?_⟩
  · rw [← (same.lookups name mem).length_eq]
    exact once name mem
  · -- One value at most stands under the name, so it is the first one on both sides.
    have values := Raw.eq_of_perm_of_length_le (same.lookups name mem) (once name mem)
    show (Raw.lookup members name).head? = (Raw.lookup members' name).head?
    rw [values]

theorem Raw.length_lookup (members : List (Option String × Raw)) (name : String) :
    (lookup members name).length = (members.map (·.1)).count (some name) := by
  induction members with
  | nil => rfl
  | cons m members ih =>
    rw [lookup_cons, List.map_cons, List.count_cons, ← ih]
    by_cases same : m.1 = some name <;> simp [same]

end Json

/-! ## Readers of texts -/

section Readers

variable {α β ε δ : Type} {names : List String} {parse : String → Except ε α}
  {parse' : String → Except δ β} {f : (String → Option Raw) → Except Error α}

/-- **A reader of texts tolerates unknown members**, and nothing else. The names are those of the
fields that it knows. -/
structure Tolerates (names : List String) (parse : String → Except ε α) : Prop where
  /-- The members may come in any order, with any others that have a name among them. -/
  extended : ∀ (s s' : String) (ms ms' extra : List WrittenMember), IsObjectText s ms →
    IsObjectText s' ms' → (ms'.map (·.member)).Perm ((ms ++ extra).map (·.member)) →
    (∀ m ∈ extra, ∃ name, m.name = some name ∧ name ∉ names) →
    ∀ a, parse s' = .ok a ↔ parse s = .ok a
  /-- No member may have a name that cannot be read. -/
  unreadable : ∀ (s : String) (ms : List WrittenMember), IsObjectText s ms →
    (∃ m ∈ ms, m.name = none) → ∃ e, parse s = .error e
  /-- No field may be repeated. -/
  repeated : ∀ (s : String) (ms : List WrittenMember), IsObjectText s ms →
    (∃ name ∈ names, 2 ≤ (ms.map (·.name)).count (some name)) → ∃ e, parse s = .error e

theorem exists_error_of_forall_ne {x : Except ε α} (notOk : ∀ a, x ≠ .ok a) :
    ∃ e, x = .error e := by
  cases x with
  | error e => exact ⟨e, rfl⟩
  | ok a => exact absurd rfl (notOk a)

/-- What is read from the fields of a record is read from the members of its text. -/
theorem reads_iff_of_isObjectText {s : String} {ms : List WrittenMember} {a : α}
    (text : IsObjectText s ms) : (Raw.parse s >>= fun r => r.record names >>= f) = .ok a ↔
      ∃ get, Raw.record names (.object (ms.map (·.member))) = .ok get ∧ f get = .ok a := by
  rw [Json.Raw.parse_object_iff.mpr ⟨ms, text, rfl⟩]
  show (Raw.record names (.object (ms.map (·.member))) >>= f) = .ok a ↔ _
  exact ⟨exists_of_bind_eq_ok, fun ⟨_, found, made⟩ => bind_eq_ok found made⟩

/-- **What is read from the fields of a record tolerates unknown members.** -/
theorem Tolerates.of_record
    (fields : ∀ get get', (∀ name ∈ names, get name = get' name) → f get = f get') :
    Tolerates names fun s => Raw.parse s >>= fun r => r.record names >>= f := by
  -- What one text is read as, any text with the same fields is read as.
  have transfer : ∀ {s s' ms ms'}, IsObjectText s ms → IsObjectText s' ms' →
      Json.SameFields names (ms.map (·.member)) (ms'.map (·.member)) → ∀ {a},
      (Raw.parse s >>= fun r => r.record names >>= f) = .ok a →
      (Raw.parse s' >>= fun r => r.record names >>= f) = .ok a := by
    intro s s' ms ms' text text' same a read
    obtain ⟨get, found, made⟩ := (reads_iff_of_isObjectText text).mp read
    obtain ⟨get', found', agree⟩ := same.exists_record found
    rw [fields get get' agree] at made
    exact (reads_iff_of_isObjectText text').mpr ⟨get', found', made⟩
  constructor
  · intro s s' ms ms' extra text text' perm unknown a
    rw [List.map_append] at perm
    have same := Json.SameFields.of_perm perm (List.forall_mem_map.mpr unknown)
    exact ⟨transfer text' text same.symm, transfer text text' same⟩
  · rintro s ms text ⟨m, mem, none⟩
    refine exists_error_of_forall_ne fun a read => ?_
    obtain ⟨get, found, -⟩ := (reads_iff_of_isObjectText text).mp read
    obtain ⟨-, readable, -⟩ := Json.Raw.record_object_eq_ok_iff.mp found
    have named := readable m.member (List.mem_map.mpr ⟨m, mem, rfl⟩)
    rw [WrittenMember.member, none] at named
    cases named
  · rintro s ms text ⟨name, known, twice⟩
    refine exists_error_of_forall_ne fun a read => ?_
    obtain ⟨get, found, -⟩ := (reads_iff_of_isObjectText text).mp read
    obtain ⟨once, -, -⟩ := Json.Raw.record_object_eq_ok_iff.mp found
    have once := once name known
    rw [Json.Raw.length_lookup, List.map_map] at once
    exact absurd (Nat.le_trans twice once) (by decide)

/-- What is made of a record that has been read tolerates unknown members as well. -/
theorem Tolerates.of_reads (tolerates : Tolerates names parse)
    (reads : ∀ s b, parse' s = .ok b → ∃ a, parse s = .ok a ∧ ∀ s', parse s' = .ok a →
      parse' s' = .ok b) : Tolerates names parse' := by
  have refused : ∀ {s}, (∃ e, parse s = .error e) → ∃ e, parse' s = .error e := by
    rintro s ⟨e, error⟩
    refine exists_error_of_forall_ne fun b read => ?_
    obtain ⟨a, read, -⟩ := reads s b read
    rw [error] at read
    cases read
  constructor
  · intro s s' ms ms' extra text text' perm unknown b
    have same := tolerates.extended s s' ms ms' extra text text' perm unknown
    constructor
    · intro read
      obtain ⟨a, first, rest⟩ := reads s' b read
      exact rest s ((same a).mp first)
    · intro read
      obtain ⟨a, first, rest⟩ := reads s b read
      exact rest s' ((same a).mpr first)
  · exact fun s ms text none => refused (tolerates.unreadable s ms text none)
  · exact fun s ms text twice => refused (tolerates.repeated s ms text twice)

end Readers

/-! ## Replies, records and response files -/

theorem AnnounceReply.tolerates : Tolerates fieldNames parse := by
  refine .of_record fun get get' same => ?_
  simp only [fieldNames, List.forall_mem_cons] at same
  simp only [same]

theorem RefreshReply.tolerates : Tolerates fieldNames parse := by
  refine .of_record fun get get' same => ?_
  simp only [fieldNames, List.forall_mem_cons] at same
  simp only [same]

theorem SessionRecord.tolerates : Tolerates fieldNames parse := by
  refine .of_record fun get get' same => ?_
  simp only [fieldNames, List.forall_mem_cons] at same
  simp only [same]

theorem JoinInfo.tolerates : Tolerates fieldNames parse := by
  refine .of_record fun get get' same => ?_
  simp only [fieldNames, List.forall_mem_cons] at same
  simp only [same]

theorem ResponseFile.tolerates : Tolerates fieldNames parse := by
  refine .of_record fun get get' same => ?_
  simp only [fieldNames, List.forall_mem_cons] at same
  simp only [same]

/-- A response file is checked after it has been read. -/
theorem StoredListing.tolerates (path : String) :
    Tolerates ResponseFile.fieldNames (parse path) := by
  refine ResponseFile.tolerates.of_reads fun s listing read => ?_
  cases first : ResponseFile.parse s with
  | error e =>
    simp only [parse, first] at read
    cases read
  | ok file =>
    refine ⟨file, rfl, fun s' again => ?_⟩
    rw [← read]
    simp only [parse, first, again]

/-- **The readers of replies, of records and of response files** tolerate unknown members. -/
structure TolerantReaders : Prop where
  /-- The texts that are read as an object are those made of its members. -/
  texts : ∀ s members, Raw.parse s = .ok (.object members) ↔
    ∃ ms, IsObjectText s ms ∧ ms.map (·.member) = members
  announceReply : Tolerates AnnounceReply.fieldNames AnnounceReply.parse
  refreshReply : Tolerates RefreshReply.fieldNames RefreshReply.parse
  sessionRecord : Tolerates SessionRecord.fieldNames SessionRecord.parse
  joinInfo : Tolerates JoinInfo.fieldNames JoinInfo.parse
  responseFile : Tolerates ResponseFile.fieldNames ResponseFile.parse
  storedListing : ∀ path, Tolerates ResponseFile.fieldNames (StoredListing.parse path)

/-- **Replies, records and response files are read without their unknown members**, in whatever
order their members come, and none is read with a field that is there twice. -/
theorem tolerantReaders : TolerantReaders where
  texts _ _ := Json.Raw.parse_object_iff
  announceReply := AnnounceReply.tolerates
  refreshReply := RefreshReply.tolerates
  sessionRecord := SessionRecord.tolerates
  joinInfo := JoinInfo.tolerates
  responseFile := ResponseFile.tolerates
  storedListing := StoredListing.tolerates

/-- The text with a message only. -/
def messageOnly : String := "\x7b\"message\":\"hi\"\x7d"

/-- The text with a message and with a member whose name is half of a surrogate pair. -/
def messageAndSurrogate : String := "\x7b\"message\":\"hi\",\"\\ud800\":null\x7d"

/-- **An unknown member whose name is half of a surrogate pair is not tolerated**, although it is
grammatical: the text is not read any more. -/
theorem refused_of_surrogate : ∃ m m' : WrittenMember,
    IsObjectText messageOnly [m] ∧ IsObjectText messageAndSurrogate [m, m'] ∧
      (∀ name ∈ RefreshReply.fieldNames, m'.name ≠ some name) ∧
      RefreshReply.parse messageOnly = .ok ⟨some "hi"⟩ ∧
      RefreshReply.parse messageAndSurrogate = .error .loneSurrogate := by
  let message : WrittenMember :=
    ⟨"\"message\"".toList, "\"hi\"".toList, some "message", .string (some "hi"), rfl, rfl⟩
  let surrogate : WrittenMember := ⟨"\"\\ud800\"".toList, "null".toList, none, .null, rfl, rfl⟩
  have noBlanks : ∀ c ∈ ([] : List Char), c ∈ Json.blanks := List.forall_mem_nil _
  refine ⟨message, surrogate, ?_, ?_, fun _ _ => nofun, rfl, rfl⟩
  · exact ⟨[], [], [], noBlanks, noBlanks, noBlanks, rfl⟩
  · exact ⟨[], [], [], noBlanks, noBlanks, noBlanks, rfl⟩

end SessionDirectory
