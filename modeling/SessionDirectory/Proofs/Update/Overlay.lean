import SessionDirectory.Proofs.Except
import SessionDirectory.Proofs.SortedMap
import SessionDirectory.ResponseFile

/-!
# Field sets and what was last given

A field set comes about by setters, by reading and by laying overrides over other sets, in any order.
Each of these gives values to fields, one after the other. The set is the map of all that has been
given, in which the last value of a field counts; so two ways to a set are the same if they give the
same last values.

## Main definitions

* `FieldSetter`: the setters, with the field and the value of each
* `FieldHistory`: how a field set has come about
* `FieldHistory.result`, `FieldHistory.given`: the set, and all that has been given to fields
* `lastGiven?`: the value that was last given to a field
* `LastWinsFields`: a field set holds what was last given
* `OverlayLaws`: how field sets come about, are overlaid and compared

## Main results

* `FieldHistory.result_eq`: the set is the map of all that has been given
* `exists_result_iff`: a set comes about unless something that is read is no field set
* `lastWinsFields_of_result`: the set holds what was last given
* `overlayLaws`: the laws of field sets
-/

set_option autoImplicit false

namespace SessionDirectory

open Json (Raw Value Error)

/-- A setter of a field. -/
inductive FieldSetter where
  | field (name : String) (value : Value)
  | title (text : String)
  | users (count : UInt32)
  | usernames (names : List String)
  | nsfm (on : Bool)
  | password (on : Bool)

namespace FieldSetter

/-- What a setter makes of a field set. -/
def apply : FieldSetter → UpdateFields → UpdateFields
  | .field name value, f => f.insert name value
  | .title text, f => f.withTitle text
  | .users count, f => f.withUsers count
  | .usernames names, f => f.withUsernames names
  | .nsfm on, f => f.withNsfm on
  | .password on, f => f.withPassword on

/-- The field and the value that a setter gives to it. -/
def gift : FieldSetter → String × Value
  | .field name value => (name, value)
  | .title text => ("title", .string text)
  | .users count => ("users", .number (.integer (.ofUInt32 count)))
  | .usernames names => ("usernames", .array (names.map .string))
  | .nsfm on => ("nsfm", .bool on)
  | .password on => ("password", .bool on)

theorem apply_eq (s : FieldSetter) (f : UpdateFields) : s.apply f = f.insert s.gift.1 s.gift.2 := by
  cases s <;> rfl

end FieldSetter

/-- The members of an object with their values, in the order of the text and with those that are
repeated. -/
def UpdateFields.membersOf (depth : Nat) : Raw → Except Error (List (String × Value))
  | .object members =>
    match depth with
    | 0 => .error .tooDeep
    | depth + 1 => Raw.valueMembers depth members
  | _ => .error (.mismatch "an object")

/-- **How a field set has come about.** -/
inductive FieldHistory where
  | new
  | set (before : FieldHistory) (setter : FieldSetter)
  /-- Read from a tree, of which at most `depth` levels of containers may be opened. -/
  | read (depth : Nat) (tree : Raw)
  | merge (base overrides : FieldHistory)

namespace FieldHistory

/-- The field set, unless something that was read is none. -/
def result : FieldHistory → Except Error UpdateFields
  | .new => .ok SortedMap.empty
  | .set before setter => before.result.map setter.apply
  | .read depth tree => UpdateFields.read depth tree
  | .merge base overrides => do
    let f ← base.result
    let g ← overrides.result
    return f.mergedWith g

/-- All that has been given to fields, in order: what overrides give comes after what their base
gives. -/
def given : FieldHistory → Except Error (List (String × Value))
  | .new => .ok []
  | .set before setter => before.given.map (· ++ [setter.gift])
  | .read depth tree => UpdateFields.membersOf depth tree
  | .merge base overrides => do
    let gifts ← base.given
    let later ← overrides.given
    return gifts ++ later

/-- What has been read on the way. -/
def reads : FieldHistory → List (Nat × Raw)
  | .new => []
  | .set before _ => before.reads
  | .read depth tree => [(depth, tree)]
  | .merge base overrides => base.reads ++ overrides.reads

end FieldHistory

/-- **The value that was last given to a field.** -/
def lastGiven? (given : List (String × Value)) (name : String) : Option Value :=
  (given.reverse.find? fun gift => gift.1 = name).map (·.2)

/-- **A field set holds what was last given** to each field, and nothing else. -/
structure LastWinsFields (given : List (String × Value)) (f : UpdateFields) : Prop where
  found : ∀ name, f.get? name = lastGiven? given name
  size : f.size = (given.map (·.1)).toFinset.card
  increase : KeysIncrease f.entries
  entries : ∀ name value, (name, value) ∈ f.entries ↔ lastGiven? given name = some value

/-- **The laws of field sets.** -/
structure OverlayLaws : Prop where
  /-- A set comes about exactly if everything that is read is a field set. -/
  made : ∀ h : FieldHistory, (∃ f, h.result = .ok f) ↔
    ∀ r ∈ h.reads, ∃ f, UpdateFields.read r.1 r.2 = .ok f
  /-- It then holds what was last given. -/
  last : ∀ (h : FieldHistory) (f : UpdateFields), h.result = .ok f →
    ∃ given, h.given = .ok given ∧ LastWinsFields given f
  /-- A field has the value of the overrides, if they have the field, and else that of the base. -/
  overlaid : ∀ (f g : UpdateFields) (name : String),
    (f.mergedWith g).get? name = (g.get? name).or (f.get? name)
  kept : ∀ (f g : UpdateFields) (name : String), g.get? name = none →
    (f.mergedWith g).get? name = f.get? name
  /-- Overrides are laid over the fields of a stored listing in the same way. -/
  stored : ∀ (listing : StoredListing) (overrides : UpdateFields) (name : String),
    (listing.merge overrides).fields.get? name =
      (overrides.get? name).or (listing.updates.get? name)
  assoc : ∀ f g h : UpdateFields, (f.mergedWith g).mergedWith h = f.mergedWith (g.mergedWith h)
  idem : ∀ f : UpdateFields, f.mergedWith f = f
  right_id : ∀ f : UpdateFields, f.mergedWith SortedMap.empty = f
  left_id : ∀ f : UpdateFields, UpdateFields.mergedWith SortedMap.empty f = f
  /-- Sets in which the same is found are the same and have the same body. -/
  ext : ∀ f g : UpdateFields, (∀ name, f.get? name = g.get? name) →
    f = g ∧ f.requestBody.compact = g.requestBody.compact
  /-- So it does not matter in which order the last values were given. -/
  order : ∀ (h h' : FieldHistory) (given given' : List (String × Value)) (f g : UpdateFields),
    h.result = .ok f → h'.result = .ok g → h.given = .ok given → h'.given = .ok given' →
    (∀ name, lastGiven? given name = lastGiven? given' name) →
    f = g ∧ f.requestBody.compact = g.requestBody.compact

namespace UpdateFields

variable {f g : UpdateFields} {given given' : List (String × Value)}

theorem read_eq (depth : Nat) (tree : Raw) :
    read depth tree = (membersOf depth tree).map SortedMap.ofList := by
  cases tree with
  | object members => cases depth <;> rfl
  | null | bool | number | string | array => rfl

/-! ## What was last given -/

/-- **The map of what was given holds what was last given.** -/
theorem lastWinsFields_ofList (given : List (String × Value)) :
    LastWinsFields given (SortedMap.ofList given) := by
  have found := SortedMap.get?_ofList given
  refine ⟨found, SortedMap.size_ofList given, SortedMap.increasing _, fun name value => ?_⟩
  rw [← SortedMap.get?_eq_some_iff, found, lastGiven?]

theorem ext_get? (same : ∀ name, f.get? name = g.get? name) :
    f = g ∧ f.requestBody.compact = g.requestBody.compact := by
  obtain rfl : f = g := SortedMap.ext_get? same
  exact ⟨rfl, rfl⟩

end UpdateFields

namespace FieldHistory

open SortedMap

variable {h h' : FieldHistory} {f g : UpdateFields} {given given' : List (String × Value)}

/-- **A field set is the map of all that has been given.** -/
theorem result_eq (h : FieldHistory) : h.result = h.given.map ofList := by
  induction h with
  | new => rfl
  | set before setter ih =>
    rw [result, FieldHistory.given, ih]
    cases before.given with
    | error e => rfl
    | ok gifts =>
      -- What is set comes last in the list, and is put into its map last.
      show Except.ok (setter.apply (ofList gifts)) = .ok (ofList (gifts ++ [setter.gift]))
      rw [setter.apply_eq, ofList, ofList, insertAll_append]
      rfl
  | read depth tree => exact UpdateFields.read_eq depth tree
  | merge base overrides ihBase ihOverrides =>
    rw [result, FieldHistory.given, ihBase, ihOverrides]
    cases base.given with
    | error e => rfl
    | ok gifts =>
      cases overrides.given with
      | error e => rfl
      | ok later =>
        show Except.ok ((ofList gifts).merge (ofList later)) = .ok (ofList (gifts ++ later))
        rw [ofList_append]

/-- **A field set comes about** exactly if everything that is read on the way is a field set. -/
theorem exists_result_iff (h : FieldHistory) : (∃ f, h.result = .ok f) ↔
    ∀ r ∈ h.reads, ∃ f, UpdateFields.read r.1 r.2 = .ok f := by
  induction h with
  | new => simp [result, reads]
  | set before setter ih =>
    rw [reads, ← ih, result]
    cases before.result <;> simp [Except.map]
  | read depth tree => simp [result, reads]
  | merge base overrides ihBase ihOverrides =>
    rw [reads, List.forall_mem_append, ← ihBase, ← ihOverrides, result]
    constructor
    · rintro ⟨f, done⟩
      obtain ⟨f, first, done⟩ := exists_of_bind_eq_ok done
      obtain ⟨g, second, -⟩ := exists_of_bind_eq_ok done
      exact ⟨⟨f, first⟩, g, second⟩
    · rintro ⟨⟨f, first⟩, g, second⟩
      exact ⟨f.mergedWith g, bind_eq_ok first (bind_eq_ok second rfl)⟩

/-- **A field set holds what was last given.** -/
theorem lastWinsFields_of_result (made : h.result = .ok f) :
    ∃ given, h.given = .ok given ∧ LastWinsFields given f := by
  rw [result_eq] at made
  cases all : h.given with
  | error e => rw [all] at made; cases made
  | ok gifts =>
    rw [all] at made
    cases made
    exact ⟨gifts, rfl, UpdateFields.lastWinsFields_ofList gifts⟩

/-- Two ways to give the same last values are ways to the same field set. -/
theorem result_congr (made : h.result = .ok f) (made' : h'.result = .ok g)
    (gifts : h.given = .ok given) (gifts' : h'.given = .ok given')
    (same : ∀ name, lastGiven? given name = lastGiven? given' name) :
    f = g ∧ f.requestBody.compact = g.requestBody.compact := by
  obtain ⟨_, all, last⟩ := lastWinsFields_of_result made
  obtain ⟨_, all', last'⟩ := lastWinsFields_of_result made'
  obtain rfl := Except.ok.inj (gifts.symm.trans all)
  obtain rfl := Except.ok.inj (gifts'.symm.trans all')
  refine UpdateFields.ext_get? fun name => ?_
  rw [last.found, last'.found, same]

end FieldHistory

/-- **The laws of field sets** hold for all that can come about. -/
theorem overlayLaws : OverlayLaws where
  made := FieldHistory.exists_result_iff
  last _ _ made := FieldHistory.lastWinsFields_of_result made
  overlaid := SortedMap.get?_merge
  kept _ _ _ absent := SortedMap.get?_merge_of_none absent
  stored listing overrides := SortedMap.get?_merge listing.updates overrides
  assoc := SortedMap.merge_assoc
  idem := SortedMap.merge_self
  right_id := SortedMap.merge_empty
  left_id := SortedMap.empty_merge
  ext _ _ same := UpdateFields.ext_get? same
  order _ _ _ _ _ _ made made' gifts gifts' same :=
    FieldHistory.result_congr made made' gifts gifts' same

end SessionDirectory
