import SessionDirectory.Listing.Id
import SessionDirectory.Proofs.Json.Record
import SessionDirectory.Proofs.Json.Tree

/-!
# The forms of fields

A field of a record is read in one form only: a string from a string whose characters are known, a
whole number from a numeral in range, a truth value from a truth value. A field that is optional may
also be absent or null. So the trees that are read are told without the readers.

## Main definitions

* `Raw.Reads`: a reader reads one form and nothing else
* `Raw.NullOr`: null, or of a form
* `Integer.ofInt64`: a signed word

## Main results

* `Raw.reads_word`: the form of the words of any size
* `Raw.reads_text`, `Raw.reads_flag`, `Raw.reads_uint16`, `Raw.reads_uint32`, `Raw.reads_uint64`,
  `Raw.reads_int64`, `Raw.reads_texts`, `ListingId.reads_read`: the form of each kind of field
* `Raw.Reads.required_eq`, `Raw.Reads.defaulted_eq`, `Raw.Reads.optionalField_eq`: a field of the
  form that is read
* `Raw.Reads.defaulted_of_omitted`, `Raw.Reads.optionalField_map_eq`: a field that may be left out
* `Raw.Reads.exists_optionalField_iff`: when an optional field is read
-/

set_option autoImplicit false

namespace SessionDirectory

namespace Json

/-- A signed word. -/
def Integer.ofInt64 (n : Int64) : Integer :=
  ⟨n.toInt, Int64.le_toInt n, by have := Int64.toInt_lt n; omega⟩

theorem Integer.eq_of_val_eq {i j : Integer} (same : i.val = j.val) : i = j := by
  cases i
  cases j
  cases same
  rfl

/-- What is not negative is an unsigned word. -/
theorem Integer.exists_ofUInt64_eq {i : Integer} (nonneg : 0 ≤ i.val) :
    ∃ w : UInt64, ofUInt64 w = i := by
  have small : i.val.toNat < UInt64.size := by
    have upper := i.upper
    show _ < 18446744073709551616
    omega
  have word := UInt64.toNat_ofNat_of_lt' small
  refine ⟨.ofNat i.val.toNat, eq_of_val_eq ?_⟩
  show ((UInt64.ofNat i.val.toNat).toNat : Int) = i.val
  omega

namespace Raw

variable {r : Raw} {members : List (Option String × Raw)} {name : String}

/-! ## Values -/

theorem known_eq_ok_iff {s : Option String} {t : String} : known s = .ok t ↔ s = some t := by
  cases s <;> simp [known]

/-- **A reader reads one form**, and nothing else. -/
def Reads {α : Type} (read : Raw → Except Error α) (form : α → Raw) : Prop :=
  ∀ r a, read r = .ok a ↔ r = form a

theorem reads_text : Reads text fun s => .string (some s) := by
  intro r s
  cases r <;> simp [text, known_eq_ok_iff]

theorem reads_flag : Reads flag .bool := by
  intro r b
  cases r <;> simp [flag]

theorem whole_eq_ok_iff {least greatest n : Int} : r.whole least greatest = .ok n ↔
    ∃ i : Integer, r = .number (some (.integer i)) ∧ i.val = n ∧ least ≤ n ∧ n ≤ greatest := by
  constructor
  · intro read
    unfold whole at read
    split at read
    next i =>
      split at read
      next fits =>
        cases read
        exact ⟨i, rfl, rfl, fits⟩
      next => cases read
    all_goals cases read
  · rintro ⟨i, rfl, rfl, fits⟩
    exact if_pos fits

/-- **Words are read from the whole numbers in their range.** -/
theorem reads_word {α : Type} (greatest : Nat) {ofNat : Nat → α} {integer : α → Integer}
    (range : ∀ a, 0 ≤ (integer a).val ∧ (integer a).val ≤ greatest)
    (ofNat_val : ∀ a, ofNat (integer a).val.toNat = a)
    (val_ofNat : ∀ n : Nat, n ≤ greatest → (integer (ofNat n)).val = n) :
    Reads (fun r => (r.whole 0 greatest).map fun n => ofNat n.toNat) fun a =>
      .number (some (.integer (integer a))) := by
  intro r a
  show Except.map _ (r.whole 0 greatest) = _ ↔ _
  constructor
  · intro read
    cases fits : r.whole 0 greatest with
    | error e => rw [fits] at read; cases read
    | ok m =>
      rw [fits] at read
      cases read
      obtain ⟨i, rfl, rfl, least, most⟩ := whole_eq_ok_iff.mp fits
      -- A number in range is the word that it is made into.
      have word : i = integer (ofNat i.val.toNat) :=
        Integer.eq_of_val_eq (by rw [val_ofNat _ (by omega)]; omega)
      exact congrArg (fun i => Raw.number (some (.integer i))) word
  · rintro rfl
    have fits := whole_eq_ok_iff.mpr ⟨integer a, rfl, rfl, range a⟩
    rw [fits]
    exact congrArg Except.ok (ofNat_val a)

theorem reads_uint64 : Reads uint64 fun n => .number (some (.integer (.ofUInt64 n))) := by
  refine reads_word 18446744073709551615 (fun n => ?_) (fun n => UInt64.ofNat_toNat)
    fun n fits => ?_
  · have lt := n.toNat_lt
    show 0 ≤ (n.toNat : Int) ∧ (n.toNat : Int) ≤ _
    omega
  · exact congrArg Int.ofNat (UInt64.toNat_ofNat_of_lt' (Nat.lt_succ_of_le fits))

theorem reads_uint32 : Reads uint32 fun n => .number (some (.integer (.ofUInt32 n))) := by
  refine reads_word 4294967295 (fun n => ?_) (fun n => UInt32.ofNat_toNat)
    fun n fits => ?_
  · have lt := n.toNat_lt
    show 0 ≤ (n.toNat : Int) ∧ (n.toNat : Int) ≤ _
    omega
  · exact congrArg Int.ofNat (UInt32.toNat_ofNat_of_lt' (Nat.lt_succ_of_le fits))

theorem reads_uint16 : Reads uint16 fun n => .number (some (.integer (.ofUInt16 n))) := by
  refine reads_word 65535 (fun n => ?_) (fun n => UInt16.ofNat_toNat)
    fun n fits => ?_
  · have lt := n.toNat_lt
    show 0 ≤ (n.toNat : Int) ∧ (n.toNat : Int) ≤ _
    omega
  · exact congrArg Int.ofNat (UInt16.toNat_ofNat_of_lt' (Nat.lt_succ_of_le fits))

theorem reads_int64 : Reads int64 fun n => .number (some (.integer (.ofInt64 n))) := by
  intro r n
  constructor
  · intro read
    cases fits : r.whole (-9223372036854775808) 9223372036854775807 with
    | error e => rw [int64, fits] at read; cases read
    | ok m =>
      rw [int64, fits] at read
      cases read
      obtain ⟨i, rfl, rfl, least, greatest⟩ := whole_eq_ok_iff.mp fits
      have same : i.val = (Int64.ofInt i.val).toInt := by
        rw [Int64.toInt_ofInt_of_le least (by omega)]
      have word : i = .ofInt64 (.ofInt i.val) := Integer.eq_of_val_eq same
      exact congrArg (fun i => Raw.number (some (.integer i))) word
  · rintro rfl
    have fits : whole (-9223372036854775808) 9223372036854775807
        (.number (some (.integer (.ofInt64 n)))) = .ok n.toInt := by
      have lt := Int64.toInt_lt n
      have le := Int64.le_toInt n
      exact whole_eq_ok_iff.mpr ⟨_, rfl, rfl, by omega, by omega⟩
    rw [int64, fits]
    show Except.ok (Int64.ofInt n.toInt) = _
    rw [Int64.ofInt_toInt]

/-- Lists are read from the lists of what their items are read from. -/
theorem mapM_eq_ok_iff {α : Type} {read : Raw → Except Error α} {form : α → Raw}
    (reads : Reads read form) {items : List Raw} {as : List α} :
    items.mapM read = .ok as ↔ items = as.map form := by
  induction items generalizing as with
  | nil => cases as <;> simp [pure, Except.pure]
  | cons r rest ih =>
    rw [List.mapM_cons]
    constructor
    · intro read
      obtain ⟨a, first, read⟩ := exists_of_bind_eq_ok read
      obtain ⟨as, later, read⟩ := exists_of_bind_eq_ok read
      cases read
      rw [(reads r a).mp first, ih.mp later, List.map_cons]
    · intro same
      cases as with
      | nil => cases same
      | cons a as =>
        rw [List.map_cons, List.cons.injEq] at same
        exact bind_eq_ok ((reads r a).mpr same.1) (bind_eq_ok (ih.mpr same.2) rfl)

theorem reads_texts : Reads texts fun ss => .array (ss.map fun s => .string (some s)) := by
  intro r ss
  cases r with
  | array items => rw [texts, mapM_eq_ok_iff reads_text, Raw.array.injEq]
  | null | bool | number | string | object => simp [texts]

/-! ## Optional fields -/

/-- Null, or of a form. -/
def NullOr {α : Type} (form : α → Raw) (r : Raw) : Prop := r = .null ∨ ∃ a, r = form a

theorem optional_of_ne_null {α : Type} (read : Raw → Except Error α) (ne : r ≠ .null) :
    r.optional read = (read r).map some := by
  cases r with
  | null => exact absurd rfl ne
  | bool | number | string | array | object => rfl

theorem mem_lookup_iff : r ∈ lookup members name ↔ (some name, r) ∈ members := by
  simp only [lookup, List.mem_filterMap, Option.ite_none_right_eq_some, Option.some.injEq]
  constructor
  · rintro ⟨⟨n, v⟩, mem, rfl, rfl⟩
    exact mem
  · intro mem
    exact ⟨_, mem, rfl, rfl⟩

/-- What a member that is not repeated has is what is looked up under its name. -/
theorem head?_lookup_eq_some_iff (once : (lookup members name).length ≤ 1) :
    (lookup members name).head? = some r ↔ (some name, r) ∈ members := by
  rw [← mem_lookup_iff]
  match lookup members name, once with
  | [], _ => simp
  | [v], _ => simp [eq_comm]

namespace Reads

variable {α : Type} {read : Raw → Except Error α} {form : α → Raw}

theorem exists_optional_iff (reads : Reads read form) :
    (∃ x, r.optional read = .ok x) ↔ r.NullOr form := by
  by_cases null : r = .null
  · exact iff_of_true ⟨none, by rw [null]; rfl⟩ (.inl null)
  rw [optional_of_ne_null read null]
  constructor
  · rintro ⟨x, done⟩
    cases value : read r with
    | error e => rw [value] at done; cases done
    | ok a => exact .inr ⟨a, (reads r a).mp value⟩
  · rintro (absent | ⟨a, rfl⟩)
    · exact absurd absent null
    · exact ⟨some a, by rw [(reads (form a) a).mpr rfl]; rfl⟩

/-- A field that must be there is read from its form. -/
theorem required_eq (reads : Reads read form) {field : Option Raw} {name : String} {a : α}
    (found : field = some (form a)) : required name read field = .ok a := by
  rw [found, required, (reads _ _).mpr rfl]

/-- A field with a default is read from its form. -/
theorem defaulted_eq (reads : Reads read form) {field : Option Raw} {absent a : α}
    (found : field = some (form a)) : defaulted absent read field = .ok a := by
  rw [found, defaulted, (reads _ _).mpr rfl]

/-- **An optional field is read** if and only if it is absent, null or of the form that is read. -/
theorem exists_optionalField_iff (reads : Reads read form)
    (once : (lookup members name).length ≤ 1) :
    (∃ x, optionalField read (lookup members name).head? = .ok x) ↔
      ∀ r, (some name, r) ∈ members → r.NullOr form := by
  simp only [← head?_lookup_eq_some_iff once]
  cases (lookup members name).head? with
  | none => exact iff_of_true ⟨none, rfl⟩ fun _ absent => nomatch absent
  | some r =>
    rw [optionalField, defaulted, reads.exists_optional_iff]
    simp

/-- A field of the form that is read has the value of the form. -/
theorem optionalField_eq (reads : Reads read form) {a : α} (notNull : form a ≠ .null) :
    optionalField read (some (form a)) = .ok (some a) := by
  rw [optionalField, defaulted, optional_of_ne_null read notNull, (reads (form a) a).mpr rfl]
  rfl

/-- **A field that is left out where it has its default** is read as what it was. -/
theorem defaulted_of_omitted (reads : Reads read form) {field : Option Raw} {absent a : α}
    {omitted : Bool} (found : field = if omitted then none else some (form a))
    (isDefault : omitted = true → a = absent) : defaulted absent read field = .ok a := by
  cases omitted with
  | true =>
    rw [found, isDefault rfl]
    rfl
  | false => exact reads.defaulted_eq found

/-- **An optional field that is left out where it has no value** is read as what it was. -/
theorem optionalField_map_eq (reads : Reads read form) (notNull : ∀ a, form a ≠ .null)
    (a? : Option α) {field : Option Raw} (found : field = a?.map form) :
    optionalField read field = .ok a? := by
  cases a? with
  | none =>
    rw [found]
    rfl
  | some a =>
    rw [found, Option.map_some]
    exact reads.optionalField_eq (notNull a)

end Reads

end Raw

end Json

open Json (Raw)

/-- **An id is read from its own JSON.** -/
theorem ListingId.reads_read : Raw.Reads ListingId.read fun id => id.toJson.tree := by
  intro r id
  cases r with
  | string s =>
    cases s <;> cases id <;> simp [ListingId.read, Raw.known, toJson, Json.Value.tree, Except.map]
  | number n =>
    cases id with
    | text s =>
      cases h : (Raw.number n).uint64 <;>
        simp [ListingId.read, toJson, Json.Value.tree, Except.map, h]
    | number m =>
      -- A number is an id if and only if it is a word.
      refine Iff.trans ?_ (Raw.reads_uint64 (.number n) m)
      show Except.map ListingId.number (Raw.number n).uint64 = _ ↔ _
      cases (Raw.number n).uint64 <;> simp [Except.map]
  | null | bool | array | object =>
    cases id <;> simp [ListingId.read, toJson, Json.Value.tree]

theorem ListingId.tree_ne_null (id : ListingId) : id.toJson.tree ≠ .null := by
  cases id <;> simp [toJson, Json.Value.tree]

end SessionDirectory
