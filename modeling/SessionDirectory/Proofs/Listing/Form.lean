import SessionDirectory.Proofs.Json.NumeralText
import SessionDirectory.Proofs.Json.ReadBack
import SessionDirectory.Proofs.Listing.Stored

/-!
# The form of ids

A list server may send an id as a string or as a number, and the id goes back to it in the same form.
An id is kept as its text and whether it was a number; to write it, the text is read as a word
again. That brings the number back, since the text of a number is its decimal text, which has no
leading zeros and denotes the number.

So a string of digits and the number of these digits are two ids, whose texts are the same. They are
written differently, and a server tells them apart as the program does.

## Main definitions

* `ListingId.parse`: reads the text of an id
* `ListingId.wireForm`: how an id is written that is kept as a text and its form
* `ListingId.KeepsForm`: ids keep their form

## Main results

* `ListingId.toJson_eq_wireForm`: reading the text of a number again brings the number back
* `ListingId.parse_eq_ok_iff`: the texts of an id
* `ListingId.parse_numeral_iff`: the numerals that are ids
* `ListingId.keepsForm`: ids keep their form
-/

set_option autoImplicit false

namespace SessionDirectory

open Json (Raw Value Numeral)

namespace ListingId

/-- Reads the text of an id. -/
def parse (s : String) : Except Json.Error ListingId := Raw.parse s >>= read

/-- How an id is written that is kept as its text and whether it was a number: as a number if it was
one and its text is read as a word again, and else as a string. -/
def wireForm (text : String) (numeric : Bool) : Value :=
  match numeric, Decimal.readUnsigned 18446744073709551615 text with
  | true, .ok n => .number (.integer (.ofUInt64 (.ofNat n)))
  | _, _ => .string text

/-- **Ids keep their form**, from JSON and back to it. -/
structure KeepsForm : Prop where
  /-- What is written of an id is read as the id, and two ids are written differently. -/
  back : ReadBack (fun id : ListingId => id.toJson.compact) parse
  /-- An id is a text in one of two forms, -/
  parts : ∀ a b : ListingId, a = b ↔ a.toText = b.toText ∧ a.isNumeric = b.isNumeric
  /-- and is written from the text and the form. -/
  written : ∀ id : ListingId, id.toJson = wireForm id.toText id.isNumeric
  /-- Every string is read, and is written as it was. -/
  string : ∀ s, ∃ id, read (.string (some s)) = .ok id ∧ id.toJson = .string s ∧
    id.toText = s ∧ id.isNumeric = false
  /-- Every whole number that fits an unsigned word is read, and is written as it was. -/
  number : ∀ i : Json.Integer, 0 ≤ i.val → ∃ id, read (.number (some (.integer i))) = .ok id ∧
    id.toJson = .number (.integer i) ∧ id.toText = Decimal.text i.val.toNat ∧ id.isNumeric = true
  /-- The text of a number is its digits without leading zeros. -/
  decimal : ∀ n : UInt64, Numeral.IsWhole (ListingId.number n).toText.toList ∧
    Decimal.valueOf (ListingId.number n).toText.toList = n.toNat
  /-- Nothing else is read: neither null nor a truth value, no array and no object, no number that is
  negative or a double. -/
  others : ∀ r id, read r = .ok id → (∃ s, r = .string (some s)) ∨
    ∃ i : Json.Integer, 0 ≤ i.val ∧ r = .number (some (.integer i))
  /-- A text is read as an id if it has the tree of the JSON of the id. -/
  texts : ∀ s id, parse s = .ok id ↔ Raw.parse? s = some id.toJson.tree
  /-- A numeral is read if it is one of an unsigned word: it has no sign, not even before a zero, no
  fraction and no exponent, and is not too large. -/
  numeral : ∀ (t : Numeral) cs, t.Writes cs →
    ((∃ id, parse (String.ofList cs) = .ok id) ↔ t.IsWord)
  /-- What is read of a numeral has the digits of the numeral as its text, and is written as they
  are. -/
  digits : ∀ (t : Numeral) cs id, t.Writes cs → parse (String.ofList cs) = .ok id →
    id.isNumeric = true ∧ id.toText = String.ofList cs ∧ id.toJson.compact = String.ofList cs
  /-- A text and a number are two ids, even if the text is that of the number, and are written
  differently. -/
  apart : ∀ s n, ListingId.text s ≠ .number n ∧
    (ListingId.text s).toJson ≠ (ListingId.number n).toJson ∧
    (ListingId.text s).toJson.compact ≠ (ListingId.number n).toJson.compact

variable {s : String} {id : ListingId} {t : Numeral} {cs : List Char} {n : UInt64}

/-! ## Text and form -/

theorem eq_iff (a b : ListingId) : a = b ↔ a.toText = b.toText ∧ a.isNumeric = b.isNumeric := by
  constructor
  · rintro rfl
    exact ⟨rfl, rfl⟩
  · rintro ⟨text, form⟩
    cases a with
    | text s =>
      cases b with
      | text s' => exact congrArg ListingId.text text
      | number n => cases form
    | number n =>
      cases b with
      | text s => cases form
      | number n' => exact congrArg ListingId.number (number_text_injective text)

/-- **Reading the text of a number again brings the number back.** -/
theorem toJson_eq_wireForm (id : ListingId) : id.toJson = wireForm id.toText id.isNumeric := by
  cases id with
  | text s => rfl
  | number n =>
    -- The decimal text of a word is within the range that is read.
    have again : Decimal.readUnsigned 18446744073709551615 (Decimal.text n.toNat) = .ok n.toNat :=
      Decimal.readUnsigned_text (Nat.le_of_lt_succ n.toNat_lt)
    simp only [toText, isNumeric, toJson, wireForm, again, UInt64.ofNat_toNat]

/-- A number is written as its text. -/
theorem compact_toJson_number (n : UInt64) :
    (ListingId.number n).toJson.compact = (ListingId.number n).toText := by
  have unsigned : Decimal.signed (n.toNat : Int) = Decimal.digits n.toNat := by
    rw [Decimal.signed, if_neg (by omega), Int.natAbs_natCast]
  exact congrArg String.ofList unsigned

/-! ## Reading -/

/-- **The texts of an id** are those that have the tree of its JSON. -/
theorem parse_eq_ok_iff : parse s = .ok id ↔ Raw.parse? s = some id.toJson.tree := by
  rw [parse, Raw.parse]
  cases Raw.parse? s with
  | none =>
    constructor
    · intro read
      cases read
    · intro tree
      cases tree
  | some r => exact (reads_read r id).trans Option.some_inj.symm

/-- What is written of an id is read as the id, and two ids are written differently. -/
theorem readBack : ReadBack (fun id : ListingId => id.toJson.compact) parse :=
  ReadBack.of_tree floatFree_toJson fun id => (reads_read _ id).mpr rfl

/-- **A numeral is read as an id** if and only if it is one of an unsigned word, and as this word. -/
theorem parse_numeral_iff (writes : t.Writes cs) : parse (String.ofList cs) = .ok id ↔
    t.IsWord ∧ ∃ n : UInt64, id = .number n ∧ Decimal.valueOf t.whole = n.toNat := by
  have reads : parse (String.ofList cs) = read (.number t.number?) := by
    rw [parse, writes.parse_eq]
    rfl
  rw [reads, reads_read]
  cases id with
  | text s => simp [toJson, Value.tree]
  | number n =>
    -- The tree of a number is that of a numeral which denotes the number.
    have same : (Raw.number t.number? = (ListingId.number n).toJson.tree) ↔
        t.number? = some (.integer (.ofUInt64 n)) := by
      rw [toJson, Value.tree, Raw.number.injEq]
    rw [same, Numeral.number?_eq_word_iff]
    simp

/-- The numerals of unsigned words are read. -/
theorem exists_parse_numeral_iff (writes : t.Writes cs) :
    (∃ id, parse (String.ofList cs) = .ok id) ↔ t.IsWord := by
  simp only [parse_numeral_iff writes]
  constructor
  · rintro ⟨id, word, -⟩
    exact word
  · intro word
    have size := UInt64.toNat_ofNat_of_lt' (Nat.lt_succ_of_le word.inRange)
    exact ⟨_, word, _, rfl, size.symm⟩

/-- The text of the id of a numeral is the numeral, digit by digit. -/
theorem toText_of_numeral (writes : t.Writes cs) (word : t.IsWord)
    (value : Decimal.valueOf t.whole = n.toNat) :
    (ListingId.number n).toText = String.ofList cs := by
  rw [writes.eq_whole word, toText, ← value, Decimal.text, writes.whole.digits_valueOf]

/-! ## The form is kept -/

/-- **Ids keep their form.** -/
theorem keepsForm : KeepsForm where
  back := readBack
  parts := eq_iff
  written := toJson_eq_wireForm
  string := by
    intro s
    exact ⟨.text s, rfl, rfl, rfl, rfl⟩
  number := by
    intro i nonneg
    obtain ⟨w, rfl⟩ := Json.Integer.exists_ofUInt64_eq nonneg
    exact ⟨.number w, (reads_read _ _).mpr rfl, rfl, rfl, rfl⟩
  decimal := by
    intro n
    rw [toText, Decimal.text, String.toList_ofList]
    exact ⟨Numeral.isWhole_digits _, Decimal.valueOf_digits _⟩
  others := by
    intro r id read
    have form := (reads_read r id).mp read
    cases id with
    | text s => exact .inl ⟨s, form⟩
    | number n => exact .inr ⟨.ofUInt64 n, Int.natCast_nonneg _, form⟩
  texts := fun _ _ => parse_eq_ok_iff
  numeral := fun _ _ => exists_parse_numeral_iff
  digits := by
    intro t cs id writes read
    obtain ⟨word, n, rfl, value⟩ := (parse_numeral_iff writes).mp read
    have text := toText_of_numeral writes word value
    exact ⟨rfl, text, (compact_toJson_number n).trans text⟩
  apart := by
    intro s n
    have ne : ListingId.text s ≠ .number n := by
      intro same
      cases same
    have written := readBack.distinct _ _ ne
    refine ⟨ne, ?_, written⟩
    intro same
    exact written (congrArg Value.compact same)

end ListingId

end SessionDirectory
