import SessionDirectory.Json.Read

/-!
# Listing ids

The identifier that a list server assigns to a listing. It arrives as a JSON string or as a JSON
number and goes back out in the same form; inside the program only its text matters.

## Main definitions

* `ListingId`: an id in text or in number form
* `ListingId.toText`: the text used in request paths
* `ListingId.toJson`, `ListingId.read`: the id as JSON

## Main results

* `ListingId.number_text_injective`: the text of a number form determines the number
-/

set_option autoImplicit false

namespace SessionDirectory

/-- A listing id, in the form in which the server sent it. -/
inductive ListingId where
  | text (s : String)
  | number (n : UInt64)
  deriving DecidableEq

namespace ListingId

/-- The text of the id, used in request paths. -/
def toText : ListingId → String
  | .text s => s
  | .number n => Decimal.text n.toNat

/-- Whether the id is a JSON number. -/
def isNumeric : ListingId → Bool
  | .text _ => false
  | .number _ => true

/-- Whether the text of the id is empty. -/
def isEmpty (id : ListingId) : Bool := id.toText.isEmpty

/-- The id as JSON, in its own form. -/
def toJson : ListingId → Json.Value
  | .text s => .string s
  | .number n => .number (.integer (.ofUInt64 n))

/-- Reads an id: a string, or a whole number that fits an unsigned 64-bit word. -/
def read : Json.Raw → Except Json.Error ListingId
  | .string s => (Json.Raw.known s).map .text
  | .number n => (Json.Raw.uint64 (.number n)).map .number
  | _ => .error (.mismatch "a string or an unsigned integer")

/-- The text of a number form determines the number. -/
theorem number_text_injective {m n : UInt64} (h : toText (.number m) = toText (.number n)) :
    m = n := by
  have h' : Nat.toDigits 10 m.toNat = Nat.toDigits 10 n.toNat := String.ofList_injective h
  have := congrArg (Nat.ofDigitChars 10 · 0) h'
  simpa [UInt64.toNat_inj] using this

/-- Ids are ordered by text; a text form comes before the number form of the same text. -/
instance : Ord ListingId where
  compare := compareLex (compareOn toText) (compareOn isNumeric)

instance : Std.TransOrd ListingId :=
  inferInstanceAs (Std.TransCmp (compareLex (compareOn toText) (compareOn isNumeric)))

instance : Std.LawfulEqOrd ListingId where
  eq_of_compare {a b} h := by
    obtain ⟨ht, hn⟩ := Ordering.then_eq_eq.mp h
    have ht : a.toText = b.toText := Std.LawfulEqOrd.eq_of_compare ht
    have hn : a.isNumeric = b.isNumeric := Std.LawfulEqOrd.eq_of_compare hn
    cases a <;> cases b <;> simp_all [isNumeric]
    · simpa [toText] using ht
    · exact number_text_injective ht

/-- The ids in increasing order, each once. -/
def sortDistinct (ids : List ListingId) : List ListingId :=
  (SortedMap.ofList (ids.map fun id => (id, ()))).keys

end ListingId

/-- A listing id with the key that proves ownership of the listing. -/
structure Credential where
  id : ListingId
  key : String
  deriving DecidableEq

namespace Credential

/-- The credential as JSON. -/
def toJson (c : Credential) : Json.Value :=
  .object [("id", c.id.toJson), ("key", .string c.key)]

/-- Reads a credential. -/
def read (r : Json.Raw) : Except Json.Error Credential := do
  let get ← r.record ["id", "key"]
  let id ← Json.Raw.required "id" ListingId.read (get "id")
  let key ← Json.Raw.required "key" Json.Raw.text (get "key")
  return ⟨id, key⟩

/-- Reads the text of a credential. -/
def parse (s : String) : Except Json.Error Credential := Json.Raw.parse s >>= read

end Credential

end SessionDirectory
