import SessionDirectory.Json.Raw

/-!
# Reading JSON

Reading turns the tree of a text into a value or into the parts of a record.

A record is written as an object of its fields, where unknown members are skipped unseen and a
known one may not be repeated, or as an array of its fields in their order, where the last ones
may be left out. What is read may be nested 127 levels deep, what is skipped may be nested to any
depth.

## Main definitions

* `Json.Error`: why a text cannot be read
* `Json.Raw.value`: the free-form value of a tree
* `Json.Raw.record`: the fields of a record, by name
* `Json.Raw.text`, `Json.Raw.whole`, `Json.Raw.flag`, `Json.Raw.texts`: the values of fields
-/

set_option autoImplicit false

namespace SessionDirectory.Json

/-- Why a text cannot be read. -/
inductive Error where
  /-- The text is not grammatical. -/
  | ungrammatical
  /-- A value that is read is nested too deeply. -/
  | tooDeep
  /-- A number is beyond every double. -/
  | numberOutOfRange
  /-- A string holds half of a surrogate pair. -/
  | loneSurrogate
  /-- A value is not of the kind that is expected. -/
  | mismatch (expected : String)
  /-- A record has a field twice. -/
  | repeatedField (name : String)
  /-- A record lacks a field. -/
  | missingField (name : String)
  /-- A record written as an array has more items than fields. -/
  | tooManyItems
  deriving DecidableEq, Repr

/-- What went wrong, in words. -/
def Error.message : Error → String
  | .ungrammatical => "not a JSON text"
  | .tooDeep => "recursion limit exceeded"
  | .numberOutOfRange => "number out of range"
  | .loneSurrogate => "lone surrogate in a string"
  | .mismatch expected => "expected " ++ expected
  | .repeatedField name => "duplicate field " ++ name
  | .missingField name => "missing field " ++ name
  | .tooManyItems => "too many items"

/-- The deepest nesting that is read. -/
def maxDepth : Nat := 127

/-- Inserts a member by name; an earlier one of the same name is replaced. -/
def insertMember (member : String × Value) (members : List (String × Value)) :
    List (String × Value) :=
  insertEntry member.1 member.2 members

/-- The members sorted by name; of several members of one name the last one counts. -/
def Value.ofMembers (members : List (String × Value)) : Value :=
  .object (members.foldl (fun done m => insertMember m done) [])

namespace Raw

/-- The tree of a text. -/
def parse (s : String) : Except Error Raw :=
  match parse? s with
  | some r => .ok r
  | none => .error .ungrammatical

/-- The characters of a string or of a member's name. -/
def known (s : Option String) : Except Error String :=
  match s with
  | some s => .ok s
  | none => .error .loneSurrogate

mutual

/-- The value of a tree, of which at most `depth` levels of containers may be opened. -/
def value (depth : Nat) : Raw → Except Error Value
  | .null => .ok .null
  | .bool b => .ok (.bool b)
  | .number (some n) => .ok (.number n)
  | .number none => .error .numberOutOfRange
  | .string s => (known s).map .string
  | .array items =>
    match depth with
    | 0 => .error .tooDeep
    | depth + 1 => (valueItems depth items).map .array
  | .object members =>
    match depth with
    | 0 => .error .tooDeep
    | depth + 1 => (valueMembers depth members).map Value.ofMembers

/-- The values of the items of an array. -/
def valueItems (depth : Nat) : List Raw → Except Error (List Value)
  | [] => .ok []
  | r :: rest => do
    let v ← value depth r
    let vs ← valueItems depth rest
    return v :: vs

/-- The members of an object in the order of the text. -/
def valueMembers (depth : Nat) : List (Option String × Raw) → Except Error (List (String × Value))
  | [] => .ok []
  | (name, r) :: rest => do
    let name ← known name
    let v ← value depth r
    let ms ← valueMembers depth rest
    return (name, v) :: ms

end

/-- The values that an object gives to a name, in the order of the text. -/
def lookup (members : List (Option String × Raw)) (name : String) : List Raw :=
  members.filterMap fun m => if m.1 = some name then some m.2 else none

/-- The fields of a record, by name. The values of unknown members are not looked at, but their
names are. -/
def record (names : List String) : Raw → Except Error (String → Option Raw)
  | .object members =>
    match names.find? fun name => 1 < (lookup members name).length with
    | some name => .error (.repeatedField name)
    | none =>
      if members.all fun m => m.1.isSome then .ok fun name => (lookup members name).head?
      else .error .loneSurrogate
  | .array items =>
    if items.length ≤ names.length then .ok fun name => items[names.idxOf name]?
    else .error .tooManyItems
  | _ => .error (.mismatch "a record")

/-- A string. -/
def text : Raw → Except Error String
  | .string s => known s
  | _ => .error (.mismatch "a string")

/-- A truth value. -/
def flag : Raw → Except Error Bool
  | .bool b => .ok b
  | _ => .error (.mismatch "a boolean")

/-- A whole number between two bounds. -/
def whole (least greatest : Int) : Raw → Except Error Int
  | .number (some (.integer n)) =>
    if least ≤ n.val ∧ n.val ≤ greatest then .ok n.val else .error (.mismatch "a smaller integer")
  | .number none => .error .numberOutOfRange
  | _ => .error (.mismatch "an integer")

/-- An unsigned 16-bit number. -/
def uint16 (r : Raw) : Except Error UInt16 :=
  (r.whole 0 65535).map fun n => UInt16.ofNat n.toNat

/-- An unsigned 32-bit number. -/
def uint32 (r : Raw) : Except Error UInt32 :=
  (r.whole 0 4294967295).map fun n => UInt32.ofNat n.toNat

/-- An unsigned 64-bit number. -/
def uint64 (r : Raw) : Except Error UInt64 :=
  (r.whole 0 18446744073709551615).map fun n => UInt64.ofNat n.toNat

/-- A signed 64-bit number. -/
def int64 (r : Raw) : Except Error Int64 :=
  (r.whole (-9223372036854775808) 9223372036854775807).map Int64.ofInt

/-- A list of strings. -/
def texts : Raw → Except Error (List String)
  | .array items => items.mapM text
  | _ => .error (.mismatch "a list of strings")

/-- An optional value, absent when it is null. -/
def optional {α : Type} (read : Raw → Except Error α) : Raw → Except Error (Option α)
  | .null => .ok none
  | r => (read r).map some

/-- A field that must be there. -/
def required {α : Type} (name : String) (read : Raw → Except Error α) :
    Option Raw → Except Error α
  | some r => read r
  | none => .error (.missingField name)

/-- A field with a value for when it is absent. -/
def defaulted {α : Type} (absent : α) (read : Raw → Except Error α) :
    Option Raw → Except Error α
  | some r => read r
  | none => .ok absent

/-- A field that may be absent or null. -/
def optionalField {α : Type} (read : Raw → Except Error α) :
    Option Raw → Except Error (Option α) :=
  defaulted none (optional read)

end Raw

/-- Reads a text as a free-form value. -/
def Value.parse (s : String) : Except Error Value := do
  let r ← Raw.parse s
  r.value maxDepth

end SessionDirectory.Json
