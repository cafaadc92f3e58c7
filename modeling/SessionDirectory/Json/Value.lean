import SessionDirectory.Json.Number
import SessionDirectory.SortedMap

/-!
# JSON values

Free-form JSON values and their texts. The members of an object are a list, in the order in which
they are written; values that were read have their members sorted by name, without repeats.

## Main definitions

* `Json.Value`: a value
* `Json.Value.compact`: its text without blanks
* `Json.Value.pretty`: its text on several lines, indented by two blanks a level
* `Json.Value.sortKeys`: the value with the members of every object sorted by name
-/

set_option autoImplicit false

namespace SessionDirectory.Json

/-- A JSON value. -/
inductive Value where
  | null
  | bool (b : Bool)
  | number (n : Number)
  | string (s : String)
  | array (items : List Value)
  | object (members : List (String × Value))
  deriving Inhabited

/-- A digit in base sixteen, in lower case. -/
def hexDigit (n : Nat) : Char := Nat.digitChar n

/-- The character inside a quoted string: quotes, backslashes and controls are escaped. -/
def escape (c : Char) : List Char :=
  if c = '"' then ['\\', '"']
  else if c = '\\' then ['\\', '\\']
  else if c = '\x08' then ['\\', 'b']
  else if c = '\x0c' then ['\\', 'f']
  else if c = '\n' then ['\\', 'n']
  else if c = '\r' then ['\\', 'r']
  else if c = '\t' then ['\\', 't']
  else if c.toNat < 0x20 then
    ['\\', 'u', '0', '0', hexDigit (c.toNat / 16), hexDigit (c.toNat % 16)]
  else [c]

/-- A string between quotes. -/
def quote (s : String) : List Char :=
  '"' :: s.toList.flatMap escape ++ ['"']

namespace Value

/-- A list of texts. -/
def ofStrings (ss : List String) : Value := .array (ss.map .string)

mutual

/-- The text of a value, without blanks. -/
def write : Value → List Char
  | .null => ['n', 'u', 'l', 'l']
  | .bool true => ['t', 'r', 'u', 'e']
  | .bool false => ['f', 'a', 'l', 's', 'e']
  | .number n => n.write
  | .string s => quote s
  | .array [] => ['[', ']']
  | .array (v :: rest) => '[' :: write v ++ writeItems rest
  | .object [] => ['\x7b', '\x7d']
  | .object ((name, v) :: rest) => '\x7b' :: quote name ++ ':' :: write v ++ writeMembers rest

/-- The items after the first one, and the closing bracket. -/
def writeItems : List Value → List Char
  | [] => [']']
  | v :: rest => ',' :: write v ++ writeItems rest

/-- The members after the first one, and the closing brace. -/
def writeMembers : List (String × Value) → List Char
  | [] => ['\x7d']
  | (name, v) :: rest => ',' :: quote name ++ ':' :: write v ++ writeMembers rest

end

/-- The text of a value, without blanks. -/
def compact (v : Value) : String := String.ofList v.write

/-- A line break and the indentation of a level. -/
def newline (level : Nat) : List Char := '\n' :: List.replicate (2 * level) ' '

mutual

/-- The text of a value at a nesting level, a line for each item and each member. -/
def writePretty (level : Nat) : Value → List Char
  | .array (v :: rest) =>
    '[' :: newline (level + 1) ++ writePretty (level + 1) v ++ writePrettyItems level rest
  | .object ((name, v) :: rest) =>
    '\x7b' :: newline (level + 1) ++ quote name ++ ':' :: ' ' :: writePretty (level + 1) v
      ++ writePrettyMembers level rest
  | .array [] => ['[', ']']
  | .object [] => ['\x7b', '\x7d']
  | .null => write .null
  | .bool b => write (.bool b)
  | .number n => n.write
  | .string s => quote s

/-- The items after the first one, and the closing bracket. -/
def writePrettyItems (level : Nat) : List Value → List Char
  | [] => newline level ++ [']']
  | v :: rest =>
    ',' :: newline (level + 1) ++ writePretty (level + 1) v ++ writePrettyItems level rest

/-- The members after the first one, and the closing brace. -/
def writePrettyMembers (level : Nat) : List (String × Value) → List Char
  | [] => newline level ++ ['\x7d']
  | (name, v) :: rest =>
    ',' :: newline (level + 1) ++ quote name ++ ':' :: ' ' :: writePretty (level + 1) v
      ++ writePrettyMembers level rest

end

/-- The text of a value on several lines. -/
def pretty (v : Value) : String := String.ofList (v.writePretty 0)

/-- Sorts members by name, by code point; members of one name keep their order. -/
def sortMembers (members : List (String × Value)) : List (String × Value) :=
  members.mergeSort fun a b => decide (a.1 ≤ b.1)

mutual

/-- The value with the members of every object, at any depth, sorted by name. -/
def sortKeys : Value → Value
  | .array items => .array (sortKeysItems items)
  | .object members => .object (sortMembers (sortKeysMembers members))
  | .null => .null
  | .bool b => .bool b
  | .number n => .number n
  | .string s => .string s

/-- The items, each with its members sorted. -/
def sortKeysItems : List Value → List Value
  | [] => []
  | v :: rest => v.sortKeys :: sortKeysItems rest

/-- The members in their order, each value with its members sorted. -/
def sortKeysMembers : List (String × Value) → List (String × Value)
  | [] => []
  | (name, v) :: rest => (name, v.sortKeys) :: sortKeysMembers rest

end

end Value

end SessionDirectory.Json
