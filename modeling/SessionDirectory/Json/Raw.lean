import SessionDirectory.Json.Token

/-!
# Grammatical JSON texts

The tree of a grammatical text, before any of it is read as a value. It has every member of every
object, repeated ones too, and holds numbers and strings that have no value: a reader that skips
a member never looks at them. A tree may be nested to any depth; it is built by a machine that
keeps the unfinished containers in a list.

## Main definitions

* `Json.Raw`: the tree of a grammatical text
* `Json.Reader.step`: the machine's step on one token
* `Json.Raw.ofTokens?`, `Json.Raw.parse?`: the tree of a list of tokens and of a text
-/

set_option autoImplicit false

namespace SessionDirectory.Json

/-- The tree of a grammatical text. -/
inductive Raw where
  | null
  | bool (b : Bool)
  | number (n : Option Number)
  | string (s : Option String)
  | array (items : List Raw)
  | object (members : List (Option String × Raw))
  deriving Inhabited

/-- An unfinished container: what it holds so far, newest first, and the name of the member that
is being read. -/
inductive Frame where
  | items (done : List Raw)
  | members (done : List (Option String × Raw)) (name : Option String)

/-- The place in the grammar, with the containers around it, innermost first. -/
inductive Reader where
  /-- A value must follow. -/
  | value (around : List Frame)
  /-- The first item of an array or its closing bracket must follow. -/
  | firstItem (around : List Frame)
  /-- The first name of an object or its closing brace must follow. -/
  | firstName (around : List Frame)
  /-- A name must follow. -/
  | nextName (around : List Frame) (done : List (Option String × Raw))
  /-- The colon after a name must follow. -/
  | colon (around : List Frame) (done : List (Option String × Raw)) (name : Option String)
  /-- A value has just ended. -/
  | after (around : List Frame) (v : Raw)

namespace Reader

/-- The first token of a value. -/
def begin? (around : List Frame) : Token → Option Reader
  | .openArray => some (.firstItem around)
  | .openObject => some (.firstName around)
  | .null => some (.after around .null)
  | .bool b => some (.after around (.bool b))
  | .number n => some (.after around (.number n))
  | .string s => some (.after around (.string s))
  | _ => none

/-- Reads one token. -/
def step : Reader → Token → Option Reader
  | .value around, t => begin? around t
  | .firstItem around, .closeArray => some (.after around (.array []))
  | .firstItem around, t => begin? (.items [] :: around) t
  | .firstName around, .closeObject => some (.after around (.object []))
  | .firstName around, .string name => some (.colon around [] name)
  | .nextName around done, .string name => some (.colon around done name)
  | .colon around done name, .colon => some (.value (.members done name :: around))
  | .after (.items done :: around) v, .comma => some (.value (.items (v :: done) :: around))
  | .after (.items done :: around) v, .closeArray =>
    some (.after around (.array (v :: done).reverse))
  | .after (.members done name :: around) v, .comma => some (.nextName around ((name, v) :: done))
  | .after (.members done name :: around) v, .closeObject =>
    some (.after around (.object ((name, v) :: done).reverse))
  | _, _ => none

/-- Reads tokens one after the other. -/
def run (r : Reader) (ts : List Token) : Option Reader := ts.foldlM step r

/-- The tree, when the text ends after one value. -/
def finish? : Reader → Option Raw
  | .after [] v => some v
  | _ => none

end Reader

namespace Raw

/-- The tree of a list of tokens. -/
def ofTokens? (ts : List Token) : Option Raw :=
  ((Reader.value []).run ts).bind Reader.finish?

/-- The tree of a text, if it is grammatical. -/
def parse? (s : String) : Option Raw := (Token.scan s.toList).bind ofTokens?

end Raw

end SessionDirectory.Json
