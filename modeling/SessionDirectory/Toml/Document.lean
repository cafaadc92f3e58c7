import SessionDirectory.Toml.Quoted

/-!
# TOML documents

A document is a sequence of lines: a key with its value, the header of a table, or nothing; each
may end in a comment. Arrays and strings in three quotes go over several lines.

## Main definitions

* `Toml.readKey?`: a dotted key
* `Toml.readValue?`: a value
* `Toml.parse?`: the members of a document
-/

set_option autoImplicit false

namespace SessionDirectory.Toml

/-- The text after blanks within a line. -/
def skipBlanks (cs : List Char) : List Char := cs.dropWhile isBlank

/-- Whether a character may stand in a key without quotes. -/
def isBareKeyChar (c : Char) : Bool := c.isAlphanum || c = '_' || c = '-'

/-- Reads a part of a key. -/
def readKeyPart? (cs : List Char) : Option (String × List Char) :=
  match cs with
  | '"' :: _ | '\'' :: _ => readShort? cs
  | cs =>
    let part := cs.takeWhile isBareKeyChar
    if part.isEmpty then none else some (String.ofList part, cs.drop part.length)

/-- Reads a dotted key: the parts before the last one, and the last one. -/
def readKey? : Nat → List Char → Option ((List String × String) × List Char)
  | 0, _ => none
  | fuel + 1, cs => do
    let (part, rest) ← readKeyPart? cs
    match skipBlanks rest with
    | '.' :: rest => do
      let ((path, last), rest) ← readKey? fuel (skipBlanks rest)
      return ((part :: path, last), rest)
    | rest => return (([], part), rest)

/-- The text after a comment, if one starts here: its line break, or nothing. -/
def skipComment? : List Char → Option (List Char)
  | '#' :: rest =>
    match rest.dropWhile isPlain with
    | [] => some []
    | rest => (skipNewline? rest).map fun _ => rest
  | cs => some cs

/-- The text after blanks, comments and line breaks. -/
def skipLines? : Nat → List Char → Option (List Char)
  | 0, _ => none
  | fuel + 1, cs => do
    let rest ← skipComment? (skipBlanks cs)
    match skipNewline? rest with
    | some rest => skipLines? fuel rest
    | none => return rest

/-- The characters of a word. -/
def isWordChar (c : Char) : Bool := c.isAlphanum || "+-_.:".toList.contains c

/-- Reads a word; after a date, a time of day may follow a blank. -/
def readWord (cs : List Char) : List Char × List Char :=
  let word := cs.takeWhile isWordChar
  match cs.drop word.length with
  | ' ' :: d :: rest =>
    if d.isDigit && skipDate? word = some [] then
      let time := (d :: rest).takeWhile isWordChar
      (word ++ ' ' :: time, (d :: rest).drop time.length)
    else (word, ' ' :: d :: rest)
  | rest => (word, rest)

/-- The deepest nesting of arrays and tables between braces. -/
def maxDepth : Nat := 80

mutual

/-- Reads a value, of which at most `depth` levels may be opened. -/
def readValue? : Nat → Nat → List Char → Option (Value × List Char)
  | 0, _, _ => none
  | fuel + 1, depth, cs =>
    match cs with
    | '"' :: _ | '\'' :: _ => (readString? cs).map fun (s, rest) => (.string s, rest)
    | '[' :: rest => if depth = 0 then none else readItems? fuel (depth - 1) [] rest
    | '\x7b' :: rest =>
      if depth = 0 then none
      else match skipBlanks rest with
        | '\x7d' :: rest => some (.table .inlined [], rest)
        | rest => readMembers? fuel (depth - 1) [] rest
    | cs =>
      let (word, rest) := readWord cs
      (readScalar? word).map fun v => (v, rest)

/-- Reads the items of an array up to its closing bracket; those before are held newest first. -/
def readItems? : Nat → Nat → List Value → List Char → Option (Value × List Char)
  | 0, _, _, _ => none
  | fuel + 1, depth, done, cs => do
    match ← skipLines? (cs.length + 1) cs with
    | ']' :: rest => return (.array done.reverse, rest)
    | rest => do
      let (v, rest) ← readValue? fuel depth rest
      match ← skipLines? (rest.length + 1) rest with
      | ',' :: rest => readItems? fuel depth (v :: done) rest
      | ']' :: rest => return (.array (v :: done).reverse, rest)
      | _ => none

/-- Reads the members of a table between braces, which stands on one line. -/
def readMembers? : Nat → Nat → Members → List Char → Option (Value × List Char)
  | 0, _, _, _ => none
  | fuel + 1, depth, members, cs => do
    let ((path, key), rest) ← readKey? (cs.length + 1) (skipBlanks cs)
    let rest ← skip? '=' rest
    let (v, rest) ← readValue? fuel depth (skipBlanks rest)
    let members ← addMember? path key v members
    match skipBlanks rest with
    | ',' :: rest => readMembers? fuel depth members rest
    | '\x7d' :: rest => return (.table .inlined members, rest)
    | _ => none

end

/-- The document so far, and the header under which its next lines stand. -/
structure Document where
  members : Members
  header : List String

/-- Reads a header: whether it is in double brackets, and its key. -/
def readHeader? (cs : List Char) : Option ((Bool × List String × String) × List Char) := do
  match cs with
  | '[' :: '[' :: rest => do
    let ((path, key), rest) ← readKey? (rest.length + 1) (skipBlanks rest)
    return ((true, path, key), ← skip? ']' (← skip? ']' rest))
  | '[' :: rest => do
    let ((path, key), rest) ← readKey? (rest.length + 1) (skipBlanks rest)
    return ((false, path, key), ← skip? ']' rest)
  | _ => none

/-- Reads a header or a key with its value into the document. -/
def readEntry? (d : Document) (cs : List Char) : Option (Document × List Char) :=
  match cs with
  | '[' :: _ => do
    let ((isList, path, key), rest) ← readHeader? cs
    let members ← if isList then openElement? path key d.members else openTable? path key d.members
    return (⟨members, path ++ [key]⟩, rest)
  | cs => do
    let ((path, key), rest) ← readKey? (cs.length + 1) cs
    let rest ← skip? '=' rest
    let (v, rest) ← readValue? (2 * cs.length + 2) maxDepth (skipBlanks rest)
    let members ← atTable? (addMember? path key v) d.header d.members
    return (⟨members, d.header⟩, rest)

/-- Reads the lines of a document. -/
def readLines? : Nat → Document → List Char → Option Members
  | 0, _, _ => none
  | fuel + 1, d, cs => do
    let rest ← skipComment? (skipBlanks cs)
    match skipNewline? rest, rest with
    | some rest, _ => readLines? fuel d rest
    | none, [] => return d.members
    | none, rest => do
      let (d, rest) ← readEntry? d rest
      let rest ← skipComment? (skipBlanks rest)
      match skipNewline? rest, rest with
      | some rest, _ => readLines? fuel d rest
      | none, [] => return d.members
      | none, _ => none

/-- The members of a document; a byte order mark before it does not count. -/
def parse? (s : String) : Option Members :=
  let cs := match s.toList with
    | '\ufeff' :: rest => rest
    | cs => cs
  readLines? (cs.length + 1) ⟨[], []⟩ cs

end SessionDirectory.Toml
