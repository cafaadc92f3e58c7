import SessionDirectory.Toml.Scalar

/-!
# TOML strings

Strings in double quotes have escapes, strings in single quotes have none; three quotes allow for
line breaks.

## Main definitions

* `Toml.readBasic?`, `Toml.readLiteral?`: strings on one line, after the opening quote
* `Toml.readLongBasic?`, `Toml.readLongLiteral?`: strings over lines, after the opening quotes
* `Toml.readString?`: any string
-/

set_option autoImplicit false

namespace SessionDirectory.Toml

/-- Whether a character may stand in a comment and, but for quotes, in a string. -/
def isPlain (c : Char) : Bool := c = '\t' || (0x20 ≤ c.toNat && c ≠ '\x7f')

/-- Whether a character is a blank within a line. -/
def isBlank (c : Char) : Bool := c = ' ' || c = '\t'

/-- The text after a line break: a line feed, or one after a carriage return. -/
def skipNewline? : List Char → Option (List Char)
  | '\n' :: rest => some rest
  | '\r' :: '\n' :: rest => some rest
  | _ => none

/-- The character of an escape with a number of digits in base sixteen. -/
def readCode? (width : Nat) (cs : List Char) : Option (Char × List Char) :=
  let ds := cs.take width
  if ds.length = width && ds.all (isDigitIn 16) then
    let code := valueIn 16 ds
    if h : code.isValidChar then some (Char.ofNatAux code h, cs.drop width) else none
  else none

/-- The character of an escape, after its backslash. -/
def readEscape? : List Char → Option (Char × List Char)
  | 'b' :: rest => some ('\x08', rest)
  | 't' :: rest => some ('\t', rest)
  | 'n' :: rest => some ('\n', rest)
  | 'f' :: rest => some ('\x0c', rest)
  | 'r' :: rest => some ('\r', rest)
  | '"' :: rest => some ('"', rest)
  | '\\' :: rest => some ('\\', rest)
  | 'u' :: rest => readCode? 4 rest
  | 'U' :: rest => readCode? 8 rest
  | _ => none

/-- Reads a string in double quotes; the characters read so far are held newest first. -/
def readBasic? : Nat → List Char → List Char → Option (String × List Char)
  | 0, _, _ => none
  | fuel + 1, done, cs =>
    match cs with
    | '"' :: rest => some (String.ofList done.reverse, rest)
    | '\\' :: rest => do
      let (c, rest) ← readEscape? rest
      readBasic? fuel (c :: done) rest
    | c :: rest => if isPlain c then readBasic? fuel (c :: done) rest else none
    | [] => none

/-- Reads a string in single quotes. -/
def readLiteral? (done : List Char) : List Char → Option (String × List Char)
  | '\'' :: rest => some (String.ofList done.reverse, rest)
  | c :: rest => if isPlain c then readLiteral? (c :: done) rest else none
  | [] => none

/-- The text after a backslash at the end of a line: the next that is no blank and no line break.
Nothing where the line goes on after the backslash. -/
def skipLineEnd? (cs : List Char) : Option (List Char) := do
  let rest ← skipNewline? (cs.dropWhile isBlank)
  return rest.dropWhile fun c => isBlank c || c = '\n' || c = '\r'

/-- Reads a string in three double quotes; up to two quotes may stand before the closing ones. -/
def readLongBasic? : Nat → List Char → List Char → Option (String × List Char)
  | 0, _, _ => none
  | fuel + 1, done, cs =>
    match cs with
    | '"' :: '"' :: '"' :: '"' :: '"' :: rest =>
      some (String.ofList ('"' :: '"' :: done).reverse, rest)
    | '"' :: '"' :: '"' :: '"' :: rest => some (String.ofList ('"' :: done).reverse, rest)
    | '"' :: '"' :: '"' :: rest => some (String.ofList done.reverse, rest)
    | '\\' :: rest =>
      match skipLineEnd? rest with
      | some rest => readLongBasic? fuel done rest
      | none => do
        let (c, rest) ← readEscape? rest
        readLongBasic? fuel (c :: done) rest
    | '\r' :: '\n' :: rest => readLongBasic? fuel ('\n' :: '\r' :: done) rest
    | c :: rest => if isPlain c || c = '\n' then readLongBasic? fuel (c :: done) rest else none
    | [] => none

/-- Reads a string in three single quotes; up to two quotes may stand before the closing ones. -/
def readLongLiteral? : Nat → List Char → List Char → Option (String × List Char)
  | 0, _, _ => none
  | fuel + 1, done, cs =>
    match cs with
    | '\'' :: '\'' :: '\'' :: '\'' :: '\'' :: rest =>
      some (String.ofList ('\'' :: '\'' :: done).reverse, rest)
    | '\'' :: '\'' :: '\'' :: '\'' :: rest => some (String.ofList ('\'' :: done).reverse, rest)
    | '\'' :: '\'' :: '\'' :: rest => some (String.ofList done.reverse, rest)
    | '\r' :: '\n' :: rest => readLongLiteral? fuel ('\n' :: '\r' :: done) rest
    | c :: rest => if isPlain c || c = '\n' then readLongLiteral? fuel (c :: done) rest else none
    | [] => none

/-- Reads a string on one line: a quoted key, or the short forms of a value. -/
def readShort? : List Char → Option (String × List Char)
  | '"' :: rest => readBasic? (rest.length + 1) [] rest
  | '\'' :: rest => readLiteral? [] rest
  | _ => none

/-- Reads a string of any form; a line break right after three opening quotes is dropped. -/
def readString? (cs : List Char) : Option (String × List Char) :=
  match cs with
  | '"' :: '"' :: '"' :: rest =>
    let rest := (skipNewline? rest).getD rest
    readLongBasic? (rest.length + 1) [] rest
  | '\'' :: '\'' :: '\'' :: rest =>
    let rest := (skipNewline? rest).getD rest
    readLongLiteral? (rest.length + 1) [] rest
  | cs => readShort? cs

end SessionDirectory.Toml
