/-!
# TOML values

The values of a TOML document. A table remembers how it came to be, because that decides whether a
later line may add to it.

## Main definitions

* `Toml.Value`: a value
* `Toml.TableOrigin`: how a table came to be
* `Toml.addMember?`, `Toml.openTable?`, `Toml.openElement?`: what a line of a document does
-/

set_option autoImplicit false

namespace SessionDirectory.Toml

/-- How a table came to be. -/
inductive TableOrigin where
  /-- Written between braces; it is complete. -/
  | inlined
  /-- Named on the way to the table of a header. -/
  | implied
  /-- Named on the way to the last part of a dotted key. -/
  | dotted
  /-- Opened by a header of its own. -/
  | header
  deriving DecidableEq, Repr

/-- A value. Numbers with a fraction and dates are only told apart, since none is ever used. -/
inductive Value where
  | string (s : String)
  | integer (n : Int)
  | real
  | boolean (b : Bool)
  | dateTime
  | array (items : List Value)
  /-- The tables opened by headers in double brackets, newest first. -/
  | tables (elements : List Value)
  | table (origin : TableOrigin) (members : List (String × Value))
  deriving Inhabited

/-- Members of a table, in the order of the document. -/
abbrev Members := List (String × Value)

/-- The value of a key. -/
def find? (key : String) (members : Members) : Option Value :=
  (members.find? fun m => m.1 = key).map (·.2)

/-- Gives a key another value, or a first one at the end. -/
def put (key : String) (v : Value) : Members → Members
  | [] => [(key, v)]
  | m :: rest => if m.1 = key then (key, v) :: rest else m :: put key v rest

/-- Adds a value under a dotted key. The table it goes to must be made by dotted keys, those on
the way there may also be implied by headers; the last part must be new. -/
def addMember? (path : List String) (key : String) (v : Value) (members : Members) :
    Option Members :=
  match path with
  | [] => if (find? key members).isNone then some (members ++ [(key, v)]) else none
  | part :: path =>
    match find? part members with
    | none => do
      let inner ← addMember? path key v []
      return members ++ [(part, .table .dotted inner)]
    | some (.table .dotted inner) => do
      let inner ← addMember? path key v inner
      return put part (.table .dotted inner) members
    | some (.table .implied inner) => do
      if path.isEmpty then none
      let inner ← addMember? path key v inner
      return put part (.table .implied inner) members
    | some _ => none

/-- Applies a change to the table at a path of headers, making the tables that are missing; of a
list of tables the newest one is meant. -/
def atTable? (change : Members → Option Members) : List String → Members → Option Members
  | [], members => change members
  | part :: path, members =>
    match find? part members with
    | none => do
      let inner ← atTable? change path []
      return members ++ [(part, .table .implied inner)]
    | some (.table .inlined _) => none
    | some (.table origin inner) => do
      let inner ← atTable? change path inner
      return put part (.table origin inner) members
    | some (.tables (.table origin newest :: older)) => do
      let newest ← atTable? change path newest
      return put part (.tables (.table origin newest :: older)) members
    | some _ => none

/-- Opens the table of a header: a new one, or one that was only implied so far. -/
def openTable? (path : List String) (key : String) (members : Members) : Option Members :=
  atTable? (fun members =>
    match find? key members with
    | none => some (members ++ [(key, .table .header [])])
    | some (.table .implied inner) => some (put key (.table .header inner) members)
    | some _ => none) path members

/-- Opens the next table of the list of a header in double brackets. -/
def openElement? (path : List String) (key : String) (members : Members) : Option Members :=
  atTable? (fun members =>
    match find? key members with
    | none => some (members ++ [(key, .tables [.table .header []])])
    | some (.tables elements) => some (put key (.tables (.table .header [] :: elements)) members)
    | some _ => none) path members

end SessionDirectory.Toml
