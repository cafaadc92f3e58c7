import SessionDirectory.Json.Read
import SessionDirectory.Text.Blank

/-!
# Update fields

The fields of a listing that a refresh changes. A field that is absent stays as it is; the empty
set only extends the lease.

## Main definitions

* `UpdateFields`: field values by name
* `UpdateFields.mergedWith`: the union in which the overrides win
* `UpdateFields.requestBody`: the body of a refresh
* `UpdateOverrides.toFields`: the fields given on the command line
-/

set_option autoImplicit false

namespace SessionDirectory

open Json (Raw Value Error)

/-- Field values by name. -/
abbrev UpdateFields := SortedMap String Value

namespace UpdateFields

/-- Sets the title. -/
def withTitle (f : UpdateFields) (title : String) : UpdateFields :=
  f.insert "title" (.string title)

/-- Sets the number of users. -/
def withUsers (f : UpdateFields) (users : UInt32) : UpdateFields :=
  f.insert "users" (.number (.integer (.ofUInt32 users)))

/-- Sets the user names. -/
def withUsernames (f : UpdateFields) (names : List String) : UpdateFields :=
  f.insert "usernames" (Value.ofStrings names)

/-- Sets the tag. -/
def withNsfm (f : UpdateFields) (nsfm : Bool) : UpdateFields := f.insert "nsfm" (.bool nsfm)

/-- Sets whether a password is needed. -/
def withPassword (f : UpdateFields) (password : Bool) : UpdateFields :=
  f.insert "password" (.bool password)

/-- The union of two field sets, in which the overrides win. -/
def mergedWith (f overrides : UpdateFields) : UpdateFields := f.merge overrides

/-- The fields as JSON. -/
def toJson (f : UpdateFields) : Value := .object f.entries

/-- The body of a refresh, its members sorted. -/
def requestBody (f : UpdateFields) : Value := f.toJson.sortKeys

/-- Reads field values from an object, of which at most `depth` levels of containers may be
opened; of several members of one name the last one counts. -/
def read (depth : Nat) : Raw → Except Error UpdateFields
  | .object members =>
    match depth with
    | 0 => .error .tooDeep
    | depth + 1 => (Raw.valueMembers depth members).map SortedMap.ofList
  | _ => .error (.mismatch "an object")

/-- Reads the text of a field set. -/
def parse (s : String) : Except Error UpdateFields := Raw.parse s >>= read Json.maxDepth

end UpdateFields

/-- Field values given on the command line. -/
structure UpdateOverrides where
  title : Option String := none
  users : Option UInt32 := none
  usernames : Option String := none
  nsfm : Option String := none
  password : Option String := none
  deriving DecidableEq

namespace UpdateOverrides

/-- The names in a list separated by commas, without the blanks around them and without empty
ones. -/
def splitNames (s : String) : List String :=
  (((Text.split ',' s.toList).map Text.trim).filter fun name => !name.isEmpty).map String.ofList

/-- The fields given; a flag is true for the word `true` only. -/
def toFields (o : UpdateOverrides) : UpdateFields :=
  let fields : UpdateFields := SortedMap.empty
  let fields := match o.nsfm with
    | some nsfm => fields.withNsfm (nsfm == "true")
    | none => fields
  let fields := match o.password with
    | some password => fields.withPassword (password == "true")
    | none => fields
  let fields := match o.title with
    | some title => fields.withTitle title
    | none => fields
  let fields := match o.users with
    | some users => fields.withUsers users
    | none => fields
  match o.usernames with
  | some names => fields.withUsernames (splitNames names)
  | none => fields

end UpdateOverrides

end SessionDirectory
