import SessionDirectory.Listing.Record

/-!
# The table of sessions

Sessions in columns of equal width, counted in characters.

## Main definitions

* `SessionRecord.ageText`: how long a session has been going on
* `Table.rows`: the cells of the table
* `Table.render`: the table as text
-/

set_option autoImplicit false

namespace SessionDirectory

open Calendar (Instant)

/-- Whole minutes from `start` to `now`, none if `start` is later. -/
def minutesSince (now start : Instant) : Nat :=
  (now.nanosecondsSince start).toNat / (60 * Instant.perSecond)

/-- Hours and minutes, the minutes with two digits. -/
def hoursText (minutes : Nat) : String :=
  String.ofList (Decimal.digits (minutes / 60) ++ ':' :: Decimal.padded 2 (minutes % 60))

/-- How long the session has been going on, or a question mark where that is unknown. -/
def SessionRecord.ageText (r : SessionRecord) (now : Instant) : String :=
  match r.startedAt? with
  | some start => hoursText (minutesSince now start)
  | none => "?"

namespace Table

/-- The column headers. -/
def headers : List String := ["Host", "Port", "Id", "Room", "Owner", "Users", "⚑", "Title", "Age"]

/-- What stands between two columns. -/
def separator : List Char := [' ', '│', ' ']

/-- Marks of a session: with a password, or not suitable for minors. -/
def flags (r : SessionRecord) : String :=
  (if r.password then "P" else "") ++ (if r.nsfm then "X" else "")

/-- The cells of a session. -/
def cells (now : Instant) (r : SessionRecord) : List String :=
  [r.host, Decimal.text r.port.toNat, r.id, r.roomcode.getD "", r.owner,
    Decimal.text r.users.toNat, flags r, r.title, r.ageText now]

/-- The widths of the columns: those of the widest cells. -/
def widths (rows : List (List String)) : List Nat :=
  rows.foldl (fun ws row => List.zipWith max ws (row.map String.length))
    (headers.map String.length)

/-- A cell filled up with blanks on the right. -/
def pad (width : Nat) (cell : String) : List Char :=
  cell.toList ++ List.replicate (width - cell.length) ' '

/-- The cells of a row side by side, without the blanks at its end. -/
def renderRow (ws : List Nat) (row : List String) : List Char :=
  Text.trimEnd (separator.intercalate (List.zipWith pad ws row))

/-- The rule under the headers. -/
def rule (ws : List Nat) : List Char := List.replicate (ws.foldl (· + ·) 0 + 3 * (ws.length - 1)) '─'

/-- The rows of the table: headers, rule, and a row for each session. -/
def rows (now : Instant) (records : List SessionRecord) : List (List Char) :=
  let body := records.map (cells now)
  let ws := widths body
  renderRow ws headers :: rule ws :: body.map (renderRow ws)

/-- The table as text. -/
def render (now : Instant) (records : List SessionRecord) : String :=
  if records.isEmpty then "(no sessions listed)\n"
  else String.ofList ((rows now records).flatMap fun row => row ++ ['\n'])

end Table

end SessionDirectory
