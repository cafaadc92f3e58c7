import SessionDirectory.Calendar.Date
import SessionDirectory.Decimal.Numeral
import SessionDirectory.Text.Blank

/-!
# Instants

Points in time of the UTC calendar, down to nanoseconds. A leap second is written as second 60; it
is held as second 59 with a fraction of one second or more.

## Main definitions

* `Calendar.Instant`: a day, a second of the day and a fraction
* `Calendar.Instant.parse?`: reads `YYYY-MM-DDTHH:MM:SSZ`
* `Calendar.Instant.nanosecondsSince`: the time between two instants
* `Calendar.Instant.unixSeconds`: whole seconds since 1970
-/

set_option autoImplicit false

namespace SessionDirectory.Calendar

/-- A point in time. -/
structure Instant where
  /-- Days since 1 January 1970. -/
  day : Int
  /-- Seconds since the start of the day. -/
  second : Nat
  /-- Nanoseconds since the start of the second; one second or more in a leap second. -/
  fraction : Nat
  deriving DecidableEq, Repr

namespace Instant

/-- Nanoseconds in a second. -/
def perSecond : Nat := 1000000000

/-- The instant a number of seconds and nanoseconds after the start of 1970. -/
def ofUnix (seconds : Int) (nanoseconds : Nat) : Instant :=
  ⟨seconds / 86400, (seconds % 86400).toNat, nanoseconds⟩

/-- Whole seconds since the start of 1970; a leap second counts as the second before it. -/
def unixSeconds (t : Instant) : Int := 86400 * t.day + t.second

/-- The nanoseconds from `start` to `t`. A leap second at `start` counts where the time of day of
`t` is later, one at `t` where the time of day of `start` is later. -/
def nanosecondsSince (t start : Instant) : Int :=
  let leap : Int :=
    if start.second < t.second ∧ perSecond ≤ start.fraction then 1
    else if t.second < start.second ∧ perSecond ≤ t.fraction then -1
    else 0
  perSecond * (t.unixSeconds - start.unixSeconds + leap) + (t.fraction - start.fraction : Int)

/-- Reads one to `most` digits, after any blanks. -/
def readNumber? (most : Nat) (cs : List Char) : Option (Nat × List Char) :=
  let cs := Text.trimStart cs
  let ds := (cs.take most).takeWhile Char.isDigit
  if ds.isEmpty then none else some (Decimal.valueOf ds, cs.drop ds.length)

/-- Reads a year, after any blanks: up to four digits, or any number of them after a sign. -/
def readYear? (cs : List Char) : Option (Int × List Char) :=
  match Text.trimStart cs with
  | '-' :: rest => do
    let ds := rest.takeWhile Char.isDigit
    if ds.isEmpty then none else some (-(Decimal.valueOf ds : Int), rest.drop ds.length)
  | '+' :: rest => do
    let ds := rest.takeWhile Char.isDigit
    if ds.isEmpty then none else some ((Decimal.valueOf ds : Int), rest.drop ds.length)
  | rest => (readNumber? 4 rest).map fun (n, rest) => (n, rest)

/-- Reads one given character. -/
def expect? (c : Char) : List Char → Option (List Char)
  | [] => none
  | d :: rest => if c = d then some rest else none

/-- The years that can be written. -/
def leastYear : Int := -262143

/-- The last year that can be written. -/
def greatestYear : Int := 262142

/-- The instant of a date and a time of day, if there are such; second 60 is a leap second. -/
def of? (year : Int) (month day hour minute second : Nat) : Option Instant := do
  if year < leastYear ∨ greatestYear < year then none
  let date ← Date.of? year month day
  if 24 ≤ hour ∨ 60 ≤ minute ∨ 61 ≤ second then none
  let base := 3600 * hour + 60 * minute
  if second = 60 then some ⟨date.dayNumber, base + 59, perSecond⟩
  else some ⟨date.dayNumber, base + second, 0⟩

/-- Reads a time stamp such as `2024-01-31T09:30:00Z`. -/
def parse? (s : String) : Option Instant := do
  let (year, rest) ← readYear? s.toList
  let rest ← expect? '-' rest
  let (month, rest) ← readNumber? 2 rest
  let rest ← expect? '-' rest
  let (day, rest) ← readNumber? 2 rest
  let rest ← expect? 'T' rest
  let (hour, rest) ← readNumber? 2 rest
  let rest ← expect? ':' rest
  let (minute, rest) ← readNumber? 2 rest
  let rest ← expect? ':' rest
  let (second, rest) ← readNumber? 2 rest
  let rest ← expect? 'Z' rest
  if rest.isEmpty then of? year month day hour minute second else none

end Instant

end SessionDirectory.Calendar
