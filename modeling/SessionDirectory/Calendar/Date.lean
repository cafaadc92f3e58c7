/-!
# Calendar dates

Dates of the proleptic Gregorian calendar and their distance in days from 1 January 1970.

## Main definitions

* `Calendar.isLeap`, `Calendar.daysInMonth`: the rules of the calendar
* `Calendar.Date`: a year, a month and a day that name an actual date
* `Calendar.Date.dayNumber`: days since 1 January 1970
-/

set_option autoImplicit false

namespace SessionDirectory.Calendar

/-- Leap years: every fourth year, but of the centuries only every fourth. -/
def isLeap (year : Int) : Bool := year % 4 = 0 && (year % 100 ≠ 0 || year % 400 = 0)

/-- The number of days of a month. -/
def daysInMonth (year : Int) : Nat → Nat
  | 2 => if isLeap year then 29 else 28
  | 4 | 6 | 9 | 11 => 30
  | _ => 31

/-- A date of the calendar. -/
structure Date where
  year : Int
  month : Nat
  day : Nat
  month_pos : 1 ≤ month
  month_le : month ≤ 12
  day_pos : 1 ≤ day
  day_le : day ≤ daysInMonth year month
  deriving DecidableEq

/-- The date of a year, a month and a day, if there is one. -/
def Date.of? (year : Int) (month day : Nat) : Option Date :=
  if h : (1 ≤ month ∧ month ≤ 12) ∧ 1 ≤ day ∧ day ≤ daysInMonth year month then
    some ⟨year, month, day, h.1.1, h.1.2, h.2.1, h.2.2⟩
  else none

/-- The days before the first day of a year, counted from 1 January of the year 1. -/
def daysBeforeYear (year : Int) : Int :=
  let n := year - 1
  365 * n + n / 4 - n / 100 + n / 400

/-- The days of a year before its given month. -/
def daysBeforeMonth (year : Int) (month : Nat) : Nat :=
  ((List.range (month - 1)).map fun m => daysInMonth year (m + 1)).foldl (· + ·) 0

/-- The day number of 1 January 1970, counted from 1 January of the year 1. -/
def epoch : Int := 719162

/-- The days from 1 January 1970 to the date. -/
def Date.dayNumber (d : Date) : Int :=
  daysBeforeYear d.year - epoch + daysBeforeMonth d.year d.month + (d.day - 1 : Nat)

end SessionDirectory.Calendar
