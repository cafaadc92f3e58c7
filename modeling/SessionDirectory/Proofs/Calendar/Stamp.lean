import SessionDirectory.Calendar.Instant
import SessionDirectory.Proofs.Calendar.Date
import SessionDirectory.Proofs.Decimal

/-!
# Time stamps are read as written

A time of the calendar is a date, an hour, a minute and a second, and every second is exactly one of
them. Written as `YYYY-MM-DDTHH:MM:SSZ` it is read back as the second that it is. What is written in
the same form but names no date or no time of day is not read.

## Main definitions

* `Calendar.CivilTime`: a time of the calendar
* `Calendar.stampOf`: how a date and a time of day are written
* `Calendar.NamesTime`: there are such a date and such a time of day

## Main results

* `Calendar.CivilTime.unixSeconds_injective`, `Calendar.CivilTime.exists_unixSeconds_eq`: every
  second is exactly one time of the calendar
* `Calendar.Instant.parse?_stampOf`: what is written field by field is read field by field
* `Calendar.Instant.parse?_stamp`: a time of the calendar is read as its second
* `Calendar.Instant.parse?_stampOf_eq_none_iff`: the stamps that are not read name no time
-/

set_option autoImplicit false

namespace SessionDirectory.Calendar

/-! ## Times of the calendar -/

/-- A time of the calendar. -/
structure CivilTime where
  date : Date
  hour : Nat
  minute : Nat
  second : Nat
  hour_lt : hour < 24
  minute_lt : minute < 60
  second_lt : second < 60

namespace CivilTime

/-- The seconds since the start of the day. -/
def secondOfDay (t : CivilTime) : Nat := 3600 * t.hour + 60 * t.minute + t.second

/-- The seconds since the start of 1970. -/
def unixSeconds (t : CivilTime) : Int := 86400 * t.date.dayNumber + t.secondOfDay

theorem secondOfDay_lt (t : CivilTime) : t.secondOfDay < 86400 := by
  have hour := t.hour_lt
  have minute := t.minute_lt
  have second := t.second_lt
  rw [secondOfDay]
  omega

/-- Two times are different seconds. -/
theorem unixSeconds_injective {t t' : CivilTime} (same : t.unixSeconds = t'.unixSeconds) :
    t = t' := by
  have lt := t.secondOfDay_lt
  have lt' := t'.secondOfDay_lt
  rw [unixSeconds, unixSeconds] at same
  have day : t.date = t'.date := Date.dayNumber_injective (by omega)
  have clock : t.secondOfDay = t'.secondOfDay := by rw [day] at same; omega
  obtain ⟨date, hour, minute, second, _, _, _⟩ := t
  obtain ⟨date', hour', minute', second', _, _, _⟩ := t'
  simp only [secondOfDay] at clock
  obtain rfl : date = date' := day
  obtain rfl : hour = hour' := by omega
  obtain rfl : minute = minute' := by omega
  obtain rfl : second = second' := by omega
  rfl

/-- **Every second is a time of the calendar.** -/
theorem exists_unixSeconds_eq (s : Int) : ∃ t : CivilTime, t.unixSeconds = s := by
  obtain ⟨date, number⟩ := Date.exists_dayNumber_eq (s / 86400)
  -- The rest of the day is split into hours, minutes and seconds.
  let clock := (s % 86400).toNat
  have lt : clock < 86400 := by omega
  refine ⟨⟨date, clock / 3600, clock / 60 % 60, clock % 60, by omega, by omega, by omega⟩, ?_⟩
  simp only [unixSeconds, secondOfDay, number]
  omega

/-- The instant of a time is its day and its second of the day. -/
theorem ofUnix_unixSeconds (t : CivilTime) :
    Instant.ofUnix t.unixSeconds 0 = ⟨t.date.dayNumber, t.secondOfDay, 0⟩ := by
  have lt := t.secondOfDay_lt
  have day : t.unixSeconds / 86400 = t.date.dayNumber := by rw [unixSeconds]; omega
  have second : (t.unixSeconds % 86400).toNat = t.secondOfDay := by rw [unixSeconds]; omega
  rw [Instant.ofUnix, day, second]

end CivilTime

/-! ## Stamps -/

/-- How a date and a time of day are written. -/
def stampOf (year month day hour minute second : Nat) : String :=
  String.ofList (Decimal.padded 4 year ++ '-' :: (Decimal.padded 2 month ++ '-' ::
    (Decimal.padded 2 day ++ 'T' :: (Decimal.padded 2 hour ++ ':' ::
      (Decimal.padded 2 minute ++ ':' :: (Decimal.padded 2 second ++ ['Z']))))))

example : stampOf 2024 1 31 9 30 0 = "2024-01-31T09:30:00Z" := by decide

/-- How a time of the calendar is written, from the year 0 on. -/
def CivilTime.stamp (t : CivilTime) : String :=
  stampOf t.date.year.toNat t.date.month t.date.day t.hour t.minute t.second

/-- There are such a date and such a time of day; second 60 is a leap second. -/
def NamesTime (year : Int) (month day hour minute second : Nat) : Prop :=
  ((1 ≤ month ∧ month ≤ 12) ∧ 1 ≤ day ∧ day ≤ daysInMonth year month) ∧
    hour < 24 ∧ minute < 60 ∧ second ≤ 60

instance (year : Int) (month day hour minute second : Nat) :
    Decidable (NamesTime year month day hour minute second) :=
  inferInstanceAs (Decidable (_ ∧ _))

example : NamesTime 2024 2 29 0 0 0 ∧ ¬ NamesTime 2023 2 29 0 0 0 ∧ ¬ NamesTime 2024 2 30 0 0 0 ∧
    ¬ NamesTime 2024 13 1 0 0 0 ∧ ¬ NamesTime 2024 1 1 24 0 0 := by decide

namespace Instant

variable {year month day hour minute second : Nat}

/-- A number that is filled up with zeros starts with a digit. -/
theorem exists_padded_eq_cons (width n : Nat) :
    ∃ d ds, Decimal.padded width n = d :: ds ∧ d.isDigit = true := by
  have nonempty : Decimal.padded width n ≠ [] :=
    List.append_ne_nil_of_right_ne_nil _ Nat.toDigits_ne_nil
  obtain ⟨d, ds, first⟩ := List.exists_cons_of_ne_nil nonempty
  exact ⟨d, ds, first, Decimal.isDigit_of_mem_padded (by rw [first]; exact List.mem_cons_self)⟩

theorem trimStart_padded (width n : Nat) (rest : List Char) :
    Text.trimStart (Decimal.padded width n ++ rest) = Decimal.padded width n ++ rest := by
  obtain ⟨d, ds, first, digit⟩ := exists_padded_eq_cons width n
  have visible := Text.isBlank_eq_false_of_isDigit digit
  rw [Text.trimStart, first, List.cons_append, List.dropWhile_cons_of_neg (by simp [visible])]

/-- A number that is written with all of its digits is read up to what stands behind it. -/
theorem readNumber?_padded {width n : Nat} (room : (Decimal.digits n).length ≤ width)
    (rest : List Char) :
    readNumber? width (Decimal.padded width n ++ rest) = some (n, rest) := by
  have length := Decimal.length_padded room
  have digits : ∀ d ∈ Decimal.padded width n, d.isDigit = true :=
    fun _ => Decimal.isDigit_of_mem_padded
  -- All of the digits that may be taken are there, so nothing behind them is looked at.
  have whole : (Decimal.padded width n ++ []).takeWhile Char.isDigit =
      Decimal.padded width n ++ [] := List.takeWhile_append_of_pos digits
  have nonempty : (Decimal.padded width n).isEmpty = false := by
    obtain ⟨d, ds, first, -⟩ := exists_padded_eq_cons width n
    rw [first]
    rfl
  rw [List.append_nil] at whole
  simp only [readNumber?, trimStart_padded, List.take_left' length, whole, nonempty,
    Decimal.valueOf_padded, List.drop_left]
  rfl

/-- A year without a sign is read like any other number. -/
theorem readYear?_padded (lt : year < 10000) (rest : List Char) :
    readYear? (Decimal.padded 4 year ++ rest) = some ((year : Int), rest) := by
  have number := readNumber?_padded (Decimal.length_digits_le_four lt) rest
  obtain ⟨d, ds, first, digit⟩ := exists_padded_eq_cons 4 year
  rw [readYear?, trimStart_padded]
  rw [first, List.cons_append] at number ⊢
  -- A digit is no sign.
  split
  next same => cases same; cases digit
  next same => cases same; cases digit
  next =>
    rw [number]
    rfl

theorem expect?_cons (c : Char) (rest : List Char) : expect? c (c :: rest) = some rest := if_pos rfl

/-- **What is written field by field is read field by field.** -/
theorem parse?_stampOf (year_lt : year < 10000) (month_lt : month < 100) (day_lt : day < 100)
    (hour_lt : hour < 100) (minute_lt : minute < 100) (second_lt : second < 100) :
    parse? (stampOf year month day hour minute second) =
      of? year month day hour minute second := by
  have field : ∀ {n : Nat}, n < 100 → ∀ rest,
      readNumber? 2 (Decimal.padded 2 n ++ rest) = some (n, rest) :=
    fun lt rest => readNumber?_padded (Decimal.length_digits_le_two lt) rest
  simp only [parse?, stampOf, String.toList_ofList, readYear?_padded year_lt, field month_lt,
    field day_lt, field hour_lt, field minute_lt, field second_lt, expect?_cons,
    Option.bind_eq_bind, Option.bind_some]
  rfl

/-- A time of day is checked after its date. -/
theorem of?_eq_bind {y : Int} (years : ¬ (y < leastYear ∨ greatestYear < y)) :
    of? y month day hour minute second = (Date.of? y month day).bind fun date =>
      if 24 ≤ hour ∨ 60 ≤ minute ∨ 61 ≤ second then none
      else if second = 60 then some ⟨date.dayNumber, 3600 * hour + 60 * minute + 59, perSecond⟩
      else some ⟨date.dayNumber, 3600 * hour + 60 * minute + second, 0⟩ := by
  rw [of?]
  show (if _ then _ else _) = _
  rw [if_neg years]
  rfl

/-- The years of four digits can be written. -/
theorem year_within (lt : year < 10000) :
    ¬ ((year : Int) < leastYear ∨ greatestYear < (year : Int)) := by
  rw [leastYear, greatestYear]
  omega

/-- **A time of the calendar is read as its second.** -/
theorem parse?_stamp {t : CivilTime} (nonneg : 0 ≤ t.date.year) (le : t.date.year ≤ 9999) :
    parse? t.stamp = some (ofUnix t.unixSeconds 0) := by
  have month := t.date.month_le
  have day : t.date.day ≤ 31 := Nat.le_trans t.date.day_le (daysInMonth_le _ _)
  have hour := t.hour_lt
  have minute := t.minute_lt
  have second := t.second_lt
  have year_lt : t.date.year.toNat < 10000 := by omega
  have exact : Date.of? t.date.year.toNat t.date.month t.date.day = some t.date := by
    rw [Int.toNat_of_nonneg nonneg]
    exact Date.of?_self t.date
  rw [CivilTime.stamp, parse?_stampOf year_lt (by omega) (by omega) (by omega) (by omega)
    (by omega), of?_eq_bind (year_within year_lt), exact, Option.bind_some, if_neg (by omega),
    if_neg (by omega), t.ofUnix_unixSeconds]
  rfl

/-- **The stamps that are not read** name no date or no time of day. -/
theorem parse?_stampOf_eq_none_iff (year_lt : year < 10000) (month_lt : month < 100)
    (day_lt : day < 100) (hour_lt : hour < 100) (minute_lt : minute < 100)
    (second_lt : second < 100) : parse? (stampOf year month day hour minute second) = none ↔
      ¬ NamesTime year month day hour minute second := by
  rw [parse?_stampOf year_lt month_lt day_lt hour_lt minute_lt second_lt,
    of?_eq_bind (year_within year_lt), Date.of?, NamesTime]
  split
  next date =>
    rw [and_iff_right date, Option.bind_some]
    split
    next bad => exact iff_of_true rfl (by omega)
    next good =>
      refine iff_of_false ?_ (by omega)
      split <;> exact Option.some_ne_none _
  next noDate => exact iff_of_true rfl fun both => noDate both.1

end Instant

end SessionDirectory.Calendar
