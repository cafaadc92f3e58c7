import SessionDirectory.Calendar.Date

/-!
# Days are numbered one after the other

The number of a date is a closed formula. It is 0 on 1 January 1970 and grows by one from each date
to the next one, where months and years end as the calendar has it. So every whole number is the
number of exactly one date, before 1970 as well.

## Main definitions

* `Calendar.Date.next`: the date of the next day
* `Calendar.Date.NumbersDays`: dates are numbered one after the other

## Main results

* `Calendar.Date.dayNumber_next`: the number of the next day is the next number
* `Calendar.Date.dayNumber_injective`, `Calendar.Date.exists_dayNumber_eq`: every number is that of
  exactly one date
-/

set_option autoImplicit false

namespace SessionDirectory.Calendar

variable {year year' : Int} {month month' : Nat}

/-! ## Years and months -/

/-- The number of days of a year. -/
def daysInYear (year : Int) : Nat := if isLeap year then 366 else 365

theorem isLeap_iff : isLeap year = true ↔
    year % 4 = 0 ∧ (year % 100 ≠ 0 ∨ year % 400 = 0) := by
  simp [isLeap]

theorem daysBeforeYear_succ (year : Int) :
    daysBeforeYear (year + 1) = daysBeforeYear year + daysInYear year := by
  rw [daysBeforeYear, daysBeforeYear, daysInYear]
  split
  next leap =>
    rw [isLeap_iff] at leap
    omega
  next common =>
    rw [isLeap_iff] at common
    omega

theorem daysBeforeYear_le (le : year ≤ year') : daysBeforeYear year ≤ daysBeforeYear year' := by
  rw [daysBeforeYear, daysBeforeYear]
  omega

theorem one_le_daysInMonth (year : Int) (month : Nat) : 1 ≤ daysInMonth year month := by
  unfold daysInMonth
  split
  · split <;> decide
  all_goals decide

theorem daysInMonth_le (year : Int) (month : Nat) : daysInMonth year month ≤ 31 := by
  unfold daysInMonth
  split
  · split <;> decide
  all_goals decide

theorem daysBeforeMonth_succ (year : Int) (pos : 1 ≤ month) :
    daysBeforeMonth year (month + 1) = daysBeforeMonth year month + daysInMonth year month := by
  obtain ⟨m, rfl⟩ := Nat.exists_eq_add_of_le' pos
  simp [daysBeforeMonth, List.range_succ]

theorem daysBeforeMonth_le (year : Int) (pos : 1 ≤ month) (le : month ≤ month') :
    daysBeforeMonth year month ≤ daysBeforeMonth year month' := by
  induction le with
  | refl => exact Nat.le_refl _
  | step le ih =>
    rw [daysBeforeMonth_succ year (Nat.le_trans pos le)]
    exact Nat.le_trans ih (Nat.le_add_right _ _)

/-- Twelve months are a year. -/
theorem daysBeforeMonth_thirteen (year : Int) : daysBeforeMonth year 13 = daysInYear year := by
  cases leap : isLeap year <;>
    simp [daysBeforeMonth, daysInMonth, daysInYear, leap, List.range_succ]

/-! ## Dates -/

namespace Date

/-- A date is the date of its year, its month and its day. -/
theorem of?_self (d : Date) : of? d.year d.month d.day = some d :=
  dif_pos ⟨⟨d.month_pos, d.month_le⟩, d.day_pos, d.day_le⟩

/-- The first day of a year. -/
def newYear (year : Int) : Date :=
  ⟨year, 1, 1, Nat.le_refl 1, by decide, Nat.le_refl 1, one_le_daysInMonth year 1⟩

/-- The date of the next day. -/
def next (d : Date) : Date :=
  if goesOn : d.day < daysInMonth d.year d.month then
    ⟨d.year, d.month, d.day + 1, d.month_pos, d.month_le, Nat.succ_pos _, goesOn⟩
  else if goesOn : d.month < 12 then
    ⟨d.year, d.month + 1, 1, Nat.succ_pos _, goesOn, Nat.le_refl 1, one_le_daysInMonth _ _⟩
  else newYear (d.year + 1)

theorem dayNumber_newYear (year : Int) :
    (newYear year).dayNumber = daysBeforeYear year - epoch := by
  show daysBeforeYear year - epoch + daysBeforeMonth year 1 + ((1 - 1 : Nat) : Int) = _
  simp [daysBeforeMonth]

/-- **The number of the next day is the next number.** -/
theorem dayNumber_next (d : Date) : d.next.dayNumber = d.dayNumber + 1 := by
  have pos := d.day_pos
  have le := d.day_le
  have months := daysBeforeMonth_succ d.year d.month_pos
  unfold next
  split
  next goesOn =>
    simp only [dayNumber]
    omega
  next ends =>
    -- The month ends, and perhaps the year.
    split
    next goesOn =>
      simp only [dayNumber]
      omega
    next yearEnds =>
      have last : d.month = 12 := Nat.le_antisymm d.month_le (Nat.le_of_not_lt yearEnds)
      have months : daysBeforeMonth d.year 13 = daysBeforeMonth d.year 12 + daysInMonth d.year 12 :=
        daysBeforeMonth_succ d.year (by decide)
      have year := daysBeforeMonth_thirteen d.year
      have years := daysBeforeYear_succ d.year
      rw [dayNumber_newYear]
      simp only [dayNumber, last] at le ends ⊢
      omega

/-- A later year has later days. -/
theorem dayNumber_lt_of_year_lt {d d' : Date} (lt : d.year < d'.year) :
    d.dayNumber < d'.dayNumber := by
  -- The day is within its month, the month is within its year, and the other year is later.
  have pos := d.day_pos
  have le := d.day_le
  have months := daysBeforeMonth_succ d.year d.month_pos
  have rest : daysBeforeMonth d.year (d.month + 1) ≤ daysBeforeMonth d.year 13 :=
    daysBeforeMonth_le d.year (Nat.succ_pos _) (Nat.succ_le_succ d.month_le)
  have year := daysBeforeMonth_thirteen d.year
  have years := daysBeforeYear_succ d.year
  have later := daysBeforeYear_le (show d.year + 1 ≤ d'.year from lt)
  simp only [dayNumber]
  omega

/-- A later month of the same year has later days. -/
theorem dayNumber_lt_of_month_lt {d d' : Date} (year : d.year = d'.year) (lt : d.month < d'.month) :
    d.dayNumber < d'.dayNumber := by
  have pos := d.day_pos
  have le := d.day_le
  have months := daysBeforeMonth_succ d.year d.month_pos
  have later : daysBeforeMonth d.year (d.month + 1) ≤ daysBeforeMonth d.year d'.month :=
    daysBeforeMonth_le d.year (Nat.succ_pos _) lt
  simp only [dayNumber, ← year]
  omega

/-- Two dates have different numbers. -/
theorem dayNumber_injective {d d' : Date} (same : d.dayNumber = d'.dayNumber) : d = d' := by
  have year : d.year = d'.year := by
    rcases Int.lt_trichotomy d.year d'.year with lt | eq | lt
    · exact absurd same (Int.ne_of_lt (dayNumber_lt_of_year_lt lt))
    · exact eq
    · exact absurd same.symm (Int.ne_of_lt (dayNumber_lt_of_year_lt lt))
  have month : d.month = d'.month := by
    rcases Nat.lt_trichotomy d.month d'.month with lt | eq | lt
    · exact absurd same (Int.ne_of_lt (dayNumber_lt_of_month_lt year lt))
    · exact eq
    · exact absurd same.symm (Int.ne_of_lt (dayNumber_lt_of_month_lt year.symm lt))
  obtain ⟨year₁, month₁, day₁, _, _, pos₁, _⟩ := d
  obtain ⟨year₂, month₂, day₂, _, _, pos₂, _⟩ := d'
  obtain rfl : year₁ = year₂ := year
  obtain rfl : month₁ = month₂ := month
  obtain rfl : day₁ = day₂ := by
    simp only [dayNumber] at same
    omega
  rfl

/-- The days after a date are dates. -/
theorem exists_dayNumber_eq_add (d : Date) (n : Nat) :
    ∃ d' : Date, d'.dayNumber = d.dayNumber + n := by
  induction n with
  | zero => exact ⟨d, (Int.add_zero _).symm⟩
  | succ n ih =>
    obtain ⟨d', number⟩ := ih
    exact ⟨d'.next, by rw [dayNumber_next, number]; omega⟩

/-- **Every number is that of a date.** -/
theorem exists_dayNumber_eq (n : Int) : ∃ d : Date, d.dayNumber = n := by
  -- The first day of some year before it comes earlier.
  have early : (newYear (min n 0)).dayNumber ≤ n := by
    rw [dayNumber_newYear, daysBeforeYear, epoch]
    omega
  obtain ⟨d, number⟩ := exists_dayNumber_eq_add (newYear (min n 0))
    (n - (newYear (min n 0)).dayNumber).toNat
  exact ⟨d, by rw [number]; omega⟩

/-- **Dates are numbered one after the other**, from 1 January 1970 in both directions. -/
structure NumbersDays : Prop where
  epoch : (newYear 1970).dayNumber = 0
  next : ∀ d : Date, d.next.dayNumber = d.dayNumber + 1
  each : ∀ n : Int, ∃ d : Date, d.dayNumber = n ∧ ∀ d' : Date, d'.dayNumber = n → d' = d

theorem numbersDays : NumbersDays where
  epoch := rfl
  next := dayNumber_next
  each n := by
    obtain ⟨d, number⟩ := exists_dayNumber_eq n
    exact ⟨d, number, fun d' number' => dayNumber_injective (number'.trans number.symm)⟩

end Date

end SessionDirectory.Calendar
