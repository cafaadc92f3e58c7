import SessionDirectory.Table
import SessionDirectory.Proofs.Calendar.Stamp

/-!
# The age of a session

The age of a session is the time since it started in hours and whole minutes. A start that is
written as a time of the calendar is read as its second, so the age is counted from there: it never
decreases, over leap seconds as well, and is zero for a start that is still to come. A start that
names no date or no time of day has no age.

## Main definitions

* `IsClock`: a text shows a number of minutes in hours and minutes
* `Calendar.Instant.OnClock`, `Calendar.Instant.NotAfter`: the instants of a clock, and their order
* `AgedFrom`: a session is as old as its start says
* `AgeLaws`: how starts are read, and what ages they give

## Main results

* `minutesSince_eq`: minutes are counted in whole seconds
* `minutesSince_le`: the minutes since a start never decrease
* `ageLaws`: starts are read as they are written, and ages are counted from them
-/

set_option autoImplicit false

namespace SessionDirectory

open Calendar

/-! ## Hours and minutes -/

/-- A text shows a number of minutes: hours, a colon and two digits for less than sixty minutes. -/
def IsClock (text : String) (minutes : Nat) : Prop :=
  ∃ (hours : Nat) (mm : List Char), text = String.ofList (Decimal.digits hours ++ ':' :: mm) ∧
    mm.length = 2 ∧ (∀ c ∈ mm, c.isDigit = true) ∧ Decimal.valueOf mm < 60 ∧
    60 * hours + Decimal.valueOf mm = minutes

theorem isClock_hoursText (minutes : Nat) : IsClock (hoursText minutes) minutes := by
  have lt : minutes % 60 < 60 := Nat.mod_lt _ (by decide)
  have room := Decimal.length_digits_le_two (Nat.lt_trans lt (show 60 < 100 by decide))
  refine ⟨minutes / 60, Decimal.padded 2 (minutes % 60), rfl,
    Decimal.length_padded room, fun _ => Decimal.isDigit_of_mem_padded, ?_, ?_⟩
  · rwa [Decimal.valueOf_padded]
  · rw [Decimal.valueOf_padded]
    exact Nat.div_add_mod minutes 60

/-! ## Clocks -/

namespace Calendar.Instant

/-- An instant that a clock can show: a second of a day, or a leap second after it. -/
structure OnClock (t : Instant) : Prop where
  second_lt : t.second < 86400
  fraction_lt : t.fraction < 2 * perSecond

/-- The order of the instants of a clock; a leap second comes after the second that it follows. -/
def NotAfter (t t' : Instant) : Prop :=
  t.unixSeconds < t'.unixSeconds ∨ t.unixSeconds = t'.unixSeconds ∧ t.fraction ≤ t'.fraction

variable {t t' start : Instant}

/-- A whole second is no leap second. -/
theorem not_leap_of_whole (whole : start.fraction = 0) :
    ¬ (start.second < t.second ∧ perSecond ≤ start.fraction) := by
  rw [whole]
  exact fun both => absurd both.2 (by decide)

/-- Outside of leap seconds, the time from a whole second on is a difference of nanoseconds since
the start of 1970. -/
theorem nanosecondsSince_eq (whole : start.fraction = 0) (ordinary : t.fraction < perSecond) :
    t.nanosecondsSince start =
      (perSecond * t.unixSeconds + t.fraction) - perSecond * start.unixSeconds := by
  have noLeap : ¬ (t.second < start.second ∧ perSecond ≤ t.fraction) := by omega
  rw [nanosecondsSince, if_neg (not_leap_of_whole whole), if_neg noLeap, whole, perSecond]
  omega

/-- The whole seconds from a whole second on. A leap second counts where the time of day is not
earlier than the one of the start. -/
theorem nanosecondsSince_div (whole : start.fraction = 0) (clock : t.OnClock) :
    t.nanosecondsSince start / perSecond = t.unixSeconds - start.unixSeconds +
      if start.second ≤ t.second ∧ perSecond ≤ t.fraction then 1 else 0 := by
  have lt := clock.fraction_lt
  rw [nanosecondsSince, if_neg (not_leap_of_whole whole), whole]
  -- In a leap second the fraction is one second more, which is taken back earlier in the day.
  by_cases leap : perSecond ≤ t.fraction
  · by_cases earlier : t.second < start.second
    · rw [if_pos ⟨earlier, leap⟩, if_neg (by omega)]
      rw [perSecond] at leap lt ⊢
      omega
    · rw [if_neg (by omega), if_pos ⟨by omega, leap⟩]
      rw [perSecond] at leap lt ⊢
      omega
  · rw [if_neg (by omega), if_neg (by omega)]
    rw [perSecond] at leap ⊢
    omega

/-- The whole seconds since a start never decrease. -/
theorem nanosecondsSince_div_le (whole : start.fraction = 0) (clock : t.OnClock)
    (clock' : t'.OnClock) (order : t.NotAfter t') :
    t.nanosecondsSince start / perSecond ≤ t'.nanosecondsSince start / perSecond := by
  have lt := clock.second_lt
  have lt' := clock'.second_lt
  rw [nanosecondsSince_div whole clock, nanosecondsSince_div whole clock']
  rcases order with earlier | ⟨same, le⟩
  · split <;> split <;> omega
  · -- Within one second, a leap second can only begin.
    have second : t.second = t'.second := by
      rw [unixSeconds, unixSeconds] at same
      omega
    rw [same, second]
    split <;> split <;> omega

end Calendar.Instant

open Calendar.Instant (OnClock NotAfter perSecond)

variable {now now' start : Instant}

/-- Minutes are counted in whole seconds. -/
theorem minutesSince_eq (now start : Instant) :
    minutesSince now start = (now.nanosecondsSince start / perSecond).toNat / 60 := by
  rw [minutesSince, perSecond]
  omega

/-- The minutes since a start are those of the time that has passed, rounded down, and never less
than zero. -/
theorem minutesSince_eq_max (now start : Instant) : (minutesSince now start : Int) =
    max 0 (now.nanosecondsSince start / (60 * perSecond)) := by
  rw [minutesSince, perSecond]
  omega

/-- **The minutes since a start never decrease.** -/
theorem minutesSince_le (whole : start.fraction = 0) (clock : now.OnClock) (clock' : now'.OnClock)
    (order : now.NotAfter now') : minutesSince now start ≤ minutesSince now' start := by
  have le := Calendar.Instant.nanosecondsSince_div_le whole clock clock' order
  rw [minutesSince_eq, minutesSince_eq]
  omega

/-- Before a start there are no minutes since it. -/
theorem minutesSince_eq_zero (whole : start.fraction = 0) (clock : now.OnClock)
    (future : now.unixSeconds < start.unixSeconds) : minutesSince now start = 0 := by
  rw [minutesSince_eq, Calendar.Instant.nanosecondsSince_div whole clock]
  split <;> omega

/-! ## Sessions -/

/-- **A session is as old as its start says.** -/
structure AgedFrom (r : SessionRecord) (t : CivilTime) : Prop where
  startedAt : r.startedAt? = some (Instant.ofUnix t.unixSeconds 0)
  /-- The age is shown in hours and minutes. -/
  shown : ∀ now, IsClock (r.ageText now) (minutesSince now (Instant.ofUnix t.unixSeconds 0))
  /-- The minutes are those of the time that has passed, rounded down, and never less than zero. -/
  counted : ∀ now : Instant, (minutesSince now (Instant.ofUnix t.unixSeconds 0) : Int) =
    max 0 (now.nanosecondsSince (Instant.ofUnix t.unixSeconds 0) / (60 * perSecond))
  /-- Outside of leap seconds, the time that has passed is a difference of nanoseconds. -/
  passed : ∀ now : Instant, now.fraction < perSecond →
    now.nanosecondsSince (Instant.ofUnix t.unixSeconds 0) =
      (perSecond * now.unixSeconds + now.fraction) - perSecond * t.unixSeconds
  /-- The age never decreases. -/
  grows : ∀ now now' : Instant, now.OnClock → now'.OnClock → now.NotAfter now' →
    minutesSince now (Instant.ofUnix t.unixSeconds 0) ≤
      minutesSince now' (Instant.ofUnix t.unixSeconds 0)
  /-- A start that is still to come has no age yet. -/
  future : ∀ now : Instant, now.OnClock → now.unixSeconds < t.unixSeconds → r.ageText now = "0:00"

theorem agedFrom_of_startedAt {r : SessionRecord} {t : CivilTime}
    (started : r.startedAt? = some (Instant.ofUnix t.unixSeconds 0)) : AgedFrom r t := by
  have age : ∀ now,
      r.ageText now = hoursText (minutesSince now (Instant.ofUnix t.unixSeconds 0)) := by
    intro now
    rw [SessionRecord.ageText, started]
  have seconds : (Instant.ofUnix t.unixSeconds 0).unixSeconds = t.unixSeconds := by
    rw [t.ofUnix_unixSeconds]
    rfl
  constructor
  · exact started
  · exact fun now => age now ▸ isClock_hoursText _
  · exact fun now => minutesSince_eq_max now _
  · intro now ordinary
    rw [Calendar.Instant.nanosecondsSince_eq rfl ordinary, seconds]
  · exact fun now now' clock clock' => minutesSince_le rfl clock clock'
  · intro now clock future
    rw [age, minutesSince_eq_zero rfl clock (seconds.symm ▸ future)]
    rfl

/-- **How the starts of sessions are read**, and what ages they give. -/
structure AgeLaws : Prop where
  /-- Dates are numbered one after the other. -/
  days : Date.NumbersDays
  /-- Every second is exactly one time of the calendar. -/
  seconds : ∀ s : Int, ∃ t : CivilTime, t.unixSeconds = s ∧
    ∀ t' : CivilTime, t'.unixSeconds = s → t' = t
  /-- A start in the years of four digits is read as it is written. -/
  aged : ∀ (r : SessionRecord) (t : CivilTime), 0 ≤ t.date.year → t.date.year ≤ 9999 →
    r.started = t.stamp → AgedFrom r t
  /-- A start that names no date or no time of day is not read, and its age is unknown. -/
  unknown : ∀ (r : SessionRecord) (year month day hour minute second : Nat), year < 10000 →
    month < 100 → day < 100 → hour < 100 → minute < 100 → second < 100 →
    r.started = stampOf year month day hour minute second →
    (r.startedAt? = none ↔ ¬ NamesTime year month day hour minute second) ∧
      (¬ NamesTime year month day hour minute second → ∀ now, r.ageText now = "?")

/-- **Starts are read as they are written, and ages are counted from them.** -/
theorem ageLaws : AgeLaws where
  days := Date.numbersDays
  seconds s := by
    obtain ⟨t, second⟩ := CivilTime.exists_unixSeconds_eq s
    exact ⟨t, second, fun t' second' => CivilTime.unixSeconds_injective (second'.trans second.symm)⟩
  aged r t nonneg le written := by
    refine agedFrom_of_startedAt ?_
    rw [SessionRecord.startedAt?, written]
    exact Calendar.Instant.parse?_stamp nonneg le
  unknown r year month day hour minute second year_lt month_lt day_lt hour_lt minute_lt second_lt
      written := by
    have unread : r.startedAt? = none ↔ ¬ NamesTime year month day hour minute second := by
      rw [SessionRecord.startedAt?, written]
      exact Calendar.Instant.parse?_stampOf_eq_none_iff year_lt month_lt day_lt hour_lt minute_lt
        second_lt
    refine ⟨unread, fun none now => ?_⟩
    rw [SessionRecord.ageText, unread.mpr none]

end SessionDirectory
