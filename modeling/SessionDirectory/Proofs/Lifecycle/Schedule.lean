import SessionDirectory.Lifecycle.Schedule

/-!
# The exact wait

The wait between refreshes is worked out in 64-bit words that stop at their greatest value. The
products and sums that do not fit are all longer than a day, so none of the stops is ever seen: the
wait is what it would be in unbounded numbers, in whole seconds.

## Main definitions

* `exactWait`: the wait in seconds, in unbounded numbers
* `RefreshSchedule.Exact`: what the schedule of a lease is, and how its wait grows

## Main results

* `toNat_refreshPeriodMinutes`: the minutes between refreshes
* `Duration.toNanoseconds_add`: a sum stops at the greatest duration
* `RefreshSchedule.toNanoseconds_wait`: the length of the wait
* `RefreshSchedule.exact_ofLease`: the schedule of every lease is exact
-/

set_option autoImplicit false

namespace SessionDirectory

/-! ## Words -/

/-- A product of words stops at the greatest word. -/
theorem toNat_saturatingMul (a b : UInt64) :
    (saturatingMul a b).toNat = min (a.toNat * b.toNat) (UInt64.size - 1) := by
  unfold saturatingMul
  split
  next fits =>
    rw [UInt64.toNat_mul, Nat.mod_eq_of_lt fits]
    omega
  next full =>
    rw [UInt64.toNat_ofNat_of_lt' (by decide)]
    omega

/-- **The minutes between refreshes are one less than those of the lease**, and none for a lease
that has none to spare. -/
theorem toNat_refreshPeriodMinutes (lease : Int64) :
    ((refreshPeriodMinutes lease).toNat : Int) = max (lease.toInt - 1) 0 := by
  have lower := Int64.le_toInt lease
  have upper := Int64.toInt_lt lease
  unfold refreshPeriodMinutes
  by_cases least : lease = Int64.minValue
  · subst least
    rfl
  -- But for the least word, one less is a word.
  have one : (lease - 1).toInt = lease.toInt - 1 := by
    have above : lease.toInt ≠ -2 ^ 63 := fun same =>
      least (Int64.toInt_inj.mp (same.trans Int64.toInt_minValue.symm))
    rw [Int64.toInt_sub, Int64.toInt_one, Int.bmod_eq_of_le (by omega) (by omega)]
  simp only [least, if_false]
  split
  next negative =>
    rw [Int64.lt_iff_toInt_lt, one, Int64.toInt_zero] at negative
    show (0 : Int) = _
    omega
  next natural =>
    rw [Int64.not_lt] at natural
    rw [Int64.toNat_toUInt64_of_le natural, Int64.cast_toNatClampNeg _ natural, one]
    rw [Int64.le_iff_toInt_le, one, Int64.toInt_zero] at natural
    omega

/-! ## Durations -/

namespace Duration

variable {a b : Duration}

theorem toNanoseconds_ofSeconds (s : UInt64) :
    (ofSeconds s).toNanoseconds = 1000000000 * s.toNat := rfl

theorem toNanoseconds_max (a b : Duration) :
    (a.max b).toNanoseconds = Max.max a.toNanoseconds b.toNanoseconds := by
  unfold max
  split <;> omega

theorem toNanoseconds_min (a b : Duration) :
    (a.min b).toNanoseconds = Min.min a.toNanoseconds b.toNanoseconds := by
  unfold min
  split <;> omega

/-- **A sum stops at the greatest duration.** -/
theorem toNanoseconds_add (a b : Duration) :
    (a.add b).toNanoseconds =
      Min.min (a.toNanoseconds + b.toNanoseconds) greatest.toNanoseconds := by
  have limit : greatest.toNanoseconds = 1000000000 * (UInt64.size - 1) + 999999999 := rfl
  have size : UInt64.size = 18446744073709551616 := rfl
  obtain ⟨s, n⟩ := a
  obtain ⟨s', n'⟩ := b
  simp only [add]
  split
  next fits =>
    -- The nanoseconds of the sum and the carried second make up those of the two.
    simp only [toNanoseconds, UInt64.toNat_ofNat_of_lt' fits, Fin.val_add]
    rw [← toNanoseconds, limit]
    omega
  next full =>
    simp only [toNanoseconds] at limit ⊢
    rw [limit]
    omega

end Duration

/-! ## Schedules -/

/-- **The wait in seconds, in unbounded numbers**: a minute less than the lease and the margin, but
no less than the floor and no more than a day. -/
def exactWait (minutes margin floor : Int) : Int :=
  min (max (60 * max (minutes - 1) 0 + margin) floor) 86400

/-- The wait of the schedule for a lease, in unbounded numbers. -/
def Lease.exactWait (lease : Lease) (config : LifecycleConfig) : Int :=
  SessionDirectory.exactWait lease.minutes.toInt config.refreshMarginSecs.toNat
    config.minRefreshSecs.toNat

theorem exactWait_mono {minutes minutes' margin margin' floor floor' : Int}
    (longer : minutes ≤ minutes') (wider : margin ≤ margin') (higher : floor ≤ floor') :
    exactWait minutes margin floor ≤ exactWait minutes' margin' floor' := by
  unfold exactWait
  omega

namespace RefreshSchedule

open Duration

/-- **The length of the wait**: no product and no sum that stops at its greatest value is seen. -/
theorem toNanoseconds_wait (lease : Lease) (config : LifecycleConfig) :
    ((ofLease lease config).wait.toNanoseconds : Int) = 1000000000 * lease.exactWait config := by
  have period := toNat_refreshPeriodMinutes lease.minutes
  have limit : greatest.toNanoseconds = 1000000000 * (UInt64.size - 1) + 999999999 := rfl
  have size : UInt64.size = 18446744073709551616 := rfl
  have minute : (60 : UInt64).toNat = 60 := rfl
  have day : longestWait.toNanoseconds = 1000000000 * 86400 := rfl
  simp only [wait, ofLease, toNanoseconds_min, toNanoseconds_max, toNanoseconds_add,
    toNanoseconds_ofSeconds, toNat_saturatingMul, limit, minute, day, Lease.exactWait, exactWait,
    ← period]
  omega

/-- **The schedule of a lease is exact.** The minutes between refreshes and the wait are what they
are in unbounded numbers, and the wait is one of whole seconds. -/
structure Exact (lease : Lease) (config : LifecycleConfig) : Prop where
  period : ((ofLease lease config).periodMinutes.toNat : Int) = max (lease.minutes.toInt - 1) 0
  seconds : ((ofLease lease config).wait.seconds.toNat : Int) = lease.exactWait config
  whole : (ofLease lease config).wait.nanoseconds = 0
  floor : min config.minRefreshSecs.toNat 86400 ≤ (ofLease lease config).wait.seconds.toNat
  /-- The wait grows with the lease, with the margin and with the floor. -/
  monotone : ∀ (lease' : Lease) (config' : LifecycleConfig), lease.minutes ≤ lease'.minutes →
    config.refreshMarginSecs ≤ config'.refreshMarginSecs →
    config.minRefreshSecs ≤ config'.minRefreshSecs →
    (ofLease lease config).wait.toNanoseconds ≤ (ofLease lease' config').wait.toNanoseconds

/-- **The schedule of every lease is exact**, whatever the configuration. -/
theorem exact_ofLease (lease : Lease) (config : LifecycleConfig) : Exact lease config := by
  have length := toNanoseconds_wait lease config
  have above : min (config.minRefreshSecs.toNat : Int) 86400 ≤ lease.exactWait config := by
    unfold Lease.exactWait exactWait
    omega
  -- A length of whole seconds leaves nothing for the nanoseconds.
  have parts : (ofLease lease config).wait.toNanoseconds =
      1000000000 * (ofLease lease config).wait.seconds.toNat +
        (ofLease lease config).wait.nanoseconds := rfl
  have rest := (ofLease lease config).wait.nanoseconds.isLt
  have seconds : ((ofLease lease config).wait.seconds.toNat : Int) = lease.exactWait config := by
    omega
  refine ⟨toNat_refreshPeriodMinutes lease.minutes, seconds, Fin.ext ?_, by omega, ?_⟩
  · show (ofLease lease config).wait.nanoseconds.val = 0
    omega
  · intro lease' config' longer wider higher
    have length' := toNanoseconds_wait lease' config'
    have mono : lease.exactWait config ≤ lease'.exactWait config' :=
      exactWait_mono (Int64.le_iff_toInt_le.mp longer)
        (Int.ofNat_le.mpr (UInt64.le_iff_toNat_le.mp wider))
        (Int.ofNat_le.mpr (UInt64.le_iff_toNat_le.mp higher))
    omega

/-- The longest lease with the widest margin waits for a day. -/
example : (ofLease ⟨Int64.maxValue, none⟩ { refreshMarginSecs := 18446744073709551615 }).wait =
    longestWait := by decide

end RefreshSchedule

end SessionDirectory
