import SessionDirectory.Config.Basic
import SessionDirectory.Duration
import SessionDirectory.Listing.Reply

/-!
# Refresh schedule

How long the keep-alive loop waits between refreshes of a lease.

## Main definitions

* `refreshPeriodMinutes`: one minute less than the lease
* `RefreshSchedule.wait`: the wait, between a floor and a day
-/

set_option autoImplicit false

namespace SessionDirectory

/-- Minutes between refreshes: one less than the lease, and never negative. -/
def refreshPeriodMinutes (lease : Int64) : UInt64 :=
  let shorter := if lease = Int64.minValue then lease else lease - 1
  if shorter < 0 then 0 else shorter.toUInt64

/-- How long the loop waits between refreshes. -/
structure RefreshSchedule where
  periodMinutes : UInt64
  margin : Duration
  floor : Duration
  deriving DecidableEq

namespace RefreshSchedule

/-- The longest wait, whatever the lease: one day. -/
def longestWait : Duration := .ofSeconds 86400

/-- The schedule for a lease. -/
def ofLease (lease : Lease) (config : LifecycleConfig) : RefreshSchedule where
  periodMinutes := refreshPeriodMinutes lease.minutes
  margin := .ofSeconds config.refreshMarginSecs
  floor := .ofSeconds config.minRefreshSecs

/-- The period and the margin, but no less than the floor and no more than a day. -/
def wait (s : RefreshSchedule) : Duration :=
  ((Duration.ofSeconds (saturatingMul s.periodMinutes 60)).add s.margin |>.max s.floor).min
    longestWait

end RefreshSchedule

end SessionDirectory
