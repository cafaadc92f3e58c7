import SessionDirectory.Json.Read

/-!
# Configuration

The values that configure the program, with their built-in defaults.

## Main definitions

* `AnnounceDefaults`: what fills in a new announcement
* `LifecycleConfig`: timing and failure policy of the keep-alive loop
* `HttpConfig`: timeouts and the name that the client goes by
* `Config`: all three
-/

set_option autoImplicit false

namespace SessionDirectory

/-- The values that fill in a new announcement. -/
structure AnnounceDefaults where
  host : String := ""
  port : UInt16 := 27750
  protocol : String := "dp:4.20.1"
  owner : String := "tester"
  title : String := "Test: "
  deriving DecidableEq, Inhabited

/-- Timing and failure policy of the keep-alive loop. -/
structure LifecycleConfig where
  /-- The lease assumed where the server names none. -/
  defaultLeaseMinutes : Int64 := 10
  /-- Added to every wait between refreshes. -/
  refreshMarginSecs : UInt64 := 30
  /-- The least wait between refreshes. -/
  minRefreshSecs : UInt64 := 30
  /-- Whether a listing is removed after a refresh failed, instead of left to expire. -/
  unlistOnRefreshFailure : Bool := false
  deriving DecidableEq, Inhabited

/-- Timeouts of requests and the name that the client goes by. -/
structure HttpConfig where
  connectTimeoutSecs : UInt64 := 10
  timeoutSecs : UInt64 := 30
  userAgent : String := "sessionlist/0.1.0"
  deriving DecidableEq, Inhabited

/-- The whole configuration. -/
structure Config where
  announce : AnnounceDefaults := {}
  lifecycle : LifecycleConfig := {}
  http : HttpConfig := {}
  deriving DecidableEq, Inhabited

namespace LifecycleConfig

open Json (Raw Error)

/-- The fields of the record, in the order of its array form. -/
def fieldNames : List String :=
  ["default_lease_minutes", "refresh_margin_secs", "min_refresh_secs",
    "unlist_on_refresh_failure"]

/-- Reads the policy from JSON; absent fields have their defaults. -/
def read (r : Raw) : Except Error LifecycleConfig := do
  let get ← r.record fieldNames
  let builtIn : LifecycleConfig := {}
  let lease ← Raw.defaulted builtIn.defaultLeaseMinutes Raw.int64 (get "default_lease_minutes")
  let margin ← Raw.defaulted builtIn.refreshMarginSecs Raw.uint64 (get "refresh_margin_secs")
  let least ← Raw.defaulted builtIn.minRefreshSecs Raw.uint64 (get "min_refresh_secs")
  let cleanup ←
    Raw.defaulted builtIn.unlistOnRefreshFailure Raw.flag (get "unlist_on_refresh_failure")
  return ⟨lease, margin, least, cleanup⟩

/-- Reads the text of a policy. -/
def parse (s : String) : Except Error LifecycleConfig := Raw.parse s >>= read

end LifecycleConfig

end SessionDirectory
