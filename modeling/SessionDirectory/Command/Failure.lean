import SessionDirectory.Config.Resolve
import SessionDirectory.Lifecycle.Error
import SessionDirectory.ResponseFile

/-!
# Failures

Why a command ends without success.

## Main definitions

* `Failure`: the reasons
* `Failure.causes`: a reason as a chain of causes
-/

set_option autoImplicit false

namespace SessionDirectory

/-- Why a command ends without success. -/
inductive Failure where
  | config (cause : ConfigError)
  | storedListing (cause : StoredListingError)
  | directory (cause : DirectoryError)
  | submit (cause : SubmitError)
  | lifecycle (cause : LifecycleError)
  /-- The server answered with a status that is no success. -/
  | status (status : UInt16)
  /-- The list cannot be read as JSON. -/
  | listNotJson (cause : Json.Error)
  /-- The list cannot be read as a list of sessions. -/
  | listUnreadable (cause : Json.Error)
  /-- The answer to a room code is no JSON. -/
  | unexpectedReply (response : Response) (cause : Json.Error)
  /-- Some of several requests failed. -/
  | requests (failed total : Nat)
  deriving DecidableEq

namespace Failure

/-- A status in words. -/
def statusText (status : UInt16) : String :=
  "list server returned HTTP " ++ Decimal.text status.toNat

/-- The chain of causes. -/
def causes : Failure → List Cause
  | config cause => cause.causes
  | storedListing cause => cause.causes
  | directory cause => cause.causes
  | submit cause => cause.causes
  | lifecycle cause => cause.causes
  | .status code => [.text (statusText code)]
  | listNotJson cause => [.text "Session list is not valid JSON", .json cause]
  | listUnreadable cause => [.text "Failed to parse session list", .json cause]
  | unexpectedReply response cause =>
    [.text ("Unexpected reply (HTTP " ++ Decimal.text response.status.toNat ++ "): "
      ++ response.body), .json cause]
  | requests failed total =>
    [.text (Decimal.text failed ++ " of " ++ Decimal.text total ++ " request(s) failed")]

end Failure

end SessionDirectory
