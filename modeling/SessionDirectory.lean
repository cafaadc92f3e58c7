import SessionDirectory.Main
import SessionDirectory.Proofs.Directory.Addressing
import SessionDirectory.Proofs.Lifecycle.Account
import SessionDirectory.Proofs.Lifecycle.Cancellation
import SessionDirectory.Proofs.Lifecycle.Verdict
import SessionDirectory.Proofs.Update.BatchBody
import SessionDirectory.Proofs.Update.Submission
import SessionDirectory.Proofs.Lifecycle.Cleanup
import SessionDirectory.Proofs.Update.Alone
import SessionDirectory.Proofs.Json.Record
import SessionDirectory.Proofs.Listing.HandedBack
import SessionDirectory.Proofs.Lifecycle.Crowd
import SessionDirectory.Proofs.Lifecycle.Waking
import SessionDirectory.Proofs.Json.Scan
import SessionDirectory.Proofs.Json.Tree
import SessionDirectory.Proofs.Lifecycle.Steering
import SessionDirectory.Proofs.Json.Field
import SessionDirectory.Proofs.Lifecycle.Acceptance
import SessionDirectory.Proofs.Listing.Stored
import SessionDirectory.Proofs.Directory.Root
import SessionDirectory.Proofs.Lifecycle.Schedule
import SessionDirectory.Proofs.Update.LastWins
import SessionDirectory.Proofs.Json.ReadBack
import SessionDirectory.Proofs.Config.Layers
import SessionDirectory.Proofs.Listing.Wire
import SessionDirectory.Proofs.Lifecycle.InTime
import SessionDirectory.Proofs.Update.Overlay
import SessionDirectory.Proofs.Json.Canonical
import SessionDirectory.Proofs.Json.Numeral
import SessionDirectory.Proofs.Listing.Form
import SessionDirectory.Proofs.Url.Form
import SessionDirectory.Proofs.Directory.Filters
import SessionDirectory.Proofs.Calendar.Date
import SessionDirectory.Proofs.Calendar.Stamp
import SessionDirectory.Proofs.Json.ObjectText
import SessionDirectory.Proofs.Listing.Age
import SessionDirectory.Proofs.Listing.Tolerance
import SessionDirectory.Proofs.Table
import SessionDirectory.Proofs.Update.Overrides
import SessionDirectory.Proofs.Files
import SessionDirectory.Proofs.Url.Host
import SessionDirectory.Proofs.Uuid
