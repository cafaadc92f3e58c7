import SessionDirectory.Command.Basic
import SessionDirectory.Command.Failure
import SessionDirectory.Directory.Client
import SessionDirectory.Lifecycle.Keeper
import SessionDirectory.Table

/-!
# Jobs

What a command has to do once its arguments and files have been checked: a dialogue with the list
server and a report at its end, or the keeping of a listing with a report of every event.

## Main definitions

* `Report`: what a command prints, and why it fails if it does
* `Job`: what a command has to do
* `Command.job`: the job of a command
* `Job.run?`: a job done with a given network and pacer
-/

set_option autoImplicit false

namespace SessionDirectory

/-- A piece of text that a command prints, as its output or as a complaint. -/
inductive Printed where
  | output (text : String)
  | complaint (text : String)
  deriving DecidableEq, Repr

/-- A line of output. -/
def Printed.line (text : String) : Printed := .output (text ++ "\n")

/-- What a command prints, and why it fails if it does. -/
structure Report where
  printed : List Printed
  failure : Option Failure

namespace Report

/-- A report of success. -/
def success (printed : List Printed) : Report := ⟨printed, none⟩

/-- A report of failure. -/
def failed (printed : List Printed) (failure : Failure) : Report := ⟨printed, some failure⟩

/-- The report on an announcement: the body of the answer, whatever its status. -/
def ofAnnouncement : Answer → Report
  | .error e => failed [] (.directory e)
  | .ok response =>
    if response.isOk then success [.line response.body]
    else failed [.line response.body] (.status response.status)

/-- The report on the public list, as indented JSON or as a table. -/
def ofList (json : Bool) (now : Calendar.Instant) : Answer → Report
  | .error e => failed [] (.directory e)
  | .ok response =>
    if !response.isSuccess then failed [.line response.body] (.status response.status)
    else if json then
      match response.json with
      | .ok value => success [.line value.sortKeys.pretty]
      | .error e => failed [] (.listNotJson e)
    else
      match SessionRecord.parseList response.body with
      | .ok records => success [.output (Table.render now records)]
      | .error e => failed [] (.listUnreadable e)

/-- The report on a room code: the answer as indented JSON, whatever its status. -/
def ofRoomCode : Answer → Report
  | .error e => failed [] (.directory e)
  | .ok response =>
    match response.json with
    | .error e => failed [] (.unexpectedReply response e)
    | .ok value =>
      if response.isSuccess then success [.line value.sortKeys.pretty]
      else failed [.line value.sortKeys.pretty] (.status response.status)

/-- What is printed on the answer to an update or a removal. -/
def printedOf : Except UnlistError Response → List Printed
  | .error e => [.complaint (Cause.line e.causes ++ "\n")]
  | .ok response =>
    if response.isOkOrNoContent then [.line response.body]
    else [.line response.body, .complaint (Failure.statusText response.status ++ "\n")]

/-- Whether the answer to an update or a removal counts as failed. -/
def isFailed : Except UnlistError Response → Bool
  | .error _ => true
  | .ok response => !response.isOkOrNoContent

/-- The report on updates or removals: every answer, and how many of them failed. -/
def ofResults (results : List (Except UnlistError Response)) : Report :=
  let count := results.countP isFailed
  ⟨results.flatMap printedOf, if count = 0 then none else some (.requests count results.length)⟩

/-- The report on an update of listings, which is one request. -/
def ofUpdate : Except SubmitError Response → Report
  | .error e => failed [] (.submit e)
  | .ok response => ofResults [.ok response]

end Report

namespace Event

/-- A message of the server on a line of its own, if there is one. -/
def messageLine (message : Option String) : String :=
  match message with
  | some message => "Message: " ++ message ++ "\n"
  | none => ""

/-- What is printed of an event in the life of a listing. -/
def text (baseUrl : String) : Event → String
  | .announced credential lease period =>
    messageLine lease.message ++ "Listed as " ++ credential.id.toText
      ++ ". Refreshing announcement every " ++ Decimal.text period.toNat
      ++ " minutes... (until Ctrl+C is pressed)\n"
  | .refreshed count message =>
    "Refreshed listing at " ++ baseUrl ++ " (" ++ Decimal.text count.toNat ++ ")\n"
      ++ messageLine message
  | .cancelled => "\nUnlisting at " ++ baseUrl ++ "\n"
  | .unlisted status => "Unlisted (HTTP " ++ Decimal.text status.toNat ++ ")\n"
  | .cleanupUnlist (some status) =>
    "Cleanup unlist: HTTP " ++ Decimal.text status.toNat ++ "\n"
  | .cleanupUnlist none => "Cleanup unlist failed\n"

end Event

namespace Report

/-- What is printed before a listing is kept. -/
def keepingStart (baseUrl : String) : Printed :=
  .line ("Announcing random session at " ++ baseUrl)

/-- The report on a listing that is no longer kept. -/
def ofKeeping : Except LifecycleError Outcome → Report
  | .ok outcome =>
    success [.line ("✓ Unlisted " ++ outcome.credential.id.toText ++ " after "
      ++ Decimal.text outcome.refreshes.toNat ++ " refresh(es)")]
  | .error e => failed (e.body?.map Printed.line).toList (.lifecycle e)

end Report

/-- What a command has to do. -/
inductive Job where
  /-- Talk to the list server and report. -/
  | talk (client : Client) (dialogue : Dialogue Report)
  /-- Keep a listing and report every event. -/
  | keep (client : Client) (keeper : Keeper)

/-- What a command works with apart from the network. -/
structure Surroundings where
  files : Files
  now : Calendar.Instant
  draw : SessionDraw

/-- A client for a list server. -/
def Client.forCommand (url : String) (config : Config) : Except Failure Client :=
  (Client.new url config.http).mapError .directory

/-- The dialogue that updates or removes listings. -/
def updateDialogue (ps : List PendingUpdate) (unlist : Bool) : Dialogue Report :=
  if unlist then (submitUnlists ps).map Report.ofResults
  else (submitUpdates ps).map Report.ofUpdate

/-- The job of a command. Of an update the files are checked first and the URL afterwards. -/
def Command.job (config : Config) (s : Surroundings) : Command → Except Failure Job
  | .announce url options => do
    let client ← Client.forCommand url config
    let session := Announcement.ofOptions config.announce options s.draw
    return .talk client ((Dialogue.single (.announce session)).map Report.ofAnnouncement)
  | .list url query json => do
    let client ← Client.forCommand url config
    return .talk client ((Dialogue.single (.query query)).map (Report.ofList json s.now))
  | .roomCode url code => do
    let client ← Client.forCommand url config
    return .talk client ((Dialogue.single (.roomCode code)).map Report.ofRoomCode)
  | .update files url overrides unlist => do
    let listings ← (StoredListing.loadAll s.files files).mapError .storedListing
    let client ← Client.forCommand url config
    let pending := listings.map fun listing => listing.merge overrides.toFields
    return .talk client (updateDialogue pending unlist)
  | .run url host => do
    let client ← Client.forCommand url config
    let session := Announcement.ofOptions config.announce { host } s.draw
    return .keep client (Controller.start { config := config.lifecycle } session)

/-- What was done: what was printed, the requests sent, and why it failed if it did. -/
structure Transcript where
  printed : List Printed
  requests : List Request
  failure : Option Failure

namespace Transcript

/-- A transcript of a failure before anything was done. -/
def ofFailure (failure : Failure) : Transcript := ⟨[], [], some failure⟩

/-- All output, in order. -/
def output (t : Transcript) : String :=
  String.join (t.printed.map fun
    | .output text => text
    | .complaint _ => "")

/-- All complaints, in order. -/
def complaints (t : Transcript) : String :=
  String.join (t.printed.map fun
    | .output _ => ""
    | .complaint text => text)

end Transcript

/-- A job done with a network and a pacer, as long as a keeper returns within a number of steps. -/
def Job.run? (exchange : Exchange) (p : Pacer) (steps : Nat) : Job → Option Transcript
  | .talk client dialogue =>
    let (calls, report) := dialogue.run (client.directory exchange)
    some ⟨report.printed, client.requests calls, report.failure⟩
  | .keep client keeper =>
    let k := keeper.run (client.directory exchange) p steps
    k.result?.map fun result =>
      let report := Report.ofKeeping result
      let told := k.events.map fun e => Printed.output (e.text client.baseUrl)
      ⟨Report.keepingStart client.baseUrl :: told ++ report.printed,
        client.requests k.calls, report.failure⟩

end SessionDirectory
