import SessionDirectory.Http.Message
import SessionDirectory.Program
import Std.Async.DNS
import Std.Async.Signal
import Std.Async.TCP
import Std.Async.Timer
import Std.Time.DateTime.Timestamp

/-!
# Running the program

The outer layer: arguments, files, variables, clock and chance come in, requests go out over TCP,
and text is printed. All decisions are made by `Invocation.read`, `Invocation.job`, `Dialogue` and
`Keeper`.

## Main definitions

* `fetch`: a request sent and its answer received
* `converse`, `keepListed`: the two kinds of jobs
* `main`: the program
-/

set_option autoImplicit false

namespace SessionDirectory.Main

open Std.Async Std.Net

/-! ## Surroundings -/

/-- The number of the error for a directory in the place of a file. -/
def directoryCode : UInt32 := 21

/-- What an error of the system says about a file. -/
def faultOf : IO.Error → FileFault
  | .noFileOrDirectory _ _ _ => .notFound
  | .inappropriateType _ code _ => if code = directoryCode then .isDirectory else .notDirectory
  | .invalidArgument _ _ _ => .invalidName
  | _ => .denied

/-- Reads a file. -/
def readText (path : String) : IO (Except FileFault String) := do
  if path.isEmpty then return .error .notFound
  if path.toList.contains '\x00' then return .error .invalidName
  try
    let bytes ← IO.FS.readBinFile path
    match String.fromUTF8? bytes with
    | some text => return .ok text
    | none => return .error .notText
  catch e => return .error (faultOf e)

/-- Reads the files at some paths; no other file is there. -/
def readFiles (paths : List String) : IO Files := do
  let texts ← paths.mapM fun path => return (path, ← readText path)
  return fun path => ((texts.find? fun t => t.1 = path).map (·.2)).getD (.error .notFound)

/-- The variables that the program looks at. -/
def variableNames : List String :=
  ["HOME", "XDG_CONFIG_HOME", "SESSIONLIST_HOST", "SESSIONLIST_PORT", "SESSIONLIST_PROTOCOL",
    "SESSIONLIST_OWNER", "SESSIONLIST_TIMEOUT_SECS"]

/-- Reads the variables that are set. -/
def readEnvironment : IO Environment := do
  let values ← variableNames.mapM fun name => return (name, ← IO.getEnv name)
  return fun name => (values.find? fun v => v.1 = name).bind (·.2)

/-- The number that some bytes stand for. -/
def numberOf (bytes : ByteArray) : Nat := bytes.toList.foldl (fun n b => 256 * n + b.toNat) 0

/-- Draws the values of a test session. -/
def drawSession : IO SessionDraw := do
  let id ← IO.getRandomBytes 16
  let users ← IO.getRandomBytes 8
  let password ← IO.getRandomBytes 8
  return .ofRandom id.toList (numberOf users) (numberOf password)

/-- The time of day. -/
def readClock : IO Calendar.Instant := do
  let now ← Std.Time.Timestamp.now
  let nanoseconds := now.toNanosecondsSinceUnixEpoch.toInt
  return .ofUnix (nanoseconds / 1000000000) (nanoseconds % 1000000000).toNat

/-! ## Network -/

/-- The most bytes that are received at once. -/
def receiveSize : UInt64 := 65536

/-- The bytes that arrive until the server closes the connection. -/
partial def receiveAll (socket : TCP.Socket.Client) (received : ByteArray) : Async ByteArray := do
  match ← socket.recv? receiveSize with
  | some bytes => receiveAll socket (received ++ bytes)
  | none => return received

/-- The address to connect to. -/
def address (ip : IPAddr) (port : UInt16) : SocketAddress :=
  match ip with
  | .v4 addr => .v4 ⟨addr, port⟩
  | .v6 addr => .v6 ⟨addr, port⟩

/-- Resolves the host of a URL. -/
def resolve (u : Url) : Async (List IPAddr) := do
  match u.host with
  | none => return []
  | some (.ipv6 pieces) =>
    return (IPv6Addr.ofString (":".intercalate (pieces.map Http.hexText))).toList.map .v6
  | some host => return (← DNS.getAddrInfo (Http.hostText host) "").toList

/-- Does something that may not last longer than a number of seconds. -/
def within {α : Type} [Inhabited α] (seconds : UInt64) (action : Async α) : Async α :=
  Async.race action do
    Std.Async.sleep (.ofNat (1000 * min seconds.toNat 86400))
    throw (IO.userError "timed out")

/-- Sends a request over a connection of its own and receives the answer. -/
def exchangeAt (http : HttpConfig) (target : SocketAddress) (request : Request) :
    Async (Option Response) := do
  let socket ← TCP.Socket.Client.mk
  within http.connectTimeoutSecs (socket.connect target)
  socket.send (Http.requestBytes request)
  return Http.parseAll? (← receiveAll socket .empty)

/-- Tries several addresses up to the first one that accepts a connection. -/
def exchangeAny (http : HttpConfig) (port : UInt16) (request : Request) :
    List IPAddr → Async (Option Response)
  | [] => return none
  | ip :: rest => do
    try exchangeAt http (address ip port) request
    catch e => if rest.isEmpty then throw e else exchangeAny http port request rest

/-- Sends a request and receives its answer; without encryption only. -/
def fetch (http : HttpConfig) (request : Request) : IO (Option Response) := do
  if request.url.scheme ≠ "http" then return none
  let port := UInt16.ofNat ((request.url.effectivePort?).getD 80)
  try
    Async.block (within http.timeoutSecs do
      exchangeAny http port request (← resolve request.url))
  catch _ => return none

/-! ## Jobs -/

/-- Prints text. -/
def say : Printed → IO Unit
  | .output text => do
    let out ← IO.getStdout
    out.putStr text
    out.flush
  | .complaint text => do (← IO.getStderr).putStr text

/-- Makes a call. -/
def answer (client : Client) (verbose : Bool) (call : Call) : IO Answer := do
  match client.request? call with
  | none => return .error (.transport call.operation)
  | some request =>
    if verbose then
      say (.complaint (call.operation.name ++ " " ++ request.body.getD "" ++ "\n"))
    match ← fetch client.http request with
    | none => return .error (.transport call.operation)
    | some response =>
      let response := Client.receive response
      if verbose then
        say (.complaint ("HTTP " ++ Decimal.text response.status.toNat ++ " " ++ response.body
          ++ "\n"))
      return .ok response

/-- Prints a report. -/
def sayReport (report : Report) : IO (Option Failure) := do
  report.printed.forM say
  return report.failure

/-- Holds a dialogue and reports. -/
def converse (client : Client) (verbose : Bool) (dialogue : Dialogue Report) :
    IO (Option Failure) := do
  sayReport (← dialogue.perform (answer client verbose))

/-- The signals that interrupt a run. -/
def interrupts : List Signal := [.sigint, .sigterm, .sighup]

/-- Starts to listen for a signal. -/
def listen (signal : Signal) : IO (Task Unit) := do
  let waiter ← Signal.Waiter.mk signal true
  return Task.map (fun _ => ()) (← waiter.wait)

/-- Pauses until a time has passed or one of several tasks is done. -/
def pause (interrupted : List (Task Unit)) (length : Duration) : IO WaitOutcome := do
  let isInterrupted := interrupted.anyM fun task => IO.hasFinished task
  if ← isInterrupted then return .cancelled
  let milliseconds := 1000 * length.seconds.toNat + (length.nanoseconds.val + 999999) / 1000000
  let timer ← Async.toIO (Std.Async.sleep (.ofNat milliseconds))
  IO.waitAny (Task.map (fun _ => ()) timer :: interrupted)
  return if ← isInterrupted then .cancelled else .elapsed

/-- Keeps a listing and prints its events as they come; what has been printed leaves the log. -/
partial def keepListed (client : Client) (verbose : Bool) (interrupted : List (Task Unit))
    (k : Keeper) : IO (Except LifecycleError Outcome) := do
  let go (after : Keeper) := do
    for e in after.events do say (.output (e.text client.baseUrl))
    keepListed client verbose interrupted { after with log := [] }
  match k.next with
  | .nothing result => return result
  | .call call => go (k.answered call (← answer client verbose call))
  | .pause length => go (k.paused length (← pause interrupted length))

/-- Does a job. -/
def perform (verbose : Bool) : Job → IO (Option Failure)
  | .talk client dialogue => converse client verbose dialogue
  | .keep client keeper => do
    let interrupted ← interrupts.mapM listen
    say (Report.keepingStart client.baseUrl)
    sayReport (Report.ofKeeping (← keepListed client verbose interrupted keeper))

/-- Does what an invocation asks for. -/
def invoke (invocation : Invocation) : IO Ending := do
  let env ← readEnvironment
  let files ← readFiles (invocation.paths env none)
  let surroundings : Surroundings := ⟨files, ← readClock, ← drawSession⟩
  match invocation.job env none surroundings with
  | .error failure => return .failure failure
  | .ok job => return .ofFailure? (← perform invocation.verbose job)

/-- Runs the program. -/
def run (arguments : List String) : IO Ending := do
  match Invocation.read arguments with
  | .error e =>
    say e.printed
    return .usage e
  | .ok invocation =>
    let ending ← invoke invocation
    if let .failure failure := ending then say failure.printed
    return ending

end SessionDirectory.Main

/-- The program. -/
def main (arguments : List String) : IO UInt32 := do
  return UInt32.ofNat (← SessionDirectory.Main.run arguments).exitCode
