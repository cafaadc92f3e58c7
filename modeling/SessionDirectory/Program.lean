import SessionDirectory.Command.Job
import SessionDirectory.CommandLine.Read

/-!
# The program

From a command line to what is printed and to the exit code.

## Main definitions

* `Invocation.paths`: the files that an invocation may read
* `Invocation.job`: what an invocation has to do
* `Ending`: how the program ends
* `Ending.exitCode`: what it tells its caller
* `Program.run?`: a whole run
-/

set_option autoImplicit false

namespace SessionDirectory

/-- The name of the program and its version. -/
def versionText : String := "sessionlist 0.1.0"

/-- The paths of all files that an invocation may read. -/
def Invocation.paths (env : Environment) (accountHome : Option String)
    (invocation : Invocation) : List String :=
  (Config.path? env accountHome invocation.config).toList ++ match invocation.command with
    | .update files _ _ _ => files
    | _ => []

/-- What an invocation has to do: the configuration is resolved before anything else. -/
def Invocation.job (env : Environment) (accountHome : Option String) (s : Surroundings)
    (invocation : Invocation) : Except Failure Job := do
  let config ← (Config.load s.files env accountHome invocation.config).mapError .config
  invocation.command.job config s

/-- How the program ends. -/
inductive Ending where
  /-- The command line asks for nothing that can be done. -/
  | usage (e : CommandLine.UsageError)
  | failure (f : Failure)
  | success
  deriving DecidableEq

namespace Ending

/-- What the program tells its caller: 2 for a wrong command line, 1 for a failure. -/
def exitCode : Ending → Nat
  | usage .helpAsked | usage .versionAsked => 0
  | usage _ => 2
  | failure _ => 1
  | success => 0

/-- The ending that goes with the failure of a command, if it has one. -/
def ofFailure? : Option Failure → Ending
  | some f => failure f
  | none => success

end Ending

/-- The lines that are printed when help is asked for. -/
def helpLines : List String :=
  ["Session list server test tools",
    "",
    "Usage: sessionlist [OPTIONS] <COMMAND>",
    "",
    "Commands:",
    "  announce  Make a random announcement and print the server response",
    "  list      Show the public session list",
    "  roomcode  Get session details by room code",
    "  update    Update or unlist announcements from response files",
    "  run       Announce a random session and keep it listed until Ctrl+C is pressed",
    "  help      Print this message",
    "",
    "Options:",
    "      --config <CONFIG>  Config file (defaults to the user config directory)",
    "  -v, --verbose          Log request bodies and server replies to stderr",
    "  -h, --help             Print help",
    "  -V, --version          Print version"]

/-- What is printed when help is asked for. -/
def helpText : String := String.join (helpLines.map (· ++ "\n"))

/-- What is printed for a command line that asks for nothing that can be done. -/
def CommandLine.UsageError.printed : CommandLine.UsageError → Printed
  | .helpAsked => .output helpText
  | .versionAsked => .line versionText
  | .nothingGiven => .complaint helpText
  | e => .complaint ("error: " ++ e.message ++ "\n\nFor more information, try '--help'.\n")

/-- What is printed when a command has failed. -/
def Failure.printed (f : Failure) : Printed :=
  .complaint ("Error: " ++ Cause.report f.causes ++ "\n")

namespace Program

/-- What was done in a run, and how it ended. -/
structure Run where
  transcript : Transcript
  ending : Ending

/-- A run that ends with what came of a job. -/
def ofTranscript (t : Transcript) : Run := ⟨t, .ofFailure? t.failure⟩

/-- A whole run with a network and a pacer, as long as a keeper returns within a number of
steps. -/
def run? (env : Environment) (accountHome : Option String) (s : Surroundings)
    (exchange : Exchange) (p : Pacer) (steps : Nat) (arguments : List String) : Option Run :=
  match Invocation.read arguments with
  | .error e => some ⟨⟨[e.printed], [], none⟩, .usage e⟩
  | .ok invocation =>
    match invocation.job env accountHome s with
    | .error f => some (ofTranscript (.ofFailure f))
    | .ok job => (job.run? exchange p steps).map ofTranscript

end Program

end SessionDirectory
