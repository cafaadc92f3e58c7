import SessionDirectory.Command.Basic
import SessionDirectory.CommandLine.Scan

/-!
# Reading command lines

The command line of the program: options for the program as a whole, a command, and the command's
own options and operands, among which those for the whole program may stand too.

## Main definitions

* `grammar`, `commandGrammar`: what may stand before and after the command
* `Invocation.read`: the invocation that a command line asks for
-/

set_option autoImplicit false

namespace SessionDirectory.CommandLine

/-- Options that may stand before and after the command. -/
def commonOptions : List OptionRule :=
  [⟨"config", none, .path⟩, ⟨"verbose", some 'v', .switch⟩, ⟨"help", some 'h', .help⟩]

/-- The names of the commands. -/
def commandNames : List String := ["announce", "list", "roomcode", "update", "run"]

/-- What may stand before the command. -/
def grammar : Grammar where
  options := commonOptions ++ [⟨"version", some 'V', .version⟩]
  operands := []
  commands := commandNames ++ ["help"]

/-- The greatest number of users that can be given. -/
def maxUsers : Nat := 4294967295

/-- The greatest port. -/
def maxPort : Nat := 65535

/-- The options of a command. -/
def commandOptions (name : String) : List OptionRule :=
  match name with
  | "announce" =>
    [⟨"host", some 'H', .text⟩, ⟨"port", some 'p', .number maxPort⟩, ⟨"protocol", none, .text⟩,
      ⟨"nsfm", none, .switch⟩, ⟨"private", none, .switch⟩]
  | "list" =>
    [⟨"nsfm", none, .switch⟩, ⟨"protocol", none, .text⟩, ⟨"title", none, .text⟩,
      ⟨"json", none, .switch⟩]
  | "update" =>
    [⟨"title", none, .text⟩, ⟨"users", none, .number maxUsers⟩, ⟨"usernames", none, .text⟩,
      ⟨"nsfm", none, .text⟩, ⟨"password", none, .text⟩, ⟨"unlist", none, .switch⟩]
  | "run" => [⟨"host", some 'H', .text⟩]
  | _ => []

/-- The operands of a command. Response files and the URL are one list, of which the last is the
URL. -/
def commandOperands (name : String) : List OperandRule :=
  match name with
  | "roomcode" => [.one "url", .one "code"]
  | "update" => [.several "args" 2]
  | _ => [.one "url"]

/-- What may follow a command. -/
def commandGrammar (name : String) : Grammar where
  options := commandOptions name ++ commonOptions
  operands := commandOperands name
  commands := []

/-- Reads what follows a command. -/
def scanCommand (name : String) (arguments : List String) : Except UsageError Scan := do
  let g := commandGrammar name
  let (s, _) ← Scan.readAll g (.start g) arguments
  s.settle

/-- The command of a name and of what follows it. -/
def readCommand (name : String) (s : Scan) : Except UsageError Command :=
  match name with
  | "announce" => do
    return .announce (← s.operand "url")
      { host := s.value? "host", port := (s.number? "port" maxPort).map UInt16.ofNat,
        protocol := s.value? "protocol", nsfm := s.has "nsfm", isPrivate := s.has "private" }
  | "list" => do
    return .list (← s.operand "url")
      { nsfm := s.has "nsfm", protocol := s.value? "protocol", title := s.value? "title" }
      (s.has "json")
  | "roomcode" => do return .roomCode (← s.operand "url") (← s.operand "code")
  | "update" => do
    let url ← s.operand "args"
    return .update (s.values "args").dropLast url
      { title := s.value? "title", users := (s.number? "users" maxUsers).map UInt32.ofNat,
        usernames := s.value? "usernames", nsfm := s.value? "nsfm",
        password := s.value? "password" }
      (s.has "unlist")
  | "run" => do return .run (← s.operand "url") (s.value? "host")
  | _ => .error (.unknownCommand name)

/-- Answers a request for help on a command: it has to be one. -/
def help : List String → UsageError
  | [] => .helpAsked
  | name :: rest =>
    if !grammar.commands.contains name then .unknownCommand name
    else match rest with
      | [] => .helpAsked
      | next :: _ => .unknownCommand next

end SessionDirectory.CommandLine

namespace SessionDirectory

open CommandLine

/-- The invocation that a command line asks for. What follows the command is read before the
options in front of it are checked, and where both give a configuration file the later counts. -/
def Invocation.read (arguments : List String) : Except UsageError Invocation := do
  match ← Scan.readAll grammar (.start grammar) arguments with
  | (s, none) =>
    let s ← s.settle
    throw (if s.found.isEmpty then .nothingGiven else .missingCommand)
  | (_, some ("help", rest)) =>
    throw (help rest)
  | (s, some (name, rest)) =>
    let inner ← scanCommand name rest
    let command ← readCommand name inner
    let outer ← s.settle
    return ⟨(inner.value? "config").orElse fun _ => outer.value? "config",
      inner.has "verbose" || outer.has "verbose", command⟩

end SessionDirectory
