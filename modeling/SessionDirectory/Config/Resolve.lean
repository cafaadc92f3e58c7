import SessionDirectory.Cause
import SessionDirectory.Config.Basic
import SessionDirectory.Toml.Document

/-!
# Resolving the configuration

The configuration comes in layers: built-in defaults, then a TOML file, then environment
variables. The command line comes on top of it, in the commands.

## Main definitions

* `Config.ofToml`: the configuration of a document
* `Config.withEnvironment`: environment variables on top
* `Config.defaultPath?`: where the user's own file is
* `Config.load`: the whole resolution
-/

set_option autoImplicit false

namespace SessionDirectory

/-- The variables that are set. -/
abbrev Environment := String → Option String

/-- Why the configuration cannot be resolved. -/
inductive ConfigError where
  /-- The document is no configuration. -/
  | invalidToml
  /-- The file cannot be read. -/
  | unreadableFile (path : String) (cause : FileFault)
  /-- The document in a file is no configuration. -/
  | invalidFile (path : String)
  /-- The variable for the port is no port. -/
  | invalidPort (value : String) (cause : Decimal.Fault)
  /-- The variable for the timeout is no number. -/
  | invalidTimeout (value : String) (cause : Decimal.Fault)
  deriving DecidableEq, Repr

/-- The chain of causes. -/
def ConfigError.causes : ConfigError → List Cause
  | .invalidToml => [.text "Invalid config TOML", .toml]
  | .unreadableFile path cause => [.text ("Failed to read config file: " ++ path), .file cause]
  | .invalidFile path =>
    [.text ("Failed to parse config file: " ++ path), .text "Invalid config TOML", .toml]
  | .invalidPort value cause =>
    [.text ("SESSIONLIST_PORT is not a valid port: " ++ value), .numeral cause]
  | .invalidTimeout value cause =>
    [.text ("SESSIONLIST_TIMEOUT_SECS is not a number: " ++ value), .numeral cause]

namespace Toml

/-- The fields of a section: a table has them by name, an array in their order. A date has no
field of any section. -/
def sectionFields? (names : List String) : Value → Option (String → Option Value)
  | .table _ members => some fun name => find? name members
  | .array items => some fun name => items[names.idxOf name]?
  | .tables elements => some fun name => elements.reverse[names.idxOf name]?
  | .dateTime => some fun _ => none
  | _ => none

/-- A text. -/
def text? : Value → Option String
  | .string s => some s
  | _ => none

/-- A truth value. -/
def flag? : Value → Option Bool
  | .boolean b => some b
  | _ => none

/-- A whole number between two bounds. -/
def whole? (least greatest : Int) : Value → Option Int
  | .integer n => if least ≤ n ∧ n ≤ greatest then some n else none
  | _ => none

/-- An unsigned 16-bit number. -/
def uint16? (v : Value) : Option UInt16 :=
  (whole? 0 65535 v).map fun n => UInt16.ofNat n.toNat

/-- An unsigned 64-bit number. -/
def uint64? (v : Value) : Option UInt64 :=
  (whole? 0 18446744073709551615 v).map fun n => UInt64.ofNat n.toNat

/-- A signed 64-bit number. -/
def int64? (v : Value) : Option Int64 :=
  (whole? (-9223372036854775808) 9223372036854775807 v).map Int64.ofInt

/-- A field with a value for when it is absent. -/
def fieldOr {α : Type} (absent : α) (read? : Value → Option α) : Option Value → Option α
  | none => some absent
  | some v => read? v

end Toml

namespace AnnounceDefaults

/-- The fields of the section, in the order of its array form. -/
def fieldNames : List String := ["host", "port", "protocol", "owner", "title"]

/-- Reads the section; absent fields have their defaults. -/
def ofToml? (v : Toml.Value) : Option AnnounceDefaults := do
  let get ← Toml.sectionFields? fieldNames v
  let builtIn : AnnounceDefaults := {}
  let host ← Toml.fieldOr builtIn.host Toml.text? (get "host")
  let port ← Toml.fieldOr builtIn.port Toml.uint16? (get "port")
  let protocol ← Toml.fieldOr builtIn.protocol Toml.text? (get "protocol")
  let owner ← Toml.fieldOr builtIn.owner Toml.text? (get "owner")
  let title ← Toml.fieldOr builtIn.title Toml.text? (get "title")
  return ⟨host, port, protocol, owner, title⟩

end AnnounceDefaults

namespace LifecycleConfig

/-- Reads the section; absent fields have their defaults. -/
def ofToml? (v : Toml.Value) : Option LifecycleConfig := do
  let get ← Toml.sectionFields? fieldNames v
  let builtIn : LifecycleConfig := {}
  let lease ← Toml.fieldOr builtIn.defaultLeaseMinutes Toml.int64? (get "default_lease_minutes")
  let margin ← Toml.fieldOr builtIn.refreshMarginSecs Toml.uint64? (get "refresh_margin_secs")
  let least ← Toml.fieldOr builtIn.minRefreshSecs Toml.uint64? (get "min_refresh_secs")
  let cleanup ←
    Toml.fieldOr builtIn.unlistOnRefreshFailure Toml.flag? (get "unlist_on_refresh_failure")
  return ⟨lease, margin, least, cleanup⟩

end LifecycleConfig

namespace HttpConfig

/-- The fields of the section, in the order of its array form. -/
def fieldNames : List String := ["connect_timeout_secs", "timeout_secs", "user_agent"]

/-- Reads the section; absent fields have their defaults. -/
def ofToml? (v : Toml.Value) : Option HttpConfig := do
  let get ← Toml.sectionFields? fieldNames v
  let builtIn : HttpConfig := {}
  let connect ← Toml.fieldOr builtIn.connectTimeoutSecs Toml.uint64? (get "connect_timeout_secs")
  let total ← Toml.fieldOr builtIn.timeoutSecs Toml.uint64? (get "timeout_secs")
  let agent ← Toml.fieldOr builtIn.userAgent Toml.text? (get "user_agent")
  return ⟨connect, total, agent⟩

end HttpConfig

namespace Config

/-- Reads the sections of a document; unknown keys do not count. -/
def ofMembers? (members : Toml.Members) : Option Config := do
  let announce ← Toml.fieldOr {} AnnounceDefaults.ofToml? (Toml.find? "announce" members)
  let lifecycle ← Toml.fieldOr {} LifecycleConfig.ofToml? (Toml.find? "lifecycle" members)
  let http ← Toml.fieldOr {} HttpConfig.ofToml? (Toml.find? "http" members)
  return ⟨announce, lifecycle, http⟩

/-- The configuration of a document. -/
def ofToml (s : String) : Except ConfigError Config :=
  match (Toml.parse? s).bind ofMembers? with
  | some config => .ok config
  | none => .error .invalidToml

/-- Sets the host from its variable. -/
def withHostVariable (env : Environment) (c : Config) : Config :=
  { c with announce.host := (env "SESSIONLIST_HOST").getD c.announce.host }

/-- Sets the port from its variable. -/
def withPortVariable (env : Environment) (c : Config) : Except ConfigError Config :=
  match env "SESSIONLIST_PORT" with
  | none => .ok c
  | some value =>
    match Decimal.readUnsigned 65535 value with
    | .ok n => .ok { c with announce.port := UInt16.ofNat n }
    | .error cause => .error (.invalidPort value cause)

/-- Sets protocol and owner from their variables. -/
def withNameVariables (env : Environment) (c : Config) : Config :=
  { c with
    announce.protocol := (env "SESSIONLIST_PROTOCOL").getD c.announce.protocol
    announce.owner := (env "SESSIONLIST_OWNER").getD c.announce.owner }

/-- Sets the timeout from its variable. -/
def withTimeoutVariable (env : Environment) (c : Config) : Except ConfigError Config :=
  match env "SESSIONLIST_TIMEOUT_SECS" with
  | none => .ok c
  | some value =>
    match Decimal.readUnsigned 18446744073709551615 value with
    | .ok n => .ok { c with http.timeoutSecs := UInt64.ofNat n }
    | .error cause => .error (.invalidTimeout value cause)

/-- The configuration with the environment variables on top; of two bad ones the port's fault is
reported. -/
def withEnvironment (env : Environment) (c : Config) : Except ConfigError Config := do
  let c ← withPortVariable env (withHostVariable env c)
  withTimeoutVariable env (withNameVariables env c)

/-- A path under a directory. -/
def joinPath (dir name : String) : String :=
  if dir.toList.getLast? = some '/' then dir ++ name else dir ++ "/" ++ name

/-- Whether a path starts at the root of the file system. -/
def isAbsolute (path : String) : Bool := path.toList.head? = some '/'

/-- Where the user's own configuration file is: in the directory for configurations, which has to
be an absolute path, or else under the home directory. -/
def defaultPath? (env : Environment) (accountHome : Option String) : Option String :=
  let home := ((env "HOME").filter (!·.isEmpty)).orElse fun _ => accountHome
  let dir := ((env "XDG_CONFIG_HOME").filter isAbsolute).orElse fun _ =>
    home.map (joinPath · ".config")
  dir.map fun dir => joinPath (joinPath dir "sessionlist") "config.toml"

/-- The path of the file that is read, if one is: a given one, or the user's own. -/
def path? (env : Environment) (accountHome given : Option String) : Option String :=
  given.orElse fun _ => defaultPath? env accountHome

/-- The configuration of a file. -/
def ofFile (files : Files) (path : String) : Except ConfigError Config :=
  match files path with
  | .error cause => .error (.unreadableFile path cause)
  | .ok text =>
    match ofToml text with
    | .ok config => .ok config
    | .error _ => .error (.invalidFile path)

/-- Resolves the configuration: a given file must be there, the user's own file need not. -/
def load (files : Files) (env : Environment) (accountHome path : Option String) :
    Except ConfigError Config := do
  let fromFile ← match path with
    | some path => ofFile files path
    | none =>
      match (defaultPath? env accountHome).filter files.isPresent with
      | some path => ofFile files path
      | none => .ok {}
  withEnvironment env fromFile

end Config

end SessionDirectory
