import SessionDirectory.Announcement
import SessionDirectory.Query
import SessionDirectory.Update.Fields

/-!
# Commands

What the program can be asked to do.

## Main definitions

* `Command`: a command with its arguments
* `Invocation`: a command with what is said about the program as a whole
-/

set_option autoImplicit false

namespace SessionDirectory

/-- A command with its arguments; every one of them names a list server by its URL. -/
inductive Command where
  /-- Announce a test session and print the answer. -/
  | announce (url : String) (options : AnnounceOptions)
  /-- Print the public list, as a table or as JSON. -/
  | list (url : String) (query : SessionQuery) (json : Bool)
  /-- Print how to join the session of a room code. -/
  | roomCode (url : String) (code : String)
  /-- Update the listings of response files, or remove them. -/
  | update (files : List String) (url : String) (overrides : UpdateOverrides) (unlist : Bool)
  /-- Announce a test session and keep it listed until the program is interrupted. -/
  | run (url : String) (host : Option String)
  deriving DecidableEq

/-- A command with what is said about the program as a whole. -/
structure Invocation where
  /-- The configuration file to use. -/
  config : Option String
  /-- Whether requests and answers are to be logged. -/
  verbose : Bool
  command : Command
  deriving DecidableEq

end SessionDirectory
