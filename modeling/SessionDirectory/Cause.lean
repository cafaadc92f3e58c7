import SessionDirectory.Files.Basic
import SessionDirectory.Json.Read

/-!
# Causes

An error that is shown to a user is a chain of causes, the outermost first: what could not be done,
why that failed, and so on down to what a file, a text or the network has to answer for.

## Main definitions

* `Cause`: a link of the chain
* `Cause.line`: the chain on one line
* `Cause.report`: the chain on several lines
-/

set_option autoImplicit false

namespace SessionDirectory

/-- A link in a chain of causes. -/
inductive Cause where
  /-- A sentence of this program. -/
  | text (message : String)
  /-- A text that is not the JSON it should be. -/
  | json (fault : Json.Error)
  /-- A text that is not the TOML it should be. -/
  | toml
  /-- A file that cannot be read. -/
  | file (fault : FileFault)
  /-- A text that is not the number it should be. -/
  | numeral (fault : Decimal.Fault)
  /-- A request that found no answer. -/
  | network
  deriving DecidableEq, Repr

namespace Cause

/-- The cause in words. -/
def message : Cause → String
  | .text message => message
  | .json fault => fault.message
  | .toml => "not a configuration document"
  | .file fault => fault.message
  | .numeral fault => fault.message
  | .network => "no usable connection"

/-- The chain on one line. -/
def line (causes : List Cause) : String := ": ".intercalate (causes.map message)

/-- The chain on several lines; two causes or more of one error are numbered. -/
def report : List Cause → String
  | [] => ""
  | [only] => only.message
  | [outer, cause] => outer.message ++ "\n\nCaused by:\n    " ++ cause.message
  | outer :: causes =>
    outer.message ++ "\n\nCaused by:"
      ++ String.join (causes.zipIdx.map fun (c, i) =>
        "\n    " ++ Decimal.text i ++ ": " ++ c.message)

end Cause

end SessionDirectory
