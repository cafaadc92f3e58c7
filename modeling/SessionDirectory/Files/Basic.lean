/-!
# Files

What can be read from files, and why a file cannot be read.

## Main definitions

* `Files`: the text at a path, for every path
* `FileFault`: why there is none
* `Files.isPresent`: whether anything is at a path
-/

set_option autoImplicit false

namespace SessionDirectory

/-- Why a file cannot be read. -/
inductive FileFault where
  | notFound
  | isDirectory
  | notDirectory
  | notText
  | invalidName
  | denied
  deriving DecidableEq, Repr

/-- What is wrong with the file, in words. -/
def FileFault.message : FileFault → String
  | .notFound => "No such file or directory"
  | .isDirectory => "Is a directory"
  | .notDirectory => "Not a directory"
  | .notText => "stream did not contain valid UTF-8"
  | .invalidName => "file name contained an unexpected NUL byte"
  | .denied => "Permission denied"

/-- The files that can be read: the text at a path. -/
abbrev Files := String → Except FileFault String

/-- Whether something is at a path; a directory counts, and so does a file that is no text or may
not be read. -/
def Files.isPresent (files : Files) (path : String) : Bool :=
  match files path with
  | .ok _ => true
  | .error .isDirectory | .error .notText | .error .denied => true
  | .error _ => false

end SessionDirectory
