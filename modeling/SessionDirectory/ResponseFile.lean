import SessionDirectory.Directory.Dialogue

/-!
# Response files

The answer to an announcement can be saved and handed back later, to change or to remove the
listing. The file is a JSON record with the id and the key of the listing and, if wanted, fields to
update.

## Main definitions

* `StoredListing`: a file whose credential has been checked
* `StoredListing.load`, `StoredListing.loadAll`: reading one file, and several
* `StoredListing.merge`: what a file and the command line together ask for
* `submitUpdates`, `submitUnlists`: sending it
-/

set_option autoImplicit false

namespace SessionDirectory

open Json (Raw Error)

/-- What a response file holds. -/
structure ResponseFile where
  id : Option ListingId
  key : Option String
  updates : UpdateFields

namespace ResponseFile

/-- The fields of the record, in the order of its array form. -/
def fieldNames : List String := ["id", "key", "updates"]

/-- Reads the record; the updates are one level inside of it. -/
def read (r : Raw) : Except Error ResponseFile := do
  let get ← r.record fieldNames
  let id ← Raw.optionalField ListingId.read (get "id")
  let key ← Raw.optionalField Raw.text (get "key")
  let updates ← Raw.defaulted SortedMap.empty (UpdateFields.read (Json.maxDepth - 1)) (get "updates")
  return ⟨id, key, updates⟩

/-- Reads the text of a file. -/
def parse (s : String) : Except Error ResponseFile := Raw.parse s >>= read

end ResponseFile

/-- Why a file names no listing. -/
inductive StoredListingError where
  | unreadable (path : String) (cause : FileFault)
  | notResponse (path : String) (cause : Json.Error)
  | missingId (path : String)
  | missingKey (path : String)
  deriving DecidableEq, Repr

/-- The chain of causes. -/
def StoredListingError.causes : StoredListingError → List Cause
  | .unreadable path cause => [.text ("Failed to read response file: " ++ path), .file cause]
  | .notResponse path cause => [.text (path ++ ": not a valid response file"), .json cause]
  | .missingId path => [.text (path ++ ": Listing ID not set in response file!")]
  | .missingKey path => [.text (path ++ ": Update key not set in response file!")]

/-- A listing named by a file, with its credential. -/
structure StoredListing where
  source : String
  credential : Credential
  updates : UpdateFields

namespace StoredListing

/-- Checks the text of a file: neither the id nor the key may be missing or empty, and the id may
not be `0`. -/
def parse (path text : String) : Except StoredListingError StoredListing :=
  match ResponseFile.parse text with
  | .error cause => .error (.notResponse path cause)
  | .ok file =>
    match file.id.filter fun id => !id.isEmpty && id.toText ≠ "0" with
    | none => .error (.missingId path)
    | some id =>
      match file.key.filter fun key => !key.isEmpty with
      | none => .error (.missingKey path)
      | some key => .ok ⟨path, ⟨id, key⟩, file.updates⟩

/-- Reads and checks one file. -/
def load (files : Files) (path : String) : Except StoredListingError StoredListing :=
  match files path with
  | .error cause => .error (.unreadable path cause)
  | .ok text => parse path text

/-- Reads several files, up to the first bad one. -/
def loadAll (files : Files) (paths : List String) :
    Except StoredListingError (List StoredListing) :=
  paths.mapM (load files)

/-- The stored updates with overrides on top. -/
def merge (listing : StoredListing) (overrides : UpdateFields) : PendingUpdate :=
  ⟨listing.credential, listing.updates.mergedWith overrides⟩

end StoredListing

/-- Why updates could not be sent. -/
inductive SubmitError where
  | noListing
  | directory (cause : DirectoryError)
  deriving DecidableEq, Repr

/-- The chain of causes. -/
def SubmitError.causes : SubmitError → List Cause
  | .noListing => [.text "at least one listing is required for an update"]
  | .directory cause => cause.causes

/-- The one call that sends updates: a plain one for one listing, a batch for several. -/
def updateCall? : List PendingUpdate → Option Call
  | [] => none
  | [p] => some (.update p.credential.id p.credential.key p.fields)
  | ps => some (.batchUpdate (BatchUpdate.ofPending ps))

/-- Sends updates in one call. -/
def submitUpdates (ps : List PendingUpdate) : Dialogue (Except SubmitError Response) :=
  match updateCall? ps with
  | none => .done (.error .noListing)
  | some call => (Dialogue.single call).map (·.mapError .directory)

/-- The call that removes a listing. -/
def unlistCall (p : PendingUpdate) : Call := .unlist p.credential.id p.credential.key

/-- Why a listing could not be removed. -/
structure UnlistError where
  id : ListingId
  cause : DirectoryError
  deriving DecidableEq

/-- The chain of causes. -/
def UnlistError.causes (e : UnlistError) : List Cause :=
  .text ("Failed to unlist " ++ e.id.toText) :: e.cause.causes

/-- Removes every listing with a call of its own; all are tried. -/
def submitUnlists (ps : List PendingUpdate) :
    Dialogue (List (Except UnlistError Response)) :=
  (Dialogue.askAll (ps.map unlistCall)).map fun answers =>
    List.zipWith (fun p answer => answer.mapError (UnlistError.mk p.credential.id)) ps answers

end SessionDirectory
