import SessionDirectory.Listing.Id
import SessionDirectory.Update.Fields

/-!
# Batch updates

Updates of several listings in one request. Each entry carries its own update key.

## Main definitions

* `PendingUpdate`: the fields to send for one listing
* `BatchUpdate`: entries by listing id
* `BatchUpdate.add`, `BatchUpdate.replace`: the update of one more listing
* `BatchUpdate.ofPending`: the batch of a list of updates; of several for one id the last counts
* `BatchUpdate.requestBody`: the body of the request
-/

set_option autoImplicit false

namespace SessionDirectory

open Json (Value)

/-- The fields to send for one listing, with the credential that allows it. -/
structure PendingUpdate where
  credential : Credential
  fields : UpdateFields

/-- One listing's part of a batch. -/
structure BatchEntry where
  key : String
  fields : UpdateFields

/-- Updates of several listings, by listing id. -/
abbrev BatchUpdate := SortedMap ListingId BatchEntry

/-- The name of the member that carries the update key. -/
def batchKeyField : String := "updatekey"

/-- The entry as JSON. The update key is put in last, so that no field of its name hides it. -/
def BatchEntry.toJson (e : BatchEntry) : Value :=
  .object (e.fields.insert batchKeyField (.string e.key)).entries

namespace BatchUpdate

/-- Adds the update of one listing; an entry of the same id is replaced. -/
def add (b : BatchUpdate) (p : PendingUpdate) : BatchUpdate :=
  b.insert p.credential.id ⟨p.credential.key, p.fields⟩

/-- Adds the update of one listing, and returns the entry that it replaces. -/
def replace (b : BatchUpdate) (p : PendingUpdate) : Option BatchEntry × BatchUpdate :=
  b.exchange p.credential.id ⟨p.credential.key, p.fields⟩

/-- The batch of a list of updates. -/
def ofPending (ps : List PendingUpdate) : BatchUpdate := ps.foldl add SortedMap.empty

/-- The members of the body: the entries under the texts of their ids. -/
def members (b : BatchUpdate) : SortedMap String Value :=
  SortedMap.ofList (b.entries.map fun e => (e.1.toText, e.2.toJson))

/-- The body of the request, its members sorted. -/
def requestBody (b : BatchUpdate) : Value := (Value.object b.members.entries).sortKeys

end BatchUpdate

end SessionDirectory
