import SessionDirectory.Listing.Id

/-!
# Replies of the list server

What the server answers to an announcement, to a refresh and to the lookup of a room code.

## Main definitions

* `AnnounceReply`: the answer to an announcement; every field is optional
* `AnnounceReply.credential?`, `AnnounceReply.lease`: the parts that keep a listing alive
* `RefreshReply`: the answer to a refresh
* `JoinInfo`: how to join a session

## Main results

* `AnnounceReply.credential?_eq_some_iff`: a reply has a credential if it has both halves of it
-/

set_option autoImplicit false

namespace SessionDirectory

open Json (Raw Value Error)

/-- How long a listing lasts unless it is refreshed, and what the server has to say. -/
structure Lease where
  minutes : Int64
  message : Option String
  deriving DecidableEq

/-- The answer to an announcement. -/
structure AnnounceReply where
  id : Option ListingId
  key : Option String
  expires : Option Int64
  message : Option String
  roomcode : Option String
  isPrivate : Option Bool
  deriving DecidableEq

namespace AnnounceReply

/-- The fields of the record, in the order of its array form. -/
def fieldNames : List String := ["id", "key", "expires", "message", "roomcode", "private"]

/-- Reads the reply. -/
def read (r : Raw) : Except Error AnnounceReply := do
  let get ← r.record fieldNames
  let id ← Raw.optionalField ListingId.read (get "id")
  let key ← Raw.optionalField Raw.text (get "key")
  let expires ← Raw.optionalField Raw.int64 (get "expires")
  let message ← Raw.optionalField Raw.text (get "message")
  let roomcode ← Raw.optionalField Raw.text (get "roomcode")
  let isPrivate ← Raw.optionalField Raw.flag (get "private")
  return ⟨id, key, expires, message, roomcode, isPrivate⟩

/-- Reads the text of a reply. -/
def parse (s : String) : Except Error AnnounceReply := Raw.parse s >>= read

/-- The credential, if the server sent both halves of it. -/
def credential? (r : AnnounceReply) : Option Credential :=
  match r.id, r.key with
  | some id, some key => some ⟨id, key⟩
  | _, _ => none

theorem credential?_eq_some_iff {r : AnnounceReply} {c : Credential} :
    r.credential? = some c ↔ r.id = some c.id ∧ r.key = some c.key := by
  unfold credential?
  cases id : r.id with
  | none => simp
  | some i =>
    cases key : r.key with
    | none => simp
    | some k =>
      cases c
      simp

/-- The lease: the default length where the server names none, and no empty message. -/
def lease (r : AnnounceReply) (defaultMinutes : Int64) : Lease :=
  ⟨r.expires.getD defaultMinutes, r.message.filter (!·.isEmpty)⟩

end AnnounceReply

/-- The answer to a refresh, of which only the message is of interest. -/
structure RefreshReply where
  message : Option String
  deriving DecidableEq

namespace RefreshReply

/-- The fields of the record, in the order of its array form. -/
def fieldNames : List String := ["message"]

/-- Reads the reply. -/
def read (r : Raw) : Except Error RefreshReply := do
  let get ← r.record fieldNames
  let message ← Raw.optionalField Raw.text (get "message")
  return ⟨message⟩

/-- Reads the text of a reply. -/
def parse (s : String) : Except Error RefreshReply := Raw.parse s >>= read

/-- What the server has to say in the text of a reply, if it says anything. -/
def messageOf (s : String) : Option String :=
  match parse s with
  | .ok r => r.message.filter (!·.isEmpty)
  | .error _ => none

end RefreshReply

/-- Where a session can be joined. -/
structure JoinInfo where
  host : String
  port : UInt16
  id : String
  deriving DecidableEq

namespace JoinInfo

/-- The fields of the record, in the order of its array form. -/
def fieldNames : List String := ["host", "port", "id"]

/-- Reads the record. -/
def read (r : Raw) : Except Error JoinInfo := do
  let get ← r.record fieldNames
  let host ← Raw.required "host" Raw.text (get "host")
  let port ← Raw.required "port" Raw.uint16 (get "port")
  let id ← Raw.required "id" Raw.text (get "id")
  return ⟨host, port, id⟩

/-- Reads the text of a record. -/
def parse (s : String) : Except Error JoinInfo := Raw.parse s >>= read

/-- The record as JSON. -/
def toJson (j : JoinInfo) : Value :=
  .object [("host", .string j.host), ("port", .number (.integer (.ofUInt16 j.port))),
    ("id", .string j.id)]

end JoinInfo

end SessionDirectory
