import SessionDirectory.Json.Read
import SessionDirectory.Calendar.Instant

/-!
# Records of the public list

One entry of the list of sessions that the server publishes.

## Main definitions

* `SessionRecord`: an entry
* `SessionRecord.toJson`, `SessionRecord.read`: the entry as JSON
* `SessionRecord.startedAt?`: when the session started
-/

set_option autoImplicit false

namespace SessionDirectory

open Json (Raw Value Error)

/-- An entry of the public list. -/
structure SessionRecord where
  host : String
  port : UInt16
  id : String
  protocol : String
  title : String
  users : UInt32
  usernames : List String
  password : Bool
  nsfm : Bool
  owner : String
  started : String
  roomcode : Option String
  isPrivate : Option Bool
  deriving DecidableEq

namespace SessionRecord

/-- The fields of the record, in the order of its array form. -/
def fieldNames : List String :=
  ["host", "port", "id", "protocol", "title", "users", "usernames", "password", "nsfm", "owner",
    "started", "roomcode", "private"]

/-- Reads an entry; only host, port and id have to be there. -/
def read (r : Raw) : Except Error SessionRecord := do
  let get ← r.record fieldNames
  let host ← Raw.required "host" Raw.text (get "host")
  let port ← Raw.required "port" Raw.uint16 (get "port")
  let id ← Raw.required "id" Raw.text (get "id")
  let protocol ← Raw.defaulted "" Raw.text (get "protocol")
  let title ← Raw.defaulted "" Raw.text (get "title")
  let users ← Raw.defaulted 0 Raw.uint32 (get "users")
  let usernames ← Raw.defaulted [] Raw.texts (get "usernames")
  let password ← Raw.defaulted false Raw.flag (get "password")
  let nsfm ← Raw.defaulted false Raw.flag (get "nsfm")
  let owner ← Raw.defaulted "" Raw.text (get "owner")
  let started ← Raw.defaulted "" Raw.text (get "started")
  let roomcode ← Raw.optionalField Raw.text (get "roomcode")
  let isPrivate ← Raw.optionalField Raw.flag (get "private")
  return { host, port, id, protocol, title, users, usernames, password, nsfm, owner, started,
           roomcode, isPrivate }

/-- Reads the text of an entry. -/
def parse (s : String) : Except Error SessionRecord := Raw.parse s >>= read

/-- Reads the text of a list of entries. -/
def parseList (s : String) : Except Error (List SessionRecord) := do
  match ← Raw.parse s with
  | .array items => items.mapM read
  | _ => .error (.mismatch "a list of records")

/-- The entry as JSON; the room code and the private flag are left out when they are absent. -/
def toJson (r : SessionRecord) : Value :=
  .object <|
    [("host", .string r.host), ("port", .number (.integer (.ofUInt16 r.port))),
      ("id", .string r.id), ("protocol", .string r.protocol), ("title", .string r.title),
      ("users", .number (.integer (.ofUInt32 r.users))),
      ("usernames", Value.ofStrings r.usernames), ("password", .bool r.password),
      ("nsfm", .bool r.nsfm), ("owner", .string r.owner), ("started", .string r.started)]
    ++ (r.roomcode.map fun code => ("roomcode", Value.string code)).toList
    ++ (r.isPrivate.map fun b => ("private", Value.bool b)).toList

/-- When the session started, if its time stamp can be read. -/
def startedAt? (r : SessionRecord) : Option Calendar.Instant := Calendar.Instant.parse? r.started

end SessionRecord

end SessionDirectory
