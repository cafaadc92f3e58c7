import SessionDirectory.Config.Basic
import SessionDirectory.Uuid

/-!
# Announcements

A session as it is announced to the list server.

## Main definitions

* `Announcement`: the announced session
* `Announcement.random`: the announcement of a test session, from drawn values
* `Announcement.read`, `Announcement.toJson`, `Announcement.requestBody`: the session as JSON
-/

set_option autoImplicit false

namespace SessionDirectory

open Json (Raw Value Error)

/-- A session as announced. The id is chosen by the announcing side and is not the listing id. -/
structure Announcement where
  id : String
  host : String
  port : UInt16
  protocol : String
  title : String
  users : UInt32
  usernames : List String
  password : Bool
  nsfm : Bool
  owner : String
  isPrivate : Bool
  deriving DecidableEq

/-- The values of a test session that are drawn by lot. -/
structure SessionDraw where
  /-- A fresh random identifier. -/
  id : String
  /-- A number of users from 1 to 255. -/
  users : UInt32
  /-- Whether the session has a password, with a chance of one in three. -/
  password : Bool

/-- The draw of random bytes for the identifier and of two random numbers. -/
def SessionDraw.ofRandom (idBytes : List UInt8) (m n : Nat) : SessionDraw where
  id := Uuid.ofBytes idBytes
  users := UInt32.ofNat (1 + m % 255)
  password := n % 3 = 0

/-- What the command line says about the announced session. -/
structure AnnounceOptions where
  host : Option String := none
  port : Option UInt16 := none
  protocol : Option String := none
  nsfm : Bool := false
  isPrivate : Bool := false
  deriving DecidableEq

namespace Announcement

/-- A session with the given id and the configured values. -/
def ofDefaults (d : AnnounceDefaults) (id : String) : Announcement where
  id := id
  host := d.host
  port := d.port
  protocol := d.protocol
  title := d.title
  users := 1
  usernames := []
  password := false
  nsfm := false
  owner := d.owner
  isPrivate := false

/-- A test session with drawn values. -/
def random (d : AnnounceDefaults) (draw : SessionDraw) : Announcement :=
  { ofDefaults d draw.id with users := draw.users, password := draw.password }

/-- The session at another host. -/
def withHost (a : Announcement) (host : String) : Announcement := { a with host }

/-- The session on another port. -/
def withPort (a : Announcement) (port : UInt16) : Announcement := { a with port }

/-- The session with another protocol version. -/
def withProtocol (a : Announcement) (protocol : String) : Announcement := { a with protocol }

/-- The session with or without the tag. -/
def withNsfm (a : Announcement) (nsfm : Bool) : Announcement := { a with nsfm }

/-- The session listed publicly or by room code only. -/
def withPrivate (a : Announcement) (isPrivate : Bool) : Announcement := { a with isPrivate }

/-- A test session with what the command line says on top. -/
def ofOptions (d : AnnounceDefaults) (options : AnnounceOptions) (draw : SessionDraw) :
    Announcement :=
  let a := ((random d draw).withNsfm options.nsfm).withPrivate options.isPrivate
  { a with
    host := options.host.getD a.host
    port := options.port.getD a.port
    protocol := options.protocol.getD a.protocol }

/-- What the command line says is put on one by one, where it says anything. -/
theorem ofOptions_eq (d : AnnounceDefaults) (options : AnnounceOptions) (draw : SessionDraw) :
    ofOptions d options draw =
      let tagged := ((random d draw).withNsfm options.nsfm).withPrivate options.isPrivate
      let hosted := options.host.elim tagged tagged.withHost
      let bound := options.port.elim hosted hosted.withPort
      options.protocol.elim bound bound.withProtocol := by
  obtain ⟨_ | host, _ | port, _ | protocol, nsfm, isPrivate⟩ := options <;> rfl

/-- The fields of the record, in the order of its array form. -/
def fieldNames : List String :=
  ["id", "host", "port", "protocol", "title", "users", "usernames", "password", "nsfm", "owner",
    "private"]

/-- Reads an announcement; only the user names may be absent. -/
def read (r : Raw) : Except Error Announcement := do
  let get ← r.record fieldNames
  let id ← Raw.required "id" Raw.text (get "id")
  let host ← Raw.required "host" Raw.text (get "host")
  let port ← Raw.required "port" Raw.uint16 (get "port")
  let protocol ← Raw.required "protocol" Raw.text (get "protocol")
  let title ← Raw.required "title" Raw.text (get "title")
  let users ← Raw.required "users" Raw.uint32 (get "users")
  let usernames ← Raw.defaulted [] Raw.texts (get "usernames")
  let password ← Raw.required "password" Raw.flag (get "password")
  let nsfm ← Raw.required "nsfm" Raw.flag (get "nsfm")
  let owner ← Raw.required "owner" Raw.text (get "owner")
  let isPrivate ← Raw.required "private" Raw.flag (get "private")
  return { id, host, port, protocol, title, users, usernames, password, nsfm, owner, isPrivate }

/-- Reads the text of an announcement. -/
def parse (s : String) : Except Error Announcement := Raw.parse s >>= read

/-- The announcement as JSON, in field order; an empty list of user names is left out. -/
def toJson (a : Announcement) : Value :=
  .object <|
    [("id", .string a.id), ("host", .string a.host),
      ("port", .number (.integer (.ofUInt16 a.port))), ("protocol", .string a.protocol),
      ("title", .string a.title), ("users", .number (.integer (.ofUInt32 a.users)))]
    ++ (if a.usernames.isEmpty then [] else [("usernames", Value.ofStrings a.usernames)])
    ++ [("password", .bool a.password), ("nsfm", .bool a.nsfm), ("owner", .string a.owner),
      ("private", .bool a.isPrivate)]

/-- The body of the request that announces the session, its members sorted. -/
def requestBody (a : Announcement) : Value := a.toJson.sortKeys

end Announcement

end SessionDirectory
