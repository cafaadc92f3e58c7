import SessionDirectory.Announcement
import SessionDirectory.Cause
import SessionDirectory.Query
import SessionDirectory.Update.Batch

/-!
# The list server

The operations of a list server and its answers. Every answer is a status and a body; statuses
other than 200 are no errors here. A server is any function from the calls made so far and the
call at hand to an answer, so its answers may depend on all that came before.

## Main definitions

* `Response`: status and body
* `DirectoryError`: why there is no answer
* `Call`: an operation with its arguments
* `Answer`: what comes of a call
* `Directory`: the behaviour of a server
-/

set_option autoImplicit false

namespace SessionDirectory

/-- The answer of the server. -/
structure Response where
  status : UInt16
  body : String
  deriving DecidableEq

namespace Response

/-- Whether the status is exactly 200, as announcements and refreshes require. -/
def isOk (r : Response) : Bool := r.status = 200

/-- Whether the status is 200 or 204, as an unlisting may answer. -/
def isOkOrNoContent (r : Response) : Bool := r.status = 200 || r.status = 204

/-- Whether the status is one of success. -/
def isSuccess (r : Response) : Bool := 200 ≤ r.status && r.status < 300

/-- The body as a free-form value. -/
def json (r : Response) : Except Json.Error Json.Value := Json.Value.parse r.body

end Response

/-- An operation of the list server, with its arguments. -/
inductive Call where
  | announce (session : Announcement)
  | query (query : SessionQuery)
  | roomCode (code : String)
  | update (id : ListingId) (key : String) (fields : UpdateFields)
  | batchUpdate (batch : BatchUpdate)
  | unlist (id : ListingId) (key : String)

/-- The kinds of operations. -/
inductive Operation where
  | announce
  | query
  | roomCode
  | update
  | batchUpdate
  | unlist
  deriving DecidableEq, Repr

/-- The kind of an operation in words. -/
def Operation.name : Operation → String
  | .announce => "announce"
  | .query => "query"
  | .roomCode => "room code lookup"
  | .update => "update"
  | .batchUpdate => "batch update"
  | .unlist => "unlist"

/-- The kind of a call. -/
def Call.operation : Call → Operation
  | .announce _ => .announce
  | .query _ => .query
  | .roomCode _ => .roomCode
  | .update _ _ _ => .update
  | .batchUpdate _ => .batchUpdate
  | .unlist _ _ => .unlist

/-- Why the server cannot be talked to. -/
inductive DirectoryError where
  /-- The address of the server is no URL. -/
  | invalidUrl (url : String) (reason : String)
  /-- The configured name of the client cannot be sent. -/
  | client
  /-- A request could not be sent or its answer not received. -/
  | transport (operation : Operation)
  deriving DecidableEq, Repr

/-- What is wrong, in words. -/
def DirectoryError.message : DirectoryError → String
  | .invalidUrl url reason => "invalid list server URL '" ++ url ++ "': " ++ reason
  | .client => "failed to create HTTP client"
  | .transport operation => operation.name ++ " request failed"

/-- The chain of causes. -/
def DirectoryError.causes (e : DirectoryError) : List Cause :=
  match e with
  | .invalidUrl _ _ => [.text e.message]
  | .client | .transport _ => [.text e.message, .network]

/-- What comes of a call. -/
abbrev Answer := Except DirectoryError Response

/-- The behaviour of a list server: its answer to a call, given the calls before. -/
abbrev Directory := List Call → Call → Answer

end SessionDirectory
