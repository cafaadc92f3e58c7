import SessionDirectory.Directory.Basic
import SessionDirectory.Url.Basic

/-!
# HTTP client

How the operations of a list server become HTTP requests under the root of its API.

## Main definitions

* `Client.new`: a client for a root URL and a configuration
* `Request`: a request as sent
* `Client.request?`: the request of a call
* `Exchange`: what a network answers to requests
* `Client.directory`: the list server seen through a network
-/

set_option autoImplicit false

namespace SessionDirectory

/-- The URL with a slash at its end, so that paths can be appended. -/
def normalizeBaseUrl (url : String) : String :=
  if url.toList.getLast? = some '/' then url else url ++ "/"

/-- Whether a text can be the value of a header: it holds no controls but tabs. -/
def isHeaderValue (s : String) : Bool :=
  s.toList.all fun c => c = '\t' || (0x20 ≤ c.toNat && c ≠ '\x7f')

/-- A client for one list server. -/
structure Client where
  /-- The root of the API, as given but with a slash at its end. -/
  baseUrl : String
  http : HttpConfig
  deriving DecidableEq

/-- A request as sent. -/
structure Request where
  method : String
  url : Url
  userAgent : String
  /-- The header that proves ownership of a listing. -/
  updateKey : Option String
  /-- A JSON body. -/
  body : Option String
  deriving DecidableEq

/-- The header that carries the update key of a listing. -/
def updateKeyHeader : String := "X-Update-Key"

/-- The media type of request bodies. -/
def bodyContentType : String := "application/json"

/-- What came of a request: an answer, or nothing. -/
abbrev Exchange := List Request → Request → Option Response

namespace Client

/-- A client for a root URL. The URL is checked before the configuration. -/
def new (url : String) (http : HttpConfig) : Except DirectoryError Client :=
  let baseUrl := normalizeBaseUrl url
  match Url.parse baseUrl with
  | .error e => .error (.invalidUrl baseUrl e.message)
  | .ok _ => if isHeaderValue http.userAgent then .ok ⟨baseUrl, http⟩ else .error .client

/-- The URL text of a path under the root. -/
def urlText (c : Client) (path : String) : String := c.baseUrl ++ path

/-- The method of a call. -/
def method : Call → String
  | .announce _ => "POST"
  | .query _ | .roomCode _ => "GET"
  | .update _ _ _ | .batchUpdate _ => "PUT"
  | .unlist _ _ => "DELETE"

/-- The path of a call under the root. -/
def path : Call → String
  | .announce _ | .query _ | .batchUpdate _ => "sessions/"
  | .roomCode code => "join/" ++ code
  | .update id _ _ | .unlist id _ => "sessions/" ++ id.toText

/-- The query pairs of a call. -/
def pairs : Call → List (String × String)
  | .query q => q.pairs
  | _ => []

/-- The update key that a call carries in its header. -/
def updateKey : Call → Option String
  | .update _ key _ | .unlist _ key => some key
  | _ => none

/-- The body of a call. -/
def body : Call → Option String
  | .announce session => some session.requestBody.compact
  | .update _ _ fields => some fields.requestBody.compact
  | .batchUpdate batch => some batch.requestBody.compact
  | _ => none

/-- The URL of a call. -/
def url (c : Client) (call : Call) : Except Url.Error Url :=
  (Url.parse (c.urlText (path call))).map fun u =>
    if pairs call = [] then u else u.withPairs (pairs call)

/-- The request of a call, if it can be sent: over HTTP, and with a key that is a header value. -/
def request? (c : Client) (call : Call) : Option Request :=
  match c.url call with
  | .error _ => none
  | .ok u =>
    if u.isHttp && (updateKey call).all isHeaderValue then
      some ⟨method call, u, c.http.userAgent, updateKey call, body call⟩
    else none

/-- The text of an answer: a byte order mark before it does not count. -/
def receive (r : Response) : Response :=
  match r.body.toList with
  | '\ufeff' :: rest => { r with body := String.ofList rest }
  | _ => r

/-- The requests of calls that could be sent. -/
def requests (c : Client) (calls : List Call) : List Request := calls.filterMap c.request?

/-- The list server seen through a network. -/
def directory (c : Client) (exchange : Exchange) : Directory := fun past call =>
  match c.request? call with
  | none => .error (.transport call.operation)
  | some request =>
    match exchange (c.requests past) request with
    | none => .error (.transport call.operation)
    | some response => .ok (receive response)

end Client

end SessionDirectory
