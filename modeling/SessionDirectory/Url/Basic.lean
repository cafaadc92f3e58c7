import SessionDirectory.Url.Form
import SessionDirectory.Url.Host

/-!
# URLs

The parts of an absolute URL, read as the URL standard says: blanks and controls around the text
and line breaks inside it do not count, a web address takes `\` for `/`, dot segments of the path
are resolved, and what may not stand in a path or in a query is percent-encoded.

## Main definitions

* `Url`: scheme, host, port, path and query; the fragment is never sent and is dropped
* `Url.parse`: the URL of a text
* `Url.target`: path and query as sent in a request
* `Url.withPairs`: the URL with pairs added to its query
-/

set_option autoImplicit false

namespace SessionDirectory

/-- An absolute URL. -/
structure Url where
  /-- The scheme, in lower case. -/
  scheme : String
  host : Option Url.Host
  /-- The port, unless it is the one of the scheme. -/
  port : Option Nat
  /-- The segments of the path, encoded. -/
  path : List (List Char)
  /-- Whether the path starts with a slash, as it does wherever there is a host. -/
  rooted : Bool
  query : Option (List Char)
  deriving DecidableEq, Repr

namespace Url

/-- Schemes that are treated alike: web addresses and files. -/
inductive SchemeKind where
  | web
  | file
  | other
  deriving DecidableEq

/-- The kind of a scheme. -/
def SchemeKind.of (scheme : String) : SchemeKind :=
  if ["http", "https", "ws", "wss", "ftp"].contains scheme then .web
  else if scheme = "file" then .file
  else .other

/-- The port that a scheme implies. -/
def defaultPort? (scheme : String) : Option Nat :=
  match scheme with
  | "http" | "ws" => some 80
  | "https" | "wss" => some 443
  | "ftp" => some 21
  | _ => none

/-- Blanks and controls, dropped at both ends of a URL. -/
def isControlOrSpace (c : Char) : Bool := c.toNat ≤ 0x20

/-- Tabs and line breaks, dropped anywhere in a URL. -/
def isTabOrNewline (c : Char) : Bool := c = '\t' || c = '\n' || c = '\r'

/-- The text that counts. -/
def clean (s : String) : List Char :=
  (((s.toList.dropWhile isControlOrSpace).reverse.dropWhile isControlOrSpace).reverse).filter
    (!isTabOrNewline ·)

/-- The characters of a scheme after its first letter. -/
def isSchemeChar (c : Char) : Bool := c.isAlphanum || c = '+' || c = '-' || c = '.'

/-- The scheme in lower case, and the text after its colon. -/
def splitScheme? (cs : List Char) : Option (String × List Char) :=
  match cs with
  | first :: rest =>
    if first.isAlpha then
      match rest.dropWhile isSchemeChar with
      | ':' :: after =>
        some (String.ofList ((first :: rest.takeWhile isSchemeChar).map Char.toLower), after)
      | _ => none
    else none
  | [] => none

/-- Whether a character separates the segments of a path. -/
def isSlash (kind : SchemeKind) (c : Char) : Bool := c = '/' || (kind ≠ .other && c = '\\')

/-- Whether a character ends the authority. -/
def endsAuthority (kind : SchemeKind) (c : Char) : Bool :=
  isSlash kind c || c = '?' || c = '#'

/-- The authority without user name and password: what follows its last `@`. -/
def dropUserInfo (cs : List Char) : List Char := (cs.reverse.takeWhile (· ≠ '@')).reverse

/-- The host and the text after it; a colon between brackets belongs to the host. -/
def splitHost (inBrackets : Bool) : List Char → List Char × List Char
  | [] => ([], [])
  | c :: rest =>
    if c = ':' ∧ ¬ inBrackets then ([], c :: rest)
    else
      let inBrackets := if c = '[' then true else if c = ']' then false else inBrackets
      let (host, after) := splitHost inBrackets rest
      (c :: host, after)

/-- Reads a port after its colon; an empty one is the port of the scheme. -/
def readPort (scheme : String) : List Char → Except Error (Option Nat)
  | ':' :: ds =>
    if ds.isEmpty then .ok none
    else if ds.all Char.isDigit ∧ Decimal.valueOf ds ≤ 65535 then
      let port := Decimal.valueOf ds
      .ok (if defaultPort? scheme = some port then none else some port)
    else .error .invalidPort
  | _ => .ok none

/-- Reads host and port. -/
def readAuthority (kind : SchemeKind) (scheme : String) (authority : List Char) :
    Except Error (Host × Option Nat) := do
  let (host, after) := splitHost false (dropUserInfo authority)
  if host.isEmpty ∧ (kind = .web ∨ after ≠ [] ∨ authority ≠ []) then throw .emptyHost
  let host ← if kind = .other then Host.ofOther host else Host.ofSpecial host
  let port ← readPort scheme after
  return (host, port)

/-- The characters that stand for themselves in a path. -/
def staysInPath (c : Char) : Bool :=
  0x21 ≤ c.toNat && c.toNat ≤ 0x7e && !"\"#<>?^\x60\x7b\x7d".toList.contains c

/-- The characters that stand for themselves in a query. -/
def staysInQuery (kind : SchemeKind) (c : Char) : Bool :=
  0x21 ≤ c.toNat && c.toNat ≤ 0x7e && !"\"#<>".toList.contains c
    && !(kind ≠ .other && c = '\x27')

/-- The segments between slashes. -/
def splitSegments (kind : SchemeKind) : List Char → List (List Char)
  | [] => [[]]
  | c :: rest =>
    if isSlash kind c then [] :: splitSegments kind rest
    else match splitSegments kind rest with
      | segment :: segments => (c :: segment) :: segments
      | [] => [[c]]

/-- A segment with its encoded dots written out, for telling dot segments. -/
def plainDots : List Char → List Char
  | '%' :: '2' :: 'e' :: rest | '%' :: '2' :: 'E' :: rest => '.' :: plainDots rest
  | c :: rest => c :: plainDots rest
  | [] => []

/-- Whether a segment stands for the directory itself. -/
def isSingleDot (segment : List Char) : Bool := plainDots segment = ['.']

/-- Whether a segment stands for the directory above. -/
def isDoubleDot (segment : List Char) : Bool := plainDots segment = ['.', '.']

/-- Resolves dot segments and encodes the others. The segments before are held newest first; a dot
segment at the end leaves an empty segment. -/
def resolve (done : List (List Char)) : List (List Char) → List (List Char)
  | [] => done.reverse
  | [last] =>
    if isDoubleDot last then ([] :: done.drop 1).reverse
    else if isSingleDot last then ([] :: done).reverse
    else (Percent.encode staysInPath last :: done).reverse
  | segment :: rest =>
    if isDoubleDot segment then resolve (done.drop 1) rest
    else if isSingleDot segment then resolve done rest
    else resolve (Percent.encode staysInPath segment :: done) rest

/-- The path of a text that ends before query and fragment. -/
def readPath (kind : SchemeKind) (cs : List Char) : List (List Char) :=
  match cs with
  | [] => resolve [] (if kind = .other then [] else [[]])
  | c :: rest => resolve [] (splitSegments kind (if isSlash kind c then rest else c :: rest))

/-- The query of what follows the path. -/
def readQuery (kind : SchemeKind) (cs : List Char) : Option (List Char) :=
  match cs with
  | '?' :: rest => some (Percent.encode (staysInQuery kind) (rest.takeWhile (· ≠ '#')))
  | _ => none

/-- Whether a character ends the path. -/
def endsPath (c : Char) : Bool := c = '?' || c = '#'

/-- The URL of a host and of what follows it. -/
def ofParts (kind : SchemeKind) (scheme : String) (host : Option Host) (port : Option Nat)
    (cs : List Char) : Url where
  scheme := scheme
  host := host
  port := port
  path := readPath kind (cs.takeWhile (!endsPath ·))
  rooted := true
  query := readQuery kind (cs.dropWhile (!endsPath ·))

/-- Whether a text names a drive, which a file URL has in place of a host. -/
def isDrive (cs : List Char) : Bool :=
  match cs with
  | [letter, mark] => letter.isAlpha && (mark = ':' || mark = '|')
  | _ => false

/-- Reads what follows the scheme of a web address: any number of slashes, then the authority. -/
def readWeb (scheme : String) (cs : List Char) : Except Error Url := do
  let cs := cs.dropWhile (isSlash .web)
  let authority := cs.takeWhile (!endsAuthority .web ·)
  let (host, port) ← readAuthority .web scheme authority
  return ofParts .web scheme (some host) port (cs.drop authority.length)

/-- Reads what follows the scheme of a file URL; the host may be empty. -/
def readFile (scheme : String) (cs : List Char) : Except Error Url :=
  match cs with
  | a :: b :: rest =>
    if isSlash .file a && isSlash .file b then do
      let authority := rest.takeWhile (!endsAuthority .file ·)
      if authority.isEmpty || isDrive authority then return ofParts .file scheme none none rest
      let host ← Host.ofSpecial authority
      return ofParts .file scheme (some host) none (rest.drop authority.length)
    else .ok (ofParts .file scheme none none cs)
  | cs => .ok (ofParts .file scheme none none cs)

/-- Reads what follows any other scheme: an authority only after two slashes. -/
def readOther (scheme : String) (cs : List Char) : Except Error Url :=
  match cs with
  | '/' :: '/' :: rest => do
    let authority := rest.takeWhile (!endsAuthority .other ·)
    let (host, port) ← readAuthority .other scheme authority
    return ofParts .other scheme (some host) port (rest.drop authority.length)
  | '/' :: _ => .ok (ofParts .other scheme none none cs)
  | cs => .ok { ofParts .other scheme none none cs with
      path := [cs.takeWhile (!endsPath ·)]
      rooted := false }

/-- The URL of a text. -/
def parse (s : String) : Except Error Url :=
  match splitScheme? (clean s) with
  | none => .error .relativeWithoutBase
  | some (scheme, rest) =>
    match SchemeKind.of scheme with
    | .web => readWeb scheme rest
    | .file => readFile scheme rest
    | .other => readOther scheme rest

/-- The segments between slashes, each after its slash. -/
def writePath (segments : List (List Char)) : List Char := segments.flatMap fun s => '/' :: s

/-- Path and query as sent in a request. -/
def target (u : Url) : String :=
  String.ofList (writePath u.path ++ match u.query with
    | some query => '?' :: query
    | none => [])

/-- The URL with pairs added to its query. -/
def withPairs (u : Url) (pairs : List (String × String)) : Url :=
  { u with query := some (Form.appendPairs u.query pairs) }

/-- The port that is connected to. -/
def effectivePort? (u : Url) : Option Nat := u.port.orElse fun _ => defaultPort? u.scheme

/-- Whether requests can be sent to the URL. -/
def isHttp (u : Url) : Bool := u.scheme = "http" || u.scheme = "https"

end Url

end SessionDirectory
