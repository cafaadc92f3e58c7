import SessionDirectory.Directory.Client

/-!
# HTTP messages

Requests and answers as bytes of HTTP/1.1. Every request has a connection of its own, so an answer
is all that arrives until the server closes it.

## Main definitions

* `Http.requestBytes`: a request as sent
* `Http.parseAll?`: the answer in the bytes received
-/

set_option autoImplicit false

namespace SessionDirectory.Http

/-! ## Requests -/

/-- Digits in base sixteen, in lower case and without leading zeros. -/
def hexText (n : Nat) : String := String.ofList (Nat.toDigits 16 n)

/-- A host as it is written before a port. -/
def hostText : Url.Host → String
  | .domain name => name
  | .ipv4 address =>
    ".".intercalate ([24, 16, 8, 0].map fun shift => Decimal.text (address >>> shift % 256))
  | .ipv6 pieces => "[" ++ ":".intercalate (pieces.map hexText) ++ "]"

/-- Host and port as the server wants to be addressed. -/
def authorityText (u : Url) : String :=
  (u.host.map hostText).getD "" ++ match u.port with
    | some port => ":" ++ Decimal.text port
    | none => ""

/-- The headers of a request, with their values. -/
def headers (r : Request) : List (String × String) :=
  [("Host", authorityText r.url), ("User-Agent", r.userAgent), ("Accept", "*/*"),
    ("Connection", "close")]
  ++ (r.updateKey.map fun key => (updateKeyHeader, key)).toList
  ++ match r.body with
    | some body =>
      [("Content-Type", bodyContentType), ("Content-Length", Decimal.text body.utf8ByteSize)]
    | none => []

/-- A request as text. -/
def requestText (r : Request) : String :=
  r.method ++ " " ++ r.url.target ++ " HTTP/1.1\r\n"
    ++ String.join ((headers r).map fun h => h.1 ++ ": " ++ h.2 ++ "\r\n")
    ++ "\r\n" ++ r.body.getD ""

/-- A request as sent. -/
def requestBytes (r : Request) : ByteArray := (requestText r).toUTF8

/-! ## Answers -/

/-- The end of a line. -/
def lineEnd : List UInt8 := [13, 10]

/-- Splits bytes at the first occurrence of a separator. -/
def splitAt? (separator : List UInt8) : List UInt8 → Option (List UInt8 × List UInt8)
  | [] => none
  | b :: rest =>
    if separator.isPrefixOf (b :: rest) then some ([], (b :: rest).drop separator.length)
    else (splitAt? separator rest).map fun (before, after) => (b :: before, after)

/-- The lines of a head, without their ends. -/
def lines : List UInt8 → List (List UInt8)
  | [] => [[]]
  | 13 :: 10 :: rest => [] :: lines rest
  | b :: rest =>
    match lines rest with
    | line :: more => (b :: line) :: more
    | [] => [[b]]

/-- Bytes as the characters of their numbers. -/
def latin (bytes : List UInt8) : List Char := bytes.map fun b => Char.ofNat b.toNat

/-- What is said about a body before it. -/
structure Head where
  status : Nat
  /-- Names in lower case, and values. -/
  headers : List (List Char × List Char)

/-- The status in the first line of an answer. -/
def readStatus? (line : List UInt8) : Option Nat :=
  match Text.split ' ' (latin line) with
  | version :: status :: _ =>
    if "HTTP/".toList.isPrefixOf version && status.length = 3 && status.all Char.isDigit then
      some (Decimal.valueOf status)
    else none
  | _ => none

/-- A header and its value. -/
def readHeader (line : List UInt8) : List Char × List Char :=
  let cs := latin line
  ((cs.takeWhile (· ≠ ':')).map Char.toLower, Text.trim ((cs.dropWhile (· ≠ ':')).drop 1))

/-- Reads a head. -/
def Head.parse? (bytes : List UInt8) : Option Head :=
  match lines bytes with
  | [] => none
  | first :: rest => (readStatus? first).map fun status => ⟨status, rest.map readHeader⟩

/-- The value of a header. -/
def Head.value? (h : Head) (name : String) : Option (List Char) :=
  (h.headers.find? fun e => e.1 = name.toList).map (·.2)

/-- Joins the chunks of a body; every chunk comes after its length, and one of length zero is the
last. -/
def readChunks? : Nat → List UInt8 → Option (List UInt8)
  | 0, _ => none
  | fuel + 1, bytes => do
    let (line, rest) ← splitAt? lineEnd bytes
    let size ← Url.Host.digitsIn? 16 (Text.trim ((latin line).takeWhile (· ≠ ';')))
    if size = 0 then some []
    else if rest.length < size + 2 then none
    else (readChunks? fuel (rest.drop (size + 2))).map (rest.take size ++ ·)

/-- The body after a head, if all of it has arrived. -/
def readBody? (h : Head) (rest : List UInt8) : Option (List UInt8) :=
  if h.status = 204 ∨ h.status = 304 then some []
  else if (h.value? "transfer-encoding").any fun v => v.map Char.toLower = "chunked".toList then
    readChunks? (rest.length + 1) rest
  else match h.value? "content-length" with
    | none => some rest
    | some value =>
      match Decimal.readUnsigned (UInt64.size - 1) (String.ofList value) with
      | .ok size => if rest.length < size then none else some (rest.take size)
      | .error _ => none

/-- The characters of bytes; in the place of every byte that belongs to none stands the replacement
character. -/
def decodeLossy : Nat → List UInt8 → List Char
  | 0, _ => []
  | _, [] => []
  | fuel + 1, b :: rest =>
    let size := if b < 0x80 then 1 else if b < 0xe0 then 2 else if b < 0xf0 then 3 else 4
    match (Percent.textOfBytes? ((b :: rest).take size)).map String.toList with
    | some [c] => c :: decodeLossy fuel ((b :: rest).drop size)
    | _ => '\ufffd' :: decodeLossy fuel rest

/-- The text of a body; bytes that are no UTF-8 are replaced. -/
def bodyText (bytes : List UInt8) : String :=
  (Percent.textOfBytes? bytes).getD (String.ofList (decodeLossy bytes.length bytes))

/-- The answer in the bytes received; answers that only announce another one are skipped. -/
def parseAnswer? : Nat → List UInt8 → Option Response
  | 0, _ => none
  | fuel + 1, bytes => do
    let (headBytes, rest) ← splitAt? (lineEnd ++ lineEnd) bytes
    let head ← Head.parse? headBytes
    if head.status < 200 then parseAnswer? fuel rest
    else do
      let body ← readBody? head rest
      return ⟨UInt16.ofNat head.status, bodyText body⟩

/-- The answer in all the bytes received. -/
def parseAll? (bytes : ByteArray) : Option Response :=
  parseAnswer? (bytes.size + 1) bytes.toList

end SessionDirectory.Http
