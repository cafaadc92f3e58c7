import SessionDirectory.Decimal.Numeral
import SessionDirectory.Text.Blank
import SessionDirectory.Url.Domain
import SessionDirectory.Url.Percent

/-!
# Hosts of URLs

Domain names, IPv4 and IPv6 addresses, read as the URL standard says. A domain name is read by what
it means in ASCII; one whose last label is a number is an IPv4 address, in one to four parts, each
decimal, octal or in base sixteen.

## Main definitions

* `Url.Error`: why a text is not a URL
* `Url.Host`: a host
* `Url.Host.ofSpecial`, `Url.Host.ofOther`: the host of a web address and of any other URL
-/

set_option autoImplicit false

namespace SessionDirectory.Url

/-- Why a text is not a URL. -/
inductive Error where
  | relativeWithoutBase
  | emptyHost
  | invalidPort
  | invalidIpv4Address
  | invalidIpv6Address
  | invalidDomainName
  | invalidDomainCharacter
  deriving DecidableEq, Repr

/-- What is wrong, in words. -/
def Error.message : Error → String
  | .relativeWithoutBase => "relative URL without a base"
  | .emptyHost => "empty host"
  | .invalidPort => "invalid port number"
  | .invalidIpv4Address => "invalid IPv4 address"
  | .invalidIpv6Address => "invalid IPv6 address"
  | .invalidDomainName => "invalid international domain name"
  | .invalidDomainCharacter => "invalid domain character"

/-- A host. -/
inductive Host where
  | domain (name : String)
  | ipv4 (address : Nat)
  | ipv6 (pieces : List Nat)
  deriving DecidableEq, Repr

namespace Host

/-- What a part of an IPv4 address is: no number, one that fits 32 bits, or a larger one. -/
inductive Part where
  | notNumber
  | number (n : Nat)
  | tooLarge
  deriving DecidableEq

/-- The value of digits in a base, if they all are digits of it. -/
def digitsIn? (base : Nat) (cs : List Char) : Option Nat :=
  cs.foldlM (fun n c => do
    let d ← Percent.hexValue? c
    if d < base then some (base * n + d) else none) 0

/-- Reads a part of an IPv4 address. -/
def Part.read (cs : List Char) : Part :=
  let value := match cs with
    | [] => none
    | '0' :: 'x' :: rest | '0' :: 'X' :: rest => digitsIn? 16 rest
    | '0' :: d :: rest => digitsIn? 8 (d :: rest)
    | cs => digitsIn? 10 cs
  match value with
  | none => .notNumber
  | some n => if n < UInt32.size then .number n else .tooLarge

/-- The labels of a domain name, without an empty last one. -/
def labels (cs : List Char) : List (List Char) :=
  match (Text.split '.' cs).reverse with
  | [] :: (label :: rest) => (label :: rest).reverse
  | parts => parts.reverse

/-- Whether the last label of a domain name makes it an IPv4 address. -/
def endsInNumber (cs : List Char) : Bool :=
  if cs.isEmpty then false
  else match (labels cs).getLast? with
    | some last => (!last.isEmpty && last.all Char.isDigit) || Part.read last ≠ .notNumber
    | none => false

/-- The address of one to four parts: the last one fills what the others leave. -/
def ipv4OfParts? : List Nat → Option Nat
  | [a] => if a < UInt32.size then some a else none
  | [a, b] => if a < 256 ∧ b < 1 <<< 24 then some ((a <<< 24) + b) else none
  | [a, b, c] =>
    if a < 256 ∧ b < 256 ∧ c < 1 <<< 16 then some ((a <<< 24) + (b <<< 16) + c) else none
  | [a, b, c, d] =>
    if a < 256 ∧ b < 256 ∧ c < 256 ∧ d < 256 then
      some ((a <<< 24) + (b <<< 16) + (c <<< 8) + d)
    else none
  | _ => none

/-- Reads an IPv4 address. -/
def readIpv4? (cs : List Char) : Option Nat := do
  let parts ← (labels cs).mapM fun label =>
    match Part.read label with
    | .number n => some n
    | _ => none
  ipv4OfParts? parts

/-- Reads a piece of an IPv6 address: one to four digits in base sixteen. -/
def readPiece? (cs : List Char) : Option Nat :=
  if cs.isEmpty ∨ 4 < cs.length then none else digitsIn? 16 cs

/-- Reads a decimal byte without leading zeros. -/
def readByte? (cs : List Char) : Option Nat :=
  match cs with
  | [] => none
  | ['0'] => some 0
  | '0' :: _ => none
  | cs => do
    let n ← digitsIn? 10 cs
    if n < 256 then some n else none

/-- Reads the IPv4 address at the end of an IPv6 address, as two pieces. -/
def readTail? (cs : List Char) : Option (List Nat) := do
  match ← (Text.split '.' cs).mapM readByte? with
  | [a, b, c, d] => some [256 * a + b, 256 * c + d]
  | _ => none

/-- Reads pieces between colons; the last one may be an IPv4 address. -/
def readPieces? : List (List Char) → Option (List Nat)
  | [] => some []
  | [last] => if last.contains '.' then readTail? last else (readPiece? last).map ([·])
  | piece :: rest => do
    let p ← readPiece? piece
    let ps ← readPieces? rest
    return p :: ps

/-- The parts before and after the first double colon. -/
def splitDoubleColon? : List Char → Option (List Char × List Char)
  | ':' :: ':' :: rest => some ([], rest)
  | c :: rest => (splitDoubleColon? rest).map fun (before, after) => (c :: before, after)
  | [] => none

/-- Reads pieces between colons, none from an empty text. -/
def readSide? (cs : List Char) : Option (List Nat) :=
  if cs.isEmpty then some [] else readPieces? (Text.split ':' cs)

/-- Reads an IPv6 address; a double colon fills up with zeros. -/
def readIpv6? (cs : List Char) : Option (List Nat) :=
  match splitDoubleColon? cs with
  | none => do
    let ps ← readSide? cs
    if ps.length = 8 then some ps else none
  | some (before, after) => do
    if before.contains '.' then none
    let front ← readSide? before
    let back ← readSide? after
    if front.length + back.length ≤ 7 then
      some (front ++ List.replicate (8 - front.length - back.length) 0 ++ back)
    else none

/-- The characters that no domain name may hold. -/
def isForbiddenInDomain (c : Char) : Bool :=
  c.toNat ≤ 0x20 || c = '\x7f' || "#%/:<>?@[\\]^|".toList.contains c

/-- The characters that no other host may hold. -/
def isForbiddenInHost (c : Char) : Bool :=
  c = '\x00' || " #/:<>?@[\\]^|\t\n\r".toList.contains c

/-- The text between square brackets, if the text starts with one. -/
def bracketed (cs : List Char) : Option (Except Error Host) :=
  match cs with
  | '[' :: rest =>
    match rest.reverse with
    | ']' :: inner =>
      match readIpv6? inner.reverse with
      | some pieces => some (.ok (.ipv6 pieces))
      | none => some (.error .invalidIpv6Address)
    | _ => some (.error .invalidIpv6Address)
  | _ => none

/-- The host of a domain name that is written in ASCII without capitals. -/
def ofName (name : List Char) : Except Error Host :=
  if name.any isForbiddenInDomain then .error .invalidDomainName
  else if name.isEmpty then .error .emptyHost
  else if endsInNumber name then
    match readIpv4? name with
    | some address => .ok (.ipv4 address)
    | none => .error .invalidIpv4Address
  else .ok (.domain (String.ofList name))

/-- The host of a web address. -/
def ofSpecial (cs : List Char) : Except Error Host :=
  match bracketed cs with
  | some result => result
  | none =>
    match Percent.decodeText? cs with
    | none => .error .invalidDomainName
    | some s => ofName (Domain.mapped s.toList)

/-- The host of a URL that is no web address. -/
def ofOther (cs : List Char) : Except Error Host :=
  match bracketed cs with
  | some result => result
  | none =>
    if cs.any isForbiddenInHost then .error .invalidDomainCharacter
    else .ok (.domain (String.ofList cs))

end Host

end SessionDirectory.Url
