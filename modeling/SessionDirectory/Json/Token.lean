import SessionDirectory.Json.Value

/-!
# JSON tokens

A text is cut into tokens by one pass over its characters. The pass is a fold: after each
character the scanner is between tokens or inside one of them, so a text scanned in two halves
gives the tokens of the whole.

## Main definitions

* `Json.Token`: brackets, separators and the scalar values
* `Json.Scanner.step`, `Json.Scanner.finish`: one character, and the end of the text
* `Json.Token.scan`: the tokens of a text
-/

set_option autoImplicit false

namespace SessionDirectory.Json

/-- A token. Numbers and strings are well-formed but need not have a value: a number may be beyond
every double, a string may hold half of a surrogate pair. -/
inductive Token where
  | openArray
  | closeArray
  | openObject
  | closeObject
  | comma
  | colon
  | null
  | bool (b : Bool)
  | number (n : Option Number)
  | string (s : Option String)
  deriving DecidableEq

/-- A part of a quoted string: a character, or a UTF-16 code unit written as an escape. -/
inductive TextUnit where
  | char (c : Char)
  | code (unit : Nat)
  deriving DecidableEq

/-- Whether a code unit is the first half of a surrogate pair. -/
def isHighSurrogate (u : Nat) : Bool := 0xD800 ≤ u && u ≤ 0xDBFF

/-- Whether a code unit is the second half of a surrogate pair. -/
def isLowSurrogate (u : Nat) : Bool := 0xDC00 ≤ u && u ≤ 0xDFFF

/-- The characters of a quoted string; nothing when half of a surrogate pair stands alone. -/
def TextUnit.decode : List TextUnit → Option (List Char)
  | [] => some []
  | .char c :: rest => (decode rest).map (c :: ·)
  | .code high :: .code low :: rest =>
    if isHighSurrogate high && isLowSurrogate low then
      (decode rest).map (Char.ofNat (0x10000 + 0x400 * (high - 0xD800) + (low - 0xDC00)) :: ·)
    else if isHighSurrogate high || isLowSurrogate high then none
    else (decode (.code low :: rest)).map (Char.ofNat high :: ·)
  | .code u :: rest =>
    if isHighSurrogate u || isLowSurrogate u then none
    else (decode rest).map (Char.ofNat u :: ·)

/-- The place inside a numeral, named after what was read last. -/
inductive NumeralPart where
  | sign
  | zero
  | whole
  | point
  | fraction
  | mark
  | markSign
  | exponent
  deriving DecidableEq

/-- Whether a numeral may end here. -/
def NumeralPart.complete : NumeralPart → Bool
  | .zero | .whole | .fraction | .exponent => true
  | .sign | .point | .mark | .markSign => false

/-- What the scanner is inside of. Digits and text units are kept newest first. -/
inductive ScanMode where
  | between
  | word (rest : List Char) (token : Token)
  | numeral (part : NumeralPart) (digits : Numeral)
  | text (units : List TextUnit)
  | escape (units : List TextUnit)
  | hex (units : List TextUnit) (digits : Nat) (code : Nat)

/-- The tokens read so far, newest first, and what the scanner is inside of. -/
structure Scanner where
  tokens : List Token
  mode : ScanMode

/-- The value of a digit in base sixteen. -/
def hexValue? (c : Char) : Option Nat :=
  if c.isDigit then some (c.toNat - '0'.toNat)
  else if 'a' ≤ c ∧ c ≤ 'f' then some (c.toNat - 'a'.toNat + 10)
  else if 'A' ≤ c ∧ c ≤ 'F' then some (c.toNat - 'A'.toNat + 10)
  else none

/-- The character that a one-letter escape stands for. -/
def unescape? : Char → Option Char
  | '"' => some '"'
  | '\\' => some '\\'
  | '/' => some '/'
  | 'b' => some '\x08'
  | 'f' => some '\x0c'
  | 'n' => some '\n'
  | 'r' => some '\r'
  | 't' => some '\t'
  | _ => none

namespace Numeral

/-- Adds a digit to the part before the point. -/
def pushWhole (t : Numeral) (c : Char) : Numeral := { t with whole := c :: t.whole }

/-- Adds a digit to the part after the point. -/
def pushFraction (t : Numeral) (c : Char) : Numeral := { t with fraction := c :: t.fraction }

/-- Adds a digit to the exponent. -/
def pushExponent (t : Numeral) (c : Char) : Numeral :=
  { t with exponent := t.exponent.map fun e => (e.1, c :: e.2) }

/-- The numeral whose digits were collected newest first. -/
def reversed (t : Numeral) : Numeral :=
  { t with
    whole := t.whole.reverse
    fraction := t.fraction.reverse
    exponent := t.exponent.map fun e => (e.1, e.2.reverse) }

/-- Goes on with a numeral, if the character belongs to it. -/
def extend? (part : NumeralPart) (t : Numeral) (c : Char) : Option (NumeralPart × Numeral) :=
  match part with
  | .sign =>
    if c = '0' then some (.zero, t.pushWhole c)
    else if c.isDigit then some (.whole, t.pushWhole c) else none
  | .zero =>
    if c = '.' then some (.point, t)
    else if c = 'e' ∨ c = 'E' then some (.mark, { t with exponent := some (false, []) }) else none
  | .whole =>
    if c.isDigit then some (.whole, t.pushWhole c)
    else if c = '.' then some (.point, t)
    else if c = 'e' ∨ c = 'E' then some (.mark, { t with exponent := some (false, []) }) else none
  | .point => if c.isDigit then some (.fraction, t.pushFraction c) else none
  | .fraction =>
    if c.isDigit then some (.fraction, t.pushFraction c)
    else if c = 'e' ∨ c = 'E' then some (.mark, { t with exponent := some (false, []) }) else none
  | .mark =>
    if c.isDigit then some (.exponent, t.pushExponent c)
    else if c = '+' then some (.markSign, t)
    else if c = '-' then some (.markSign, { t with exponent := some (true, []) }) else none
  | .markSign => if c.isDigit then some (.exponent, t.pushExponent c) else none
  | .exponent => if c.isDigit then some (.exponent, t.pushExponent c) else none

end Numeral

namespace Scanner

/-- The scanner before the first character. -/
def start : Scanner := ⟨[], .between⟩

/-- A token has ended. -/
def emit (s : Scanner) (t : Token) : Scanner := ⟨t :: s.tokens, .between⟩

/-- The first character after a token, or before the first one. -/
def begin? (s : Scanner) (c : Char) : Option Scanner :=
  match c with
  | ' ' | '\t' | '\n' | '\r' => some { s with mode := .between }
  | '[' => some (s.emit .openArray)
  | ']' => some (s.emit .closeArray)
  | '\x7b' => some (s.emit .openObject)
  | '\x7d' => some (s.emit .closeObject)
  | ',' => some (s.emit .comma)
  | ':' => some (s.emit .colon)
  | 'n' => some { s with mode := .word ['u', 'l', 'l'] .null }
  | 't' => some { s with mode := .word ['r', 'u', 'e'] (.bool true) }
  | 'f' => some { s with mode := .word ['a', 'l', 's', 'e'] (.bool false) }
  | '"' => some { s with mode := .text [] }
  | '-' => some { s with mode := .numeral .sign ⟨true, [], [], none⟩ }
  | '0' => some { s with mode := .numeral .zero ⟨false, ['0'], [], none⟩ }
  | c => if c.isDigit then some { s with mode := .numeral .whole ⟨false, [c], [], none⟩ } else none

/-- A numeral has ended, if it may. -/
def endNumeral? (s : Scanner) (part : NumeralPart) (t : Numeral) : Option Scanner :=
  if part.complete then some (s.emit (.number t.reversed.number?)) else none

/-- Reads one character. -/
def step (s : Scanner) (c : Char) : Option Scanner :=
  match s.mode with
  | .between => s.begin? c
  | .word [] _ => none
  | .word [last] token => if c = last then some (s.emit token) else none
  | .word (next :: rest) token => if c = next then some { s with mode := .word rest token } else none
  | .numeral part t =>
    match t.extend? part c with
    | some (part, t) => some { s with mode := .numeral part t }
    | none => (s.endNumeral? part t).bind (·.begin? c)
  | .text units =>
    if c = '"' then some (s.emit (.string ((TextUnit.decode units.reverse).map String.ofList)))
    else if c = '\\' then some { s with mode := .escape units }
    else if c.toNat < 0x20 then none
    else some { s with mode := .text (.char c :: units) }
  | .escape units =>
    if c = 'u' then some { s with mode := .hex units 0 0 }
    else (unescape? c).map fun c => { s with mode := .text (.char c :: units) }
  | .hex units digits code =>
    (hexValue? c).map fun d =>
      if digits = 3 then { s with mode := .text (.code (16 * code + d) :: units) }
      else { s with mode := .hex units (digits + 1) (16 * code + d) }

/-- Reads characters one after the other. -/
def run (s : Scanner) (cs : List Char) : Option Scanner := cs.foldlM step s

/-- The tokens at the end of the text. -/
def finish? (s : Scanner) : Option (List Token) :=
  match s.mode with
  | .between => some s.tokens.reverse
  | .numeral part t => (s.endNumeral? part t).map fun s => s.tokens.reverse
  | _ => none

end Scanner

/-- The tokens of a text, if it consists of tokens. -/
def Token.scan (cs : List Char) : Option (List Token) :=
  (Scanner.start.run cs).bind Scanner.finish?

end SessionDirectory.Json
