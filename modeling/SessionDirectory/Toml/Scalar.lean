import SessionDirectory.Calendar.Date
import SessionDirectory.Decimal.Shortest
import SessionDirectory.Toml.Value
import SessionDirectory.Url.Percent

/-!
# TOML scalars without quotes

Truth values, numbers and dates. Digits may be set apart by single underscores.

## Main definitions

* `Toml.readInteger?`, `Toml.isReal`, `Toml.isDateTime`: the forms of numbers and dates
* `Toml.readScalar?`: the value of a word
-/

set_option autoImplicit false

namespace SessionDirectory.Toml

/-- Drops the underscores between digits; nothing where one is not between two digits. -/
def plainDigits? (isDigit : Char → Bool) : List Char → Option (List Char)
  | [] => none
  | [c] => if isDigit c then some [c] else none
  | c :: '_' :: rest => if isDigit c then (plainDigits? isDigit rest).map (c :: ·) else none
  | c :: rest => if isDigit c then (plainDigits? isDigit rest).map (c :: ·) else none

/-- The number that digits denote in a base. -/
def valueIn (base : Nat) (ds : List Char) : Nat :=
  ds.foldl (fun n c => base * n + (Percent.hexValue? c).getD 0) 0

/-- Whether a character is a digit of a base up to sixteen. -/
def isDigitIn (base : Nat) (c : Char) : Bool :=
  match Percent.hexValue? c with
  | some d => d < base
  | none => false

/-- Reads digits of a base. -/
def readIn? (base : Nat) (cs : List Char) : Option Nat :=
  (plainDigits? (isDigitIn base) cs).map (valueIn base)

/-- A sign and what follows it. -/
def splitSign : List Char → Bool × List Char
  | '-' :: rest => (true, rest)
  | '+' :: rest => (false, rest)
  | cs => (false, cs)

/-- Reads decimal digits without a leading zero. -/
def readDecimal? (cs : List Char) : Option (List Char) := do
  match ← plainDigits? Char.isDigit cs with
  | '0' :: _ :: _ => none
  | ds => some ds

/-- The whole numbers that a document can hold. -/
def fits (n : Int) : Bool := -((1 <<< 127 : Nat) : Int) ≤ n && n < ((1 <<< 128 : Nat) : Int)

/-- Reads a whole number; only decimal ones may have a sign. -/
def readInteger? (cs : List Char) : Option Int :=
  match cs with
  | '0' :: 'x' :: ds => (readIn? 16 ds).map Int.ofNat
  | '0' :: 'o' :: ds => (readIn? 8 ds).map Int.ofNat
  | '0' :: 'b' :: ds => (readIn? 2 ds).map Int.ofNat
  | cs => do
    let (negative, ds) := splitSign cs
    let n := Decimal.valueOf (← readDecimal? ds)
    return if negative then -n else n

/-- Whether a text is a number with a fraction or an exponent, or one of the words for infinity
and no number; one beyond every double is none. -/
def isReal (cs : List Char) : Bool :=
  let (_, cs) := splitSign cs
  if cs = ['i', 'n', 'f'] ∨ cs = ['n', 'a', 'n'] then true
  else
    let mantissa := cs.takeWhile fun c => c ≠ 'e' ∧ c ≠ 'E'
    let exponent := cs.drop mantissa.length
    let whole := mantissa.takeWhile (· ≠ '.')
    let fraction := mantissa.drop whole.length
    let wholeDigits := readDecimal? whole
    let fractionDigits := match fraction with
      | [] => some []
      | _ :: ds => plainDigits? Char.isDigit ds
    let power := match exponent with
      | [] => some (0 : Int)
      | _ :: ds =>
        let (down, ds) := splitSign ds
        (plainDigits? Char.isDigit ds).map fun ds =>
          if down then -(Decimal.valueOf ds : Int) else Decimal.valueOf ds
    match wholeDigits, fractionDigits, power with
    | some ws, some fs, some power =>
      (fraction ≠ [] || exponent ≠ [])
        && !Decimal.isBeyondDoubles (Decimal.valueOf (ws ++ fs)) (power - fs.length)
    | _, _, _ => false

/-- Reads exactly two digits. -/
def readTwo? : List Char → Option (Nat × List Char)
  | a :: b :: rest =>
    if a.isDigit && b.isDigit then some (Decimal.valueOf [a, b], rest) else none
  | _ => none

/-- Skips one given character. -/
def skip? (c : Char) : List Char → Option (List Char)
  | d :: rest => if c = d then some rest else none
  | [] => none

/-- Skips a date. -/
def skipDate? (cs : List Char) : Option (List Char) := do
  let (century, rest) ← readTwo? cs
  let (year, rest) ← readTwo? rest
  let (month, rest) ← readTwo? (← skip? '-' rest)
  let (day, rest) ← readTwo? (← skip? '-' rest)
  if (Calendar.Date.of? (100 * century + year : Nat) month day).isSome then some rest else none

/-- Skips a time of day, with any fraction of a second. -/
def skipTime? (cs : List Char) : Option (List Char) := do
  let (hour, rest) ← readTwo? cs
  let (minute, rest) ← readTwo? (← skip? ':' rest)
  let (second, rest) ← readTwo? (← skip? ':' rest)
  if 23 < hour ∨ 59 < minute ∨ 60 < second then none
  match rest with
  | '.' :: rest =>
    if (rest.takeWhile Char.isDigit).isEmpty then none else some (rest.dropWhile Char.isDigit)
  | rest => some rest

/-- Whether a text is an offset from UTC, or none at all. -/
def isOffset : List Char → Bool
  | [] => true
  | ['Z'] | ['z'] => true
  | sign :: rest =>
    (sign = '+' || sign = '-') && (do
      let (hour, rest) ← readTwo? rest
      let (minute, rest) ← readTwo? (← skip? ':' rest)
      return rest.isEmpty && hour ≤ 23 && minute ≤ 59).getD false

/-- Whether a text is a date, a time of day, or both with or without an offset. -/
def isDateTime (cs : List Char) : Bool :=
  match skipDate? cs with
  | some [] => true
  | some (sep :: rest) =>
    (sep = 'T' || sep = 't' || sep = ' ') && ((skipTime? rest).map isOffset).getD false
  | none => ((skipTime? cs).map (·.isEmpty)).getD false

/-- The value of a word. -/
def readScalar? (cs : List Char) : Option Value :=
  if cs = ['t', 'r', 'u', 'e'] then some (.boolean true)
  else if cs = ['f', 'a', 'l', 's', 'e'] then some (.boolean false)
  else match readInteger? cs with
    | some n => if fits n then some (.integer n) else none
    | none => if isReal cs then some .real else if isDateTime cs then some .dateTime else none

end SessionDirectory.Toml
