/-!
# Whole decimal numerals

The decimal text of whole numbers, and the reading of an unsigned numeral below a limit.

## Main definitions

* `Decimal.digits`, `Decimal.signed`: the decimal text of a natural number and of an integer
* `Decimal.readUnsigned`: an optional `+` and ASCII digits, with the first fault reported
-/

set_option autoImplicit false

namespace SessionDirectory.Decimal

/-- The decimal digits of a number, without leading zeros. -/
def digits (n : Nat) : List Char := Nat.toDigits 10 n

/-- The decimal digits of an integer, after a minus sign when it is negative. -/
def signed (n : Int) : List Char :=
  if n < 0 then '-' :: digits n.natAbs else digits n.natAbs

/-- The decimal text of a number. -/
def text (n : Nat) : String := String.ofList (digits n)

/-- The value of an ASCII digit. -/
def digitValue (c : Char) : Nat := c.toNat - '0'.toNat

/-- The number that a list of ASCII digits denotes. -/
def valueOf (cs : List Char) : Nat :=
  cs.foldl (fun n c => 10 * n + digitValue c) 0

/-- The decimal digits of a number, filled up with zeros on the left. -/
def padded (width n : Nat) : List Char :=
  List.replicate (width - (digits n).length) '0' ++ digits n

/-- Why a text is not an unsigned numeral below a limit. -/
inductive Fault where
  | empty
  | invalidDigit
  | tooLarge
  deriving DecidableEq, Repr

/-- What the fault is, in words. -/
def Fault.message : Fault → String
  | .empty => "cannot parse integer from empty string"
  | .invalidDigit => "invalid digit found in string"
  | .tooLarge => "number too large to fit in target type"

/-- Reads digits from left to right, stopping at the first one that is none or that takes the
number beyond the limit. -/
def readDigits (limit : Nat) : Nat → List Char → Except Fault Nat
  | n, [] => .ok n
  | n, c :: rest =>
    if c.isDigit then
      if 10 * n + digitValue c ≤ limit then readDigits limit (10 * n + digitValue c) rest
      else .error .tooLarge
    else .error .invalidDigit

/-- Reads an unsigned numeral of at most `limit`: an optional plus sign, then at least one digit. -/
def readUnsigned (limit : Nat) (s : String) : Except Fault Nat :=
  match s.toList with
  | [] => .error .empty
  | ['+'] => .error .invalidDigit
  | '+' :: rest => readDigits limit 0 rest
  | cs => readDigits limit 0 cs

end SessionDirectory.Decimal
