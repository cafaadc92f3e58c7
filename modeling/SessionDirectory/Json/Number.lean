import SessionDirectory.Decimal.Shortest

/-!
# Numbers in JSON texts

A number is a whole number that fits a 64-bit word, signed or unsigned, or else a double. Only a
numeral without fraction and exponent can be whole; minus zero is a double.

## Main definitions

* `Json.Integer`: a whole number in the union of the signed and the unsigned 64-bit range
* `Json.Number`: a whole number or a double
* `Json.Numeral`: the parts of a numeral as written
* `Json.Numeral.number?`: what a numeral denotes, if it is not beyond every double
* `Json.Number.write`: the text of a number
-/

set_option autoImplicit false

namespace SessionDirectory.Json

/-- A whole number that fits a signed or an unsigned 64-bit word. -/
structure Integer where
  val : Int
  lower : -9223372036854775808 ≤ val
  upper : val ≤ 18446744073709551615
  deriving DecidableEq

namespace Integer

/-- The whole number as a word-sized one, if it fits. -/
def ofInt? (n : Int) : Option Integer :=
  if h : -9223372036854775808 ≤ n ∧ n ≤ 18446744073709551615 then some ⟨n, h.1, h.2⟩ else none

/-- An unsigned word. -/
def ofUInt64 (n : UInt64) : Integer :=
  ⟨n.toNat, by omega, by have := n.toNat_lt; omega⟩

/-- A 32-bit count. -/
def ofUInt32 (n : UInt32) : Integer :=
  ⟨n.toNat, by omega, by have := n.toNat_lt; omega⟩

/-- A 16-bit port. -/
def ofUInt16 (n : UInt16) : Integer :=
  ⟨n.toNat, by omega, by have := n.toNat_lt; omega⟩

end Integer

/-- A number: whole, or a finite double given by its bits. -/
inductive Number where
  | integer (n : Integer)
  | real (bits : UInt64)
  deriving DecidableEq

/-- The parts of a numeral as written. -/
structure Numeral where
  negative : Bool
  /-- The digits before the point. -/
  whole : List Char
  /-- The digits after the point, empty without a point. -/
  fraction : List Char
  /-- Whether the exponent is negative, and its digits. -/
  exponent : Option (Bool × List Char)
  deriving DecidableEq, Repr

namespace Numeral

/-- The greatest significand that is kept exactly. -/
def maxSignificand : Nat := UInt64.size - 1

/-- The greatest exponent that is told apart from larger ones. -/
def maxExponent : Nat := 2147483647

/-- Appends digits to a significand as long as it stays exact; the digits left over are returned. -/
def extend : Nat → List Char → Nat × List Char
  | s, [] => (s, [])
  | s, c :: rest =>
    if 10 * s + Decimal.digitValue c ≤ maxSignificand then
      extend (10 * s + Decimal.digitValue c) rest
    else (s, c :: rest)

/-- The double nearest to a power of ten. -/
def powerOfTen (n : Nat) : Float := Float.ofScientific 1 false n

/-- Divides by a power of ten, in steps of at most `10^308`. -/
def divide (f : Float) (n : Nat) : Float :=
  if n ≤ 308 then f / powerOfTen n
  else if f == 0.0 then f
  else divide (f / powerOfTen 308) (n - 308)
termination_by n

/-- Multiplies by a power of ten, if the result is finite. -/
def multiply? (f : Float) (n : Nat) : Option Float :=
  if n ≤ 308 then
    let product := f * powerOfTen n
    if product.isInf then none else some product
  else if f == 0.0 then some f
  else none

/-- The double that `significand · 10^exponent` is read as: the significand is rounded, and then
the product or quotient with the power of ten is. -/
def double? (negative : Bool) (significand : Nat) (exponent : Int) : Option Number :=
  let f := (UInt64.ofNat significand).toFloat
  let scaled := if exponent ≥ 0 then multiply? f exponent.toNat else some (divide f (-exponent).toNat)
  scaled.map fun f => .real (if negative then -f else f).toBits

/-- The whole number of a numeral without fraction and exponent; one that fits no word, and minus
zero, is a double. -/
def ofSignificand? (negative : Bool) (significand : Nat) : Option Number :=
  let n : Int := if negative then -significand else significand
  if negative ∧ significand = 0 then double? true 0 0
  else match Integer.ofInt? n with
    | some n => some (.integer n)
    | none => double? negative significand 0

/-- What a numeral denotes; nothing when its magnitude is beyond every double. -/
def number? (t : Numeral) : Option Number :=
  let (s, left) := extend 0 t.whole
  if t.fraction = [] ∧ t.exponent = none ∧ left = [] then ofSignificand? t.negative s
  else
    let (s, unread) := extend s t.fraction
    let shift : Int := left.length - (t.fraction.length - unread.length : Nat)
    match t.exponent with
    | none => double? t.negative s shift
    | some (down, ds) =>
      let e := Decimal.valueOf ds
      if e > maxExponent then
        if s ≠ 0 ∧ ¬ down then none else double? t.negative 0 0
      else double? t.negative s (if down then shift - e else shift + e)

end Numeral

/-- Doubles in JSON: the point is placed from five zeros after it up to sixteen digits before it,
other exponents are written with their sign. -/
def layout : Decimal.Layout := ⟨-4, 16, true⟩

/-- The text of a number. -/
def Number.write : Number → List Char
  | .integer n => Decimal.signed n.val
  | .real bits => layout.render bits

end SessionDirectory.Json
