import SessionDirectory.Decimal.Numeral

/-!
# Shortest decimal text of a double

The fewest decimal digits that read back as the same double, the nearest such decimal where there
are several. All arithmetic is exact: a finite double is `m · 2^e`, and the decimals that read
back as it are those in the interval around it that ends halfway to its two neighbours.

## Main definitions

* `Double`: sign, significand and binary exponent of a double
* `Double.shortest`: the digits and the decimal exponent of the shortest decimal
* `isBeyondDoubles`: whether a decimal is too large for a double
* `Layout`, `Layout.render`: where the point goes and how an exponent is written
-/

set_option autoImplicit false

namespace SessionDirectory.Decimal

/-- A finite double: `significand · 2^exponent`, negated when `negative`. -/
structure Double where
  negative : Bool
  significand : Nat
  exponent : Int
  /-- The neighbour below is only half as far away as the one above. -/
  lowerBoundary : Bool
  deriving DecidableEq, Repr

namespace Double

/-- Decodes the bits of a double, taken to be finite. -/
def ofBits (bits : UInt64) : Double :=
  let b := bits.toNat
  let fraction : Nat := b % (1 <<< 52)
  let field : Nat := (b >>> 52) % (1 <<< 11)
  if field = 0 then ⟨b >>> 63 = 1, fraction, -1074, false⟩
  else ⟨b >>> 63 = 1, (1 <<< 52) + fraction, (field : Int) - 1075, fraction = 0 && field > 1⟩

/-- A positive fraction, as numerator and denominator. -/
structure Ratio where
  num : Nat
  den : Nat

/-- The value `n · 2^e · 10^p` as a fraction. -/
def Ratio.scaled (n : Nat) (e p : Int) : Ratio :=
  ⟨(n <<< e.toNat) * Nat.pow 10 p.toNat, (1 <<< (-e).toNat) * Nat.pow 10 (-p).toNat⟩

/-- Whether the whole number `d`, on the grid of step `10^k`, reads back as the double. The
interval is measured in quarters of the last binary place, its ends included iff the significand
is even. -/
def readsBack (x : Double) (k : Int) (d : Nat) : Bool :=
  let below := if x.lowerBoundary then 1 else 2
  let lo := Ratio.scaled (4 * x.significand - below) (x.exponent - 2) (-k)
  let hi := Ratio.scaled (4 * x.significand + 2) (x.exponent - 2) (-k)
  if x.significand % 2 = 0 then lo.num ≤ d * lo.den && d * hi.den ≤ hi.num
  else lo.num < d * lo.den && d * hi.den < hi.num

/-- The shortest decimal on the grid of step `10^k`, if one of the two grid points next to the
double reads back as it; the nearer one when both do, the even one at equal distance. -/
def onGrid? (x : Double) (k : Int) : Option Nat :=
  let r := Ratio.scaled x.significand x.exponent (-k)
  let down := r.num / r.den
  let up := down + 1
  match x.readsBack k down, x.readsBack k up with
  | true, true =>
    let twice := 2 * (r.num % r.den)
    if twice < r.den || (twice = r.den && down % 2 = 0) then some down else some up
  | true, false => some down
  | false, true => some up
  | false, false => none

/-- Tries the grids from the coarse ones on: the first decimal found has the fewest digits. -/
def search (x : Double) : Nat → Int → Nat × Int
  | 0, k => ((x.onGrid? k).getD 0, k)
  | steps + 1, k =>
    match x.onGrid? k with
    | some d => (d, k)
    | none => search x steps (k - 1)

/-- The exponent of a power of ten that is not below the double: on coarser grids than this one no
point but zero is near. -/
def magnitude (x : Double) : Int :=
  let r := Ratio.scaled x.significand x.exponent 0
  if r.num ≥ r.den then (digits (r.num / r.den)).length
  else 1 - ((digits (r.den / r.num)).length : Int)

/-- The digits and the exponent `k` of the shortest decimal `d · 10^k` of a nonzero double. No
double needs more than seventeen digits, so twenty grids are enough. -/
def shortest (x : Double) : Nat × Int := x.search 20 (x.magnitude)

end Double

/-- The least number that is rounded to infinity instead of to a double. -/
def beyondDoubles : Nat := (1 <<< 1024) - (1 <<< 970)

/-- Whether the decimal `n · 10^k` is beyond every double. Only where the point is near the place of
the greatest doubles does it take an exact comparison. -/
def isBeyondDoubles (n : Nat) (k : Int) : Bool :=
  let point : Int := (digits n).length + k
  if n = 0 ∨ point < 300 then false
  else if 320 < point then true
  else beyondDoubles * Nat.pow 10 (-k).toNat ≤ n * Nat.pow 10 k.toNat

/-- How a decimal is laid out: which positions of the point are written without an exponent. -/
structure Layout where
  /-- The least position of the point, counted from the first digit, written positionally. -/
  least : Int
  /-- The greatest such position. -/
  greatest : Int
  /-- Whether an exponent that is not negative gets a plus sign. -/
  plus : Bool
  deriving Repr

/-- Writes `d · 10^k`; a positional whole number keeps the fraction `.0`. -/
def Layout.decimal (l : Layout) (d : Nat) (k : Int) : List Char :=
  let ds := digits d
  let point : Int := ds.length + k
  if l.least ≤ point ∧ point ≤ l.greatest then
    if point ≤ 0 then "0.".toList ++ List.replicate (-point).toNat '0' ++ ds
    else if ds.length ≤ point then ds ++ List.replicate (point - ds.length).toNat '0' ++ ".0".toList
    else ds.take point.toNat ++ '.' :: ds.drop point.toNat
  else
    let mantissa := match ds with
      | first :: second :: rest => first :: '.' :: second :: rest
      | ds => ds
    let exponent := point - 1
    mantissa ++ 'e' :: (if exponent ≥ 0 ∧ l.plus then ['+'] else []) ++ signed exponent

/-- Writes the shortest decimal of the double with the given bits. -/
def Layout.render (l : Layout) (bits : UInt64) : List Char :=
  let x := Double.ofBits bits
  let sign := if x.negative then ['-'] else []
  if x.significand = 0 then sign ++ "0.0".toList
  else
    let (d, k) := x.shortest
    sign ++ l.decimal d k

end SessionDirectory.Decimal
