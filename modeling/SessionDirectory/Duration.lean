/-!
# Durations

Lengths of time in whole seconds and nanoseconds, with the arithmetic of 64-bit words that stops
at the greatest value.

## Main definitions

* `Duration`: seconds and nanoseconds
* `Duration.add`: the sum, or the greatest duration if the sum does not fit
* `Duration.max`, `Duration.min`: the longer and the shorter one
-/

set_option autoImplicit false

namespace SessionDirectory

/-- The product of two words, or the greatest word if it does not fit. -/
def saturatingMul (a b : UInt64) : UInt64 :=
  if a.toNat * b.toNat < UInt64.size then a * b else UInt64.ofNat (UInt64.size - 1)

/-- A length of time. -/
structure Duration where
  seconds : UInt64
  nanoseconds : Fin 1000000000
  deriving DecidableEq

namespace Duration

/-- A number of whole seconds. -/
def ofSeconds (s : UInt64) : Duration := ⟨s, 0⟩

/-- The greatest duration. -/
def greatest : Duration := ⟨UInt64.ofNat (UInt64.size - 1), 999999999⟩

/-- The length in nanoseconds. -/
def toNanoseconds (d : Duration) : Nat := 1000000000 * d.seconds.toNat + d.nanoseconds

/-- The sum, or the greatest duration if the sum does not fit. -/
def add (a b : Duration) : Duration :=
  let carry := (a.nanoseconds.val + b.nanoseconds.val) / 1000000000
  let total := a.seconds.toNat + b.seconds.toNat + carry
  if total < UInt64.size then ⟨UInt64.ofNat total, a.nanoseconds + b.nanoseconds⟩ else greatest

/-- The longer one of two durations. -/
def max (a b : Duration) : Duration := if a.toNanoseconds ≤ b.toNanoseconds then b else a

/-- The shorter one of two durations. -/
def min (a b : Duration) : Duration := if a.toNanoseconds ≤ b.toNanoseconds then a else b

end Duration

end SessionDirectory
