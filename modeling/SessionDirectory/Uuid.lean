import SessionDirectory.Json.Value

/-!
# Random identifiers

The 128-bit identifiers of version 4: random but for the six bits that name version and variant.

## Main definitions

* `Uuid.ofBytes`: the text of an identifier with given random bytes
* `Uuid.isVersion4`: whether a text is such an identifier
-/

set_option autoImplicit false

namespace SessionDirectory.Uuid

/-- The two digits of a byte in base sixteen. -/
def byteDigits (b : UInt8) : List Char :=
  [Json.hexDigit (b.toNat / 16), Json.hexDigit (b.toNat % 16)]

/-- The bytes with version and variant in their places. -/
def mark (bytes : List UInt8) : List UInt8 :=
  bytes.mapIdx fun i b =>
    if i = 6 then (b &&& 0x0f) ||| 0x40 else if i = 8 then (b &&& 0x3f) ||| 0x80 else b

/-- Digits in groups of 8, 4, 4, 4 and 12. -/
def group (digits : List Char) : List Char :=
  ['-'].intercalate
    [digits.take 8, (digits.drop 8).take 4, (digits.drop 12).take 4, (digits.drop 16).take 4,
      (digits.drop 20).take 12]

/-- The text of the identifier with sixteen random bytes. -/
def ofBytes (bytes : List UInt8) : String := String.ofList (group ((mark bytes).flatMap byteDigits))

/-- A digit in base sixteen, in lower case. -/
def isLowerHex (c : Char) : Bool := c.isDigit || ('a' ≤ c && c ≤ 'f')

/-- Whether a character may stand at a place of an identifier. -/
def fits (i : Nat) (c : Char) : Bool :=
  if i = 8 ∨ i = 13 ∨ i = 18 ∨ i = 23 then c = '-'
  else if i = 14 then c = '4'
  else if i = 19 then ['8', '9', 'a', 'b'].contains c
  else isLowerHex c

/-- Whether a text is an identifier of version 4. -/
def isVersion4 (s : String) : Bool :=
  s.length = 36 && s.toList.zipIdx.all fun (c, i) => fits i c

end SessionDirectory.Uuid
