import SessionDirectory.Announcement

/-!
# Random identifiers

Whatever sixteen bytes are drawn, the text that is made of them is an identifier of version 4: two
digits for each byte, where the first digits of two bytes name version and variant, and dashes
between the groups. So is the id of every test session.

## Main results

* `Uuid.isVersion4_of_digits`: what makes the text of sixteen bytes an identifier of version 4
* `Uuid.isVersion4_ofBytes`: the bytes are marked so that it is one
* `Announcement.isVersion4_ofOptions`: the id of a test session is one
-/

set_option autoImplicit false

namespace SessionDirectory

namespace Uuid

variable {bytes : List UInt8}

/-! ## Digits -/

theorem isLowerHex_hexDigit {n : Nat} (digit : n < 16) : isLowerHex (Json.hexDigit n) = true := by
  have all : ∀ n : Fin 16, isLowerHex (Json.hexDigit n) = true := by decide
  exact all ⟨n, digit⟩

theorem isLowerHex_high (b : UInt8) : isLowerHex (Json.hexDigit (b.toNat / 16)) = true := by
  have bound := b.toNat_lt
  exact isLowerHex_hexDigit (by omega)

theorem isLowerHex_low (b : UInt8) : isLowerHex (Json.hexDigit (b.toNat % 16)) = true :=
  isLowerHex_hexDigit (Nat.mod_lt _ (by decide))

/-- The text of sixteen bytes is an identifier of version 4 if the first digits of the bytes that
name version and variant say so. -/
theorem isVersion4_of_digits (length : bytes.length = 16) (version : bytes[6].toNat / 16 = 4)
    (variant : 8 ≤ bytes[8].toNat / 16 ∧ bytes[8].toNat / 16 ≤ 11) :
    isVersion4 (String.ofList (group (bytes.flatMap byteDigits))) = true := by
  have fourth : ∀ n : Fin 16, 8 ≤ n.val ∧ n.val ≤ 11 →
      ['8', '9', 'a', 'b'].contains (Json.hexDigit n) = true := by decide
  -- There is a byte for each place, and each of the thirty-six characters is a digit or a dash.
  match bytes, length with
  | [b0, b1, b2, b3, b4, b5, b6, b7, b8, b9, b10, b11, b12, b13, b14, b15], _ =>
    have version : Json.hexDigit (b6.toNat / 16) = '4' := congrArg Json.hexDigit version
    have variant := fourth ⟨b8.toNat / 16, Nat.lt_of_le_of_lt variant.2 (by decide)⟩ variant
    simp only [isVersion4, String.length_ofList, String.toList_ofList]
    simp [group, byteDigits, fits, List.zipIdx, isLowerHex_high, isLowerHex_low, version, variant,
      -List.contains_eq_mem, -List.contains_cons]

/-! ## Marks -/

/-- The byte that names the version. -/
theorem version_mark (b : UInt8) : ((b &&& 0x0f) ||| 0x40).toNat / 16 = 4 := by
  have all : ∀ n : Fin 256, ((UInt8.ofNat n &&& 0x0f) ||| 0x40).toNat / 16 = 4 := by decide +kernel
  simpa only [UInt8.ofNat_toNat] using all ⟨b.toNat, b.toNat_lt⟩

/-- The byte that names the variant. -/
theorem variant_mark (b : UInt8) : 8 ≤ ((b &&& 0x3f) ||| 0x80).toNat / 16 ∧
    ((b &&& 0x3f) ||| 0x80).toNat / 16 ≤ 11 := by
  have all : ∀ n : Fin 256, 8 ≤ ((UInt8.ofNat n &&& 0x3f) ||| 0x80).toNat / 16 ∧
      ((UInt8.ofNat n &&& 0x3f) ||| 0x80).toNat / 16 ≤ 11 := by decide +kernel
  simpa only [UInt8.ofNat_toNat] using all ⟨b.toNat, b.toNat_lt⟩

/-- **Sixteen bytes make an identifier of version 4**, whatever they are. -/
theorem isVersion4_ofBytes (length : bytes.length = 16) : isVersion4 (ofBytes bytes) = true := by
  have same : (mark bytes).length = 16 := by rw [mark, List.length_mapIdx, length]
  refine isVersion4_of_digits same ?_ ?_
  · have marked : (mark bytes)[6] = (bytes[6] &&& 0x0f) ||| 0x40 := List.getElem_mapIdx
    rw [marked]
    exact version_mark _
  · have marked : (mark bytes)[8] = (bytes[8] &&& 0x3f) ||| 0x80 := List.getElem_mapIdx
    rw [marked]
    exact variant_mark _

end Uuid

/-- **The id of a test session is an identifier of version 4**, whatever the command line says. -/
theorem Announcement.isVersion4_ofOptions {idBytes : List UInt8} (length : idBytes.length = 16)
    (d : AnnounceDefaults) (options : AnnounceOptions) (m n : Nat) :
    Uuid.isVersion4 (ofOptions d options (.ofRandom idBytes m n)).id = true :=
  Uuid.isVersion4_ofBytes length

end SessionDirectory
