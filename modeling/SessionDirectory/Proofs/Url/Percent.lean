import Mathlib.Data.List.Flatten
import SessionDirectory.Url.Percent

/-!
# What percent-encoded texts stand for

Encoding keeps the bytes that a text stands for, whatever escapes are in the text already. A text
stands for its own bytes exactly if there are no escapes in it: an escape is three characters for
one byte, so a text with an escape stands for fewer bytes than it has.

## Main definitions

* `Percent.utf8`: the bytes of a text
* `Percent.StartsEscape`, `Percent.NoEscape`: where there are escapes
* `Percent.KeepsEscapes`: the sets of characters that leave escapes as they are

## Main results

* `Percent.decode_encode`: an encoded text stands for the bytes that the text stands for
* `Percent.decode_eq_utf8_iff`: when a text stands for its own bytes
* `Percent.decodeText?_eq_some_iff`: the text that an encoded text stands for
* `Percent.eq_of_sublist_of_decode_eq`: a part of a text that stands for the text is all of it
-/

set_option autoImplicit false

namespace SessionDirectory.Percent

/-! ## Bytes of texts -/

/-- The bytes of a text in UTF-8. -/
def utf8 (cs : List Char) : List UInt8 := cs.flatMap String.utf8EncodeChar

@[simp] theorem utf8_cons (c : Char) (cs : List Char) :
    utf8 (c :: cs) = String.utf8EncodeChar c ++ utf8 cs := rfl

theorem length_utf8EncodeChar_pos (c : Char) : 0 < (String.utf8EncodeChar c).length :=
  List.length_pos_iff.mpr String.utf8EncodeChar_ne_nil

/-- A part of a text that has as many bytes as the text is all of it. -/
theorem eq_of_sublist_of_length_utf8 {cs text : List Char} (part : cs.Sublist text)
    (length : (utf8 text).length ≤ (utf8 cs).length) : cs = text := by
  induction part with
  | slnil => rfl
  | @cons cs text c part ih =>
    have shorter : (utf8 cs).length ≤ (utf8 text).length := (part.flatMap _).length_le
    have pos := length_utf8EncodeChar_pos c
    rw [utf8_cons, List.length_append] at length
    omega
  | @cons_cons cs text c part ih =>
    rw [utf8_cons, utf8_cons, List.length_append, List.length_append] at length
    rw [ih (by omega)]

theorem textOfBytes?_eq_some_iff {bytes : List UInt8} {s : String} :
    textOfBytes? bytes = some s ↔ bytes = utf8 s.toList := by
  have own : s.toByteArray = (utf8 s.toList).toByteArray := String.utf8Encode_toList.symm
  rw [textOfBytes?, String.fromUTF8?]
  constructor
  · intro read
    split at read
    · rw [← List.toByteArray_inj, ← own, ← Option.some.inj read]
      rfl
    · cases read
  · rintro rfl
    have valid : (utf8 s.toList).toByteArray.IsValidUTF8 := own ▸ s.isValidUTF8
    rw [dif_pos valid, Option.some.injEq, ← String.toByteArray_inj]
    exact own.symm

theorem decodeText?_eq_some_iff {cs : List Char} {s : String} :
    decodeText? cs = some s ↔ decode cs = utf8 s.toList := textOfBytes?_eq_some_iff

/-! ## Escapes -/

/-- A text starts with `%` and two digits. -/
def StartsEscape (cs : List Char) : Prop :=
  ∃ high low rest b, cs = '%' :: high :: low :: rest ∧ byteOf? high low = some b

/-- There is no `%` with two digits after it in a text. -/
def NoEscape (cs : List Char) : Prop :=
  ∀ high low, ['%', high, low] <:+: cs → byteOf? high low = none

theorem decode_escape {high low : Char} {b : UInt8} (byte : byteOf? high low = some b)
    (rest : List Char) : decode ('%' :: high :: low :: rest) = b :: decode rest := by
  rw [decode, byte]

theorem decode_cons {c : Char} {cs : List Char} (plain : ¬ StartsEscape (c :: cs)) :
    decode (c :: cs) = String.utf8EncodeChar c ++ decode cs := by
  rw [decode.eq_def]
  split
  next empty => cases empty
  next high low rest eq =>
    cases eq
    cases byte : byteOf? high low with
    | none => rfl
    | some b => exact absurd ⟨high, low, rest, b, rfl, byte⟩ plain
  next eq => cases eq; rfl

/-- Texts are read escape by escape, and character by character where there is none. -/
@[elab_as_elim]
theorem escape_induction {motive : List Char → Prop} (nil : motive [])
    (escape : ∀ high low rest b, byteOf? high low = some b → motive rest →
      motive ('%' :: high :: low :: rest))
    (plain : ∀ c rest, ¬ StartsEscape (c :: rest) → motive rest → motive (c :: rest))
    (cs : List Char) : motive cs := by
  -- Two of the four cases of the reading are no escapes: a mark without digits, and no mark.
  induction cs using decode.induct with
  | case1 => exact nil
  | case2 high low rest b byte ih => exact escape high low rest b byte ih
  | case3 high low rest byte ih =>
    refine plain _ _ ?_ ih
    rintro ⟨high', low', rest', b, eq, byte'⟩
    cases eq
    rw [byte] at byte'
    cases byte'
  | case4 c rest other ih =>
    refine plain _ _ ?_ ih
    rintro ⟨high, low, rest', b, eq, -⟩
    cases eq
    exact other _ _ _ rfl rfl

theorem noEscape_nil : NoEscape [] := by
  intro high low part
  simp at part

theorem noEscape_cons_iff {c : Char} {cs : List Char} :
    NoEscape (c :: cs) ↔ ¬ StartsEscape (c :: cs) ∧ NoEscape cs := by
  constructor
  · intro none
    refine ⟨?_, fun high low part => none high low (part.trans (List.suffix_cons c cs).isInfix)⟩
    rintro ⟨high, low, rest, b, eq, byte⟩
    have start : ['%', high, low] <+: c :: cs := ⟨rest, eq.symm⟩
    rw [none high low start.isInfix] at byte
    cases byte
  · rintro ⟨plain, none⟩ high low part
    rcases List.infix_cons_iff.mp part with ⟨rest, eq⟩ | part
    · refine Option.eq_none_iff_forall_ne_some.mpr fun b byte => plain ?_
      exact ⟨high, low, rest, b, eq.symm, byte⟩
    · exact none high low part

/-! ## Digits -/

theorem hexValue?_upperHexDigit {n : Nat} (digit : n < 16) :
    hexValue? (upperHexDigit n) = some n := by
  have all : ∀ n : Fin 16, hexValue? (upperHexDigit n) = some n.val := by decide
  exact all ⟨n, digit⟩

theorem byteOf?_upperHexDigit (b : UInt8) :
    byteOf? (upperHexDigit (b.toNat / 16)) (upperHexDigit (b.toNat % 16)) = some b := by
  have bound := b.toNat_lt
  rw [byteOf?, hexValue?_upperHexDigit (by omega), hexValue?_upperHexDigit (by omega)]
  show some (UInt8.ofNat (16 * (b.toNat / 16) + b.toNat % 16)) = some b
  rw [Nat.div_add_mod, UInt8.ofNat_toNat]

theorem isSome_of_byteOf?_eq_some {high low : Char} {b : UInt8} (byte : byteOf? high low = some b) :
    (hexValue? high).isSome ∧ (hexValue? low).isSome := by
  rw [byteOf?] at byte
  obtain ⟨h, left, byte⟩ := Option.bind_eq_some_iff.mp byte
  obtain ⟨l, right, -⟩ := Option.bind_eq_some_iff.mp byte
  rw [left, right]
  exact ⟨rfl, rfl⟩

theorem printable_of_digit {c : Char} (digit : (hexValue? c).isSome) :
    0x21 ≤ c.toNat ∧ c.toNat ≤ 0x7e := by
  rw [hexValue?] at digit
  split at digit
  next decimal =>
    have low : 0x30 ≤ c.toNat := decimal.1
    have high : c.toNat ≤ 0x39 := decimal.2
    omega
  next =>
    split at digit
    next upper =>
      have low : 0x41 ≤ c.toNat := upper.1
      have high : c.toNat ≤ 0x46 := upper.2
      omega
    next =>
      split at digit
      next lower =>
        have low : 0x61 ≤ c.toNat := lower.1
        have high : c.toNat ≤ 0x66 := lower.2
        omega
      next => cases digit

/-! ## Encoded texts -/

/-- The set of characters that stand for themselves has `%` and the digits, so that escapes stay as
they are. -/
structure KeepsEscapes (keep : Char → Bool) : Prop where
  mark : keep '%' = true
  digit : ∀ c, (hexValue? c).isSome → keep c = true

theorem encode_cons (keep : Char → Bool) (c : Char) (cs : List Char) :
    encode keep (c :: cs) = (if keep c then [c] else encodeChar c) ++ encode keep cs := rfl

theorem decode_encodeBytes (bytes : List UInt8) (rest : List Char) :
    decode (bytes.flatMap encodeByte ++ rest) = bytes ++ decode rest := by
  induction bytes with
  | nil => rfl
  | cons b bytes ih =>
    rw [List.flatMap_cons, List.append_assoc, List.cons_append, ← ih]
    exact decode_escape (byteOf?_upperHexDigit b) _

theorem exists_encodeChar_eq (c : Char) : ∃ cs, encodeChar c = '%' :: cs := by
  obtain ⟨b, bytes, eq⟩ := List.exists_cons_of_ne_nil (String.utf8EncodeChar_ne_nil (c := c))
  rw [encodeChar, eq, List.flatMap_cons]
  exact ⟨_, rfl⟩

variable {keep : Char → Bool}

/-- Where an encoded text starts with a digit, so does the text. -/
theorem exists_cons_of_encode_eq {cs rest : List Char} {d : Char} (digit : (hexValue? d).isSome)
    (eq : encode keep cs = d :: rest) : ∃ cs', cs = d :: cs' ∧ encode keep cs' = rest := by
  cases cs with
  | nil => cases eq
  | cons c cs =>
    rw [encode_cons] at eq
    split at eq
    · cases eq
      exact ⟨cs, rfl, rfl⟩
    · obtain ⟨tail, encoded⟩ := exists_encodeChar_eq c
      rw [encoded] at eq
      cases eq
      cases digit

/-- Encoding makes no escape of what is none. -/
theorem not_startsEscape_encode {cs : List Char} (plain : ¬ StartsEscape ('%' :: cs)) :
    ¬ StartsEscape ('%' :: encode keep cs) := by
  rintro ⟨high, low, rest, b, eq, byte⟩
  obtain ⟨-, eq⟩ := List.cons.inj eq
  obtain ⟨left, right⟩ := isSome_of_byteOf?_eq_some byte
  obtain ⟨cs', rfl, eq'⟩ := exists_cons_of_encode_eq left eq
  obtain ⟨cs'', rfl, -⟩ := exists_cons_of_encode_eq right eq'
  exact plain ⟨high, low, cs'', b, rfl, byte⟩

/-- **An encoded text stands for the bytes that the text stands for.** -/
theorem decode_encode (keeps : KeepsEscapes keep) (cs : List Char) :
    decode (encode keep cs) = decode cs := by
  induction cs using escape_induction with
  | nil => rfl
  | escape high low rest b byte ih =>
    -- All three characters stand for themselves, so the escape is still there.
    obtain ⟨left, right⟩ := isSome_of_byteOf?_eq_some byte
    have kept : encode keep ('%' :: high :: low :: rest) =
        '%' :: high :: low :: encode keep rest := by
      rw [encode_cons, encode_cons, encode_cons, if_pos keeps.mark, if_pos (keeps.digit _ left),
        if_pos (keeps.digit _ right)]
      rfl
    rw [kept, decode_escape byte, decode_escape byte, ih]
  | plain c rest plain ih =>
    rw [decode_cons plain, ← ih, encode_cons]
    split
    · -- What is encoded after a mark might have looked like digits.
      have stays : ¬ StartsEscape (c :: encode keep rest) := by
        by_cases mark : c = '%'
        · subst mark
          exact not_startsEscape_encode plain
        · rintro ⟨high, low, rest', b, eq, -⟩
          exact mark (List.cons.inj eq).1
      exact decode_cons stays
    · exact decode_encodeBytes _ _

/-! ## Numbers of bytes -/

theorem length_decode_le (cs : List Char) : (decode cs).length ≤ (utf8 cs).length := by
  induction cs using escape_induction with
  | nil => exact Nat.le_refl _
  | escape high low rest b byte ih =>
    have pos := length_utf8EncodeChar_pos '%'
    simp only [decode_escape byte, utf8_cons, List.length_cons, List.length_append]
    omega
  | plain c rest plain ih =>
    rw [decode_cons plain, utf8_cons, List.length_append, List.length_append]
    omega

/-- A text with an escape stands for fewer bytes than it has. -/
theorem noEscape_of_length_le {cs : List Char} (length : (utf8 cs).length ≤ (decode cs).length) :
    NoEscape cs := by
  induction cs using escape_induction with
  | nil => exact noEscape_nil
  | escape high low rest b byte ih =>
    -- Three characters have at least three bytes, but they stand for one.
    have pos := length_utf8EncodeChar_pos '%'
    have pos' := length_utf8EncodeChar_pos high
    have le := length_decode_le rest
    simp only [decode_escape byte, utf8_cons, List.length_cons, List.length_append] at length
    omega
  | plain c rest plain ih =>
    rw [decode_cons plain, utf8_cons, List.length_append, List.length_append] at length
    exact noEscape_cons_iff.mpr ⟨plain, ih (by omega)⟩

/-- **A text stands for its own bytes if and only if there is no escape in it.** -/
theorem decode_eq_utf8_iff {cs : List Char} : decode cs = utf8 cs ↔ NoEscape cs := by
  constructor
  · intro eq
    exact noEscape_of_length_le (eq ▸ Nat.le_refl _)
  · intro none
    induction cs with
    | nil => rfl
    | cons c cs ih =>
      obtain ⟨plain, none⟩ := noEscape_cons_iff.mp none
      rw [decode_cons plain, ih none, utf8_cons]

/-- **A part of a text that stands for the text is all of it**, and there is no escape in it. -/
theorem eq_of_sublist_of_decode_eq {cs text : List Char} (part : cs.Sublist text)
    (eq : decode cs = utf8 text) : cs = text ∧ NoEscape text := by
  have le := length_decode_le cs
  rw [eq] at le
  obtain rfl := eq_of_sublist_of_length_utf8 part le
  exact ⟨rfl, decode_eq_utf8_iff.mp eq⟩

/-! ## Characters of encoded texts -/

theorem isSome_hexValue?_of_mem_encodeByte {b : UInt8} {c : Char} (mem : c ∈ encodeByte b) :
    c = '%' ∨ (hexValue? c).isSome := by
  have bound := b.toNat_lt
  simp only [encodeByte, List.mem_cons, List.not_mem_nil, or_false] at mem
  rcases mem with rfl | rfl | rfl
  · exact .inl rfl
  · rw [hexValue?_upperHexDigit (by omega)]
    exact .inr rfl
  · rw [hexValue?_upperHexDigit (by omega)]
    exact .inr rfl

/-- What encoding adds to a text are `%` and digits. -/
theorem mem_encode {cs : List Char} {c : Char} (mem : c ∈ encode keep cs) :
    c ∈ cs ∨ c = '%' ∨ (hexValue? c).isSome := by
  obtain ⟨c', mem', part⟩ := List.mem_flatMap.mp mem
  split at part
  · rw [List.mem_singleton.mp part]
    exact .inl mem'
  · obtain ⟨b, -, part⟩ := List.mem_flatMap.mp part
    exact .inr (isSome_hexValue?_of_mem_encodeByte part)

/-- What stands in an encoded text are the characters of the set, if it keeps escapes. -/
theorem KeepsEscapes.of_mem_encode (keeps : KeepsEscapes keep) {cs : List Char} {c : Char}
    (mem : c ∈ encode keep cs) : keep c = true := by
  obtain ⟨c', -, part⟩ := List.mem_flatMap.mp mem
  split at part
  next kept => rwa [List.mem_singleton.mp part]
  next =>
    obtain ⟨b, -, part⟩ := List.mem_flatMap.mp part
    rcases isSome_hexValue?_of_mem_encodeByte part with rfl | digit
    · exact keeps.mark
    · exact keeps.digit c digit

theorem encode_ne_nil {cs : List Char} (nonempty : cs ≠ []) : encode keep cs ≠ [] := by
  obtain ⟨c, rest, rfl⟩ := List.exists_cons_of_ne_nil nonempty
  obtain ⟨tail, encoded⟩ := exists_encodeChar_eq c
  rw [encode_cons, encoded]
  split <;> simp

end SessionDirectory.Percent
