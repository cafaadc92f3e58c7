import SessionDirectory.Decimal.Numeral

/-!
# Decimal numerals

The decimal text of a number has no leading zeros, and denotes the number.

An unsigned numeral is read below a limit. Reading stops at the first digit that takes the number
beyond the limit, and a number only grows with the digits that follow. So a numeral is read if and
only if the number it denotes is within the limit.

## Main definitions

* `Decimal.unsigned?`: the number that a text denotes, however large

## Main results

* `Decimal.valueOf_digits`, `Decimal.exists_digits_eq`: the decimal text of a number denotes the
  number, and has no leading zeros
* `Decimal.length_padded`, `Decimal.valueOf_padded`: the text of a number, filled up with zeros
* `Decimal.digits_foldl`: digits go on with the decimal text of a number
* `Decimal.readUnsigned_eq_ok_iff`: the numerals within a limit are read, and nothing else
* `Decimal.readUnsigned_text`: the decimal text of a number within the limit is read as the number
-/

set_option autoImplicit false

namespace SessionDirectory.Decimal

variable {limit n : Nat}

/-! ## Digits -/

theorem valueOf_digits (n : Nat) : valueOf (digits n) = n :=
  Nat.ofDigitChars_ten_toDigits

theorem isDigit_of_mem_digits {n : Nat} {c : Char} (mem : c ∈ digits n) :
    c.isDigit = true :=
  Nat.isDigit_of_mem_toDigits (by decide) (by decide) mem

/-- Numbers below a hundred have two digits at most. -/
theorem length_digits_le_two (lt : n < 100) : (digits n).length ≤ 2 :=
  (Nat.length_toDigits_le_iff (by decide) (by decide)).mpr lt

/-- Numbers below ten thousand have four digits at most. -/
theorem length_digits_le_four (lt : n < 10000) : (digits n).length ≤ 4 :=
  (Nat.length_toDigits_le_iff (by decide) (by decide)).mpr lt

/-- A number that has enough room is written in all of it. -/
theorem length_padded {width : Nat} (room : (digits n).length ≤ width) :
    (padded width n).length = width := by
  rw [padded, List.length_append, List.length_replicate]
  omega

theorem isDigit_of_mem_padded {width : Nat} {c : Char} (mem : c ∈ padded width n) :
    c.isDigit = true := by
  rcases List.mem_append.mp mem with zero | digit
  · rw [List.eq_of_mem_replicate zero]
    rfl
  · exact isDigit_of_mem_digits digit

/-- Zeros in front of a number do not count. -/
theorem valueOf_padded (width n : Nat) : valueOf (padded width n) = n := by
  have zeros : ∀ k, (List.replicate k '0').foldl (fun n c => 10 * n + digitValue c) 0 = 0 := by
    intro k
    induction k with
    | zero => rfl
    | succ k ih => exact ih
  rw [padded, valueOf, List.foldl_append, zeros]
  exact valueOf_digits n

/-- Only the text of zero starts with a zero. -/
theorem exists_digits_eq (n : Nat) :
    n = 0 ∨ ∃ c rest, digits n = c :: rest ∧ c ≠ '0' := by
  induction n using Nat.strongRecOn with
  | ind n ih =>
    rcases Nat.eq_zero_or_pos n with zero | pos
    · exact .inl zero
    right
    by_cases small : n < 10
    · have all : ∀ n : Fin 10, 0 < n.val → Nat.digitChar n.val ≠ '0' := by decide
      exact ⟨Nat.digitChar n, [], Nat.toDigits_of_lt_base small, all ⟨n, small⟩ pos⟩
    · -- The digits of a tenth come first.
      have split : digits n = digits (n / 10) ++ [Nat.digitChar (n % 10)] :=
        Nat.toDigits_of_base_le (by decide) (Nat.le_of_not_lt small)
      rcases ih (n / 10) (by omega) with zero | ⟨c, rest, eq, ne⟩
      · omega
      · exact ⟨c, rest ++ [Nat.digitChar (n % 10)], by rw [split, eq, List.cons_append], ne⟩

theorem digits_digitValue {c : Char} (digit : c.isDigit = true) :
    digits (digitValue c) = [c] := by
  have range : 48 ≤ c.toNat ∧ c.toNat ≤ 57 := Char.isDigit_iff_toNat.mp digit
  have all : ∀ n : Fin 10, digits n.val = [Char.ofNat (48 + n.val)] := by decide
  have last := all ⟨c.toNat - 48, by omega⟩
  rw [show 48 + (c.toNat - 48) = c.toNat by omega, Char.ofNat_toNat] at last
  exact last

theorem digitValue_lt {c : Char} (digit : c.isDigit = true) : digitValue c < 10 := by
  have range : 48 ≤ c.toNat ∧ c.toNat ≤ 57 := Char.isDigit_iff_toNat.mp digit
  show c.toNat - 48 < 10
  omega

/-- Digits go on with the decimal text of a number that is not zero. -/
theorem digits_foldl {ds : List Char} (pos : 0 < n)
    (each : ∀ d ∈ ds, d.isDigit = true) :
    digits (ds.foldl (fun n c => 10 * n + digitValue c) n) =
      digits n ++ ds := by
  induction ds generalizing n with
  | nil => rw [List.foldl_nil, List.append_nil]
  | cons d ds ih =>
    rw [List.forall_mem_cons] at each
    have last : digits (10 * n + digitValue d) = digits n ++ [d] := by
      rw [← digits_digitValue each.1]
      exact (Nat.toDigits_append_toDigits (by decide) pos (digitValue_lt each.1)).symm
    rw [List.foldl_cons, ih (by omega) each.2, last, List.append_assoc, List.singleton_append]

/-! ## Unsigned numerals -/

theorem le_foldl_digits (ds : List Char) (s : Nat) :
    s ≤ ds.foldl (fun n c => 10 * n + digitValue c) s := by
  induction ds generalizing s with
  | nil => exact Nat.le_refl s
  | cons d ds ih =>
    have le := ih (10 * s + digitValue d)
    rw [List.foldl_cons]
    omega

/-- What is left of a text after the plus sign, if it starts with one. -/
def afterSign : List Char → List Char
  | '+' :: rest => rest
  | cs => cs

/-- The number that a text denotes: at least one digit, after a plus sign or without one. -/
def unsigned? (s : String) : Option Nat :=
  let digits := afterSign s.toList
  if !digits.isEmpty && digits.all Char.isDigit then some (valueOf digits) else none

/-- Digits are read on from a number as long as they stay within the limit. -/
theorem readDigits_eq_ok_iff {cs : List Char} {s : Nat} (small : s ≤ limit) :
    readDigits limit s cs = .ok n ↔
      (∀ c ∈ cs, c.isDigit) ∧ cs.foldl (fun n c => 10 * n + digitValue c) s = n ∧ n ≤ limit := by
  induction cs generalizing s with
  | nil =>
    simp only [readDigits, Except.ok.injEq, List.foldl_nil, List.not_mem_nil, false_implies,
      implies_true, true_and]
    omega
  | cons c cs ih =>
    have grows := le_foldl_digits cs (10 * s + digitValue c)
    rw [readDigits, List.foldl_cons, List.forall_mem_cons]
    by_cases digit : c.isDigit
    · by_cases fits : 10 * s + digitValue c ≤ limit
      · rw [if_pos digit, if_pos fits, ih fits, and_assoc, and_iff_right digit]
      · -- What comes after a digit that is too much can only be more.
        rw [if_pos digit, if_neg fits]
        refine ⟨nofun, ?_⟩
        rintro ⟨-, rfl, within⟩
        omega
    · rw [if_neg digit]
      exact ⟨nofun, fun ⟨⟨isDigit, _⟩, _⟩ => absurd isDigit digit⟩

/-- What is read are the digits after the sign. -/
theorem readUnsigned_eq_ok_iff_afterSign {s : String} :
    readUnsigned limit s = .ok n ↔
      afterSign s.toList ≠ [] ∧ readDigits limit 0 (afterSign s.toList) = .ok n := by
  unfold readUnsigned
  split
  case h_1 empty => simp [empty, afterSign]
  case h_2 sign => simp [sign, afterSign]
  case h_3 rest more signed => simp [signed, afterSign, show rest ≠ [] from more]
  case h_4 some _ unsigned =>
    have same : afterSign s.toList = s.toList := by
      unfold afterSign
      split
      next rest signed => exact absurd signed (unsigned rest)
      next => rfl
    rw [same, and_iff_right some]

/-- **The numerals within a limit are read, and nothing else.** -/
theorem readUnsigned_eq_ok_iff {s : String} :
    readUnsigned limit s = .ok n ↔ unsigned? s = some n ∧ n ≤ limit := by
  rw [readUnsigned_eq_ok_iff_afterSign, readDigits_eq_ok_iff (Nat.zero_le limit), unsigned?,
    Option.ite_none_right_eq_some, Option.some.injEq, valueOf, Bool.and_eq_true, Bool.not_eq_true',
    List.isEmpty_eq_false_iff, List.all_eq_true]
  simp only [and_assoc]

/-- What starts with a digit has no sign. -/
theorem afterSign_of_digits {cs : List Char} (each : ∀ c ∈ cs, c.isDigit = true) :
    afterSign cs = cs := by
  unfold afterSign
  split
  next rest => exact absurd (each '+' List.mem_cons_self) (by decide)
  next => rfl

/-- **The decimal text of a number denotes the number.** -/
theorem unsigned?_text (n : Nat) : unsigned? (text n) = some n := by
  have each : ∀ c ∈ digits n, c.isDigit = true := fun c => isDigit_of_mem_digits
  have notNil : digits n ≠ [] := Nat.toDigits_ne_nil
  rw [unsigned?, text, String.toList_ofList, afterSign_of_digits each]
  simp [notNil, valueOf_digits, List.all_eq_true.mpr each]

/-- **The decimal text of a number within the limit is read as the number.** -/
theorem readUnsigned_text (within : n ≤ limit) : readUnsigned limit (text n) = .ok n :=
  readUnsigned_eq_ok_iff.mpr ⟨unsigned?_text n, within⟩

/-- A text that is refused denotes no number within the limit. -/
theorem exists_readUnsigned_eq_error_iff {s : String} :
    (∃ fault, readUnsigned limit s = .error fault) ↔ ∀ n, unsigned? s = some n → limit < n := by
  constructor
  · rintro ⟨fault, refused⟩ n denotes
    refine Nat.lt_of_not_le fun within => ?_
    have read := readUnsigned_eq_ok_iff.mpr ⟨denotes, within⟩
    rw [refused] at read
    cases read
  · intro beyond
    cases read : readUnsigned limit s with
    | error fault => exact ⟨fault, rfl⟩
    | ok n =>
      obtain ⟨denotes, within⟩ := readUnsigned_eq_ok_iff.mp read
      exact absurd (beyond n denotes) (Nat.not_lt.mpr within)

end SessionDirectory.Decimal
