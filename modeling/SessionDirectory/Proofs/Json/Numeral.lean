import SessionDirectory.Json.Number
import SessionDirectory.Proofs.Decimal

/-!
# What numerals denote

A numeral denotes a whole number only if it has no fraction and no exponent, as the number of an
exponent or of a fraction is a double even where it is whole; and minus zero is a double, too. As the
digits before the point have no leading zeros, they are the decimal text of their number.

## Main definitions

* `Numeral.IsWhole`: the digits before the point
* `Numeral.IsWord`: the numerals of unsigned words

## Main results

* `Numeral.number?_eq_integer_iff`, `Numeral.number?_eq_word_iff`: which numerals denote a whole
  number, and which an unsigned word
* `Numeral.number?_of_integer`: the decimal text of a whole number denotes the number
* `Numeral.isWhole_digits`, `Numeral.IsWhole.digits_valueOf`: the digits without leading zeros are the
  decimal texts
-/

set_option autoImplicit false

namespace SessionDirectory.Json

namespace Numeral

/-- The digits before the point: a zero alone, or digits of which the first is no zero. -/
inductive IsWhole : List Char → Prop where
  | zero : IsWhole ['0']
  | digits {c : Char} {rest : List Char} (first : c ≠ '0')
      (each : ∀ d ∈ c :: rest, d.isDigit = true) : IsWhole (c :: rest)

/-- **A numeral of an unsigned word**: neither a sign nor a fraction nor an exponent, and a number
that is not too large. -/
structure IsWord (t : Numeral) : Prop where
  unsigned : t.negative = false
  noFraction : t.fraction = []
  noExponent : t.exponent = none
  inRange : Decimal.valueOf t.whole ≤ 18446744073709551615

variable {t : Numeral} {ds : List Char} {n : Nat}

/-! ## Digits -/

/-- **The digits of a number have no leading zeros.** -/
theorem isWhole_digits (n : Nat) : IsWhole (Decimal.digits n) := by
  rcases Decimal.exists_digits_eq n with rfl | ⟨c, rest, eq, first⟩
  · exact .zero
  · have each : ∀ d ∈ Decimal.digits n, d.isDigit = true := fun d => Decimal.isDigit_of_mem_digits
    rw [eq] at each ⊢
    exact .digits first each

/-- **Digits without leading zeros are the decimal text of their number.** -/
theorem IsWhole.digits_valueOf (whole : IsWhole ds) :
    Decimal.digits (Decimal.valueOf ds) = ds := by
  cases whole with
  | zero => rfl
  | @digits c rest first each =>
    rw [List.forall_mem_cons] at each
    -- The first digit alone makes a number that is not zero, and the others go on with it.
    have pos : 0 < Decimal.digitValue c := by
      refine Nat.pos_of_ne_zero fun zero => first ?_
      have digits := Decimal.digits_digitValue each.1
      rw [zero] at digits
      exact (List.singleton_inj.mp digits).symm
    rw [Decimal.valueOf, List.foldl_cons, Nat.mul_zero, Nat.zero_add,
      Decimal.digits_foldl pos each.2, Decimal.digits_digitValue each.1, List.singleton_append]

/-! ## Numbers -/

/-- Digits are all appended if and only if they stay in range. -/
theorem extend_eq_iff {s : Nat} (small : s ≤ maxSignificand) :
    extend s ds = (n, []) ↔
      ds.foldl (fun n c => 10 * n + Decimal.digitValue c) s = n ∧ n ≤ maxSignificand := by
  induction ds generalizing s with
  | nil =>
    rw [extend, Prod.mk.injEq, and_iff_left rfl, List.foldl_nil]
    exact ⟨fun same => ⟨same, same ▸ small⟩, And.left⟩
  | cons d ds ih =>
    rw [extend, List.foldl_cons]
    by_cases fits : 10 * s + Decimal.digitValue d ≤ maxSignificand
    · rw [if_pos fits, ih fits]
    · -- The digit that is too much is left, and the number only grows with those behind it.
      rw [if_neg fits]
      refine iff_of_false nofun ?_
      rintro ⟨rfl, within⟩
      exact fits (Nat.le_trans (Decimal.le_foldl_digits ds _) within)

/-- A double is no whole number. -/
theorem double?_ne_integer (negative : Bool) (significand : Nat) (exponent : Int) (i : Integer) :
    double? negative significand exponent ≠ some (.integer i) := by
  rw [double?]
  intro same
  obtain ⟨f, -, kind⟩ := Option.map_eq_some_iff.mp same
  cases kind

theorem ofInt?_eq_some_iff {n : Int} {i : Integer} : Integer.ofInt? n = some i ↔ i.val = n := by
  obtain ⟨val, lower, upper⟩ := i
  rw [Integer.ofInt?]
  constructor
  · intro fits
    split at fits
    next => cases fits; rfl
    next => cases fits
  · rintro rfl
    exact dif_pos ⟨lower, upper⟩

/-- A significand with its sign. -/
def signedValue (negative : Bool) (significand : Nat) : Int :=
  if negative then -(significand : Int) else significand

/-- A significand without exponent is a whole number if it fits a word and is not minus zero. -/
theorem ofSignificand?_eq_integer_iff {negative : Bool} {significand : Nat} {i : Integer} :
    ofSignificand? negative significand = some (.integer i) ↔
      ¬ (negative = true ∧ significand = 0) ∧ i.val = signedValue negative significand := by
  rw [ofSignificand?]
  split
  next minusZero => exact iff_of_false (double?_ne_integer _ _ _ _) fun fits => fits.1 minusZero
  next notMinusZero =>
    rw [and_iff_right notMinusZero, signedValue, ← ofInt?_eq_some_iff]
    cases Integer.ofInt? (if negative then -(significand : Int) else significand) with
    | none => exact iff_of_false (double?_ne_integer _ _ _ _) nofun
    | some j => simp

/-- **A numeral denotes a whole number** if it has no fraction and no exponent, the number fits a
word, and the numeral is not minus zero. -/
theorem number?_eq_integer_iff {i : Integer} : t.number? = some (.integer i) ↔
    t.fraction = [] ∧ t.exponent = none ∧ ¬ (t.negative = true ∧ Decimal.valueOf t.whole = 0) ∧
      i.val = signedValue t.negative (Decimal.valueOf t.whole) := by
  cases read : extend 0 t.whole with
  | mk s left =>
    rw [number?, read]
    dsimp only
    split
    next plain =>
      obtain ⟨fraction, exponent, rfl⟩ := plain
      obtain ⟨rfl, -⟩ := (extend_eq_iff (Nat.zero_le _)).mp read
      rw [and_iff_right fraction, and_iff_right exponent]
      exact ofSignificand?_eq_integer_iff
    next plain =>
      apply iff_of_false
      · -- With a fraction, an exponent or more digits than fit, it is a double.
        intro denotes
        split at denotes
        next => exact double?_ne_integer _ _ _ _ denotes
        next =>
          split at denotes
          next =>
            split at denotes
            next => cases denotes
            next => exact double?_ne_integer _ _ _ _ denotes
          next => exact double?_ne_integer _ _ _ _ denotes
      · -- A number that fits a word has so few digits that all of them are appended.
        rintro ⟨fraction, exponent, -, value⟩
        have small : Decimal.valueOf t.whole ≤ maxSignificand := by
          have lower := i.lower
          have upper := i.upper
          show _ ≤ 18446744073709551615
          rw [signedValue] at value
          split at value <;> omega
        have all : extend 0 t.whole = (Decimal.valueOf t.whole, []) :=
          (extend_eq_iff (Nat.zero_le _)).mpr ⟨rfl, small⟩
        rw [read] at all
        exact plain ⟨fraction, exponent, (Prod.mk.inj all).2⟩

/-- **A numeral denotes an unsigned word** if it is written without sign, fraction and exponent. -/
theorem number?_eq_word_iff {w : UInt64} : t.number? = some (.integer (.ofUInt64 w)) ↔
    t.IsWord ∧ Decimal.valueOf t.whole = w.toNat := by
  have small := w.toNat_lt
  have val : (Integer.ofUInt64 w).val = w.toNat := rfl
  rw [number?_eq_integer_iff, val, signedValue]
  constructor
  · rintro ⟨fraction, exponent, notMinusZero, value⟩
    -- What has a sign is below zero, as it is not minus zero.
    cases negative : t.negative with
    | true =>
      rw [negative, if_pos rfl] at value
      exact absurd ⟨negative, by omega⟩ notMinusZero
    | false =>
      rw [negative, if_neg Bool.false_ne_true] at value
      exact ⟨⟨negative, fraction, exponent, by omega⟩, by omega⟩
  · rintro ⟨⟨unsigned, noFraction, noExponent, -⟩, value⟩
    rw [unsigned, if_neg Bool.false_ne_true, value]
    exact ⟨noFraction, noExponent, fun h => Bool.false_ne_true h.1, rfl⟩

/-- **The decimal text of a whole number denotes the number.** -/
theorem number?_of_integer (n : Integer) :
    number? ⟨decide (n.val < 0), Decimal.digits n.val.natAbs, [], none⟩ = some (.integer n) := by
  refine number?_eq_integer_iff.mpr ⟨rfl, rfl, ?_, ?_⟩
  · rw [Decimal.valueOf_digits, decide_eq_true_eq]
    omega
  · rw [Decimal.valueOf_digits, signedValue]
    simp only [decide_eq_true_eq]
    split <;> omega

end Numeral

end SessionDirectory.Json
