import SessionDirectory.Json.Read
import SessionDirectory.Proofs.Json.Scan

/-!
# The texts of numerals

A numeral has a sign, digits before the point, digits after it and an exponent, and all but the
digits before the point may be left out. Whatever its parts, its text is read as what the parts
denote.

## Main definitions

* `Numeral.Writes`: a text that a numeral is written as

## Main results

* `Numeral.run_pointed`, `Numeral.run_exponent`: what is read behind the digits before the point
* `Numeral.Writes.parse_eq`: the text of a numeral is read as what the numeral denotes
-/

set_option autoImplicit false

namespace SessionDirectory.Json

namespace Numeral

/-- A text that an exponent is written as, empty without one. -/
inductive WritesExponent : Option (Bool × List Char) → List Char → Prop where
  | none : WritesExponent none []
  | unsigned {mark : Char} {ds : List Char} (isMark : mark = 'e' ∨ mark = 'E') (notNil : ds ≠ [])
      (digits : ∀ d ∈ ds, d.isDigit = true) : WritesExponent (some (false, ds)) (mark :: ds)
  | signed {mark : Char} {ds : List Char} (isMark : mark = 'e' ∨ mark = 'E') (down : Bool)
      (notNil : ds ≠ []) (digits : ∀ d ∈ ds, d.isDigit = true) :
      WritesExponent (some (down, ds)) (mark :: (if down then '-' else '+') :: ds)

/-- The digits after the point, behind the point if there are any. -/
def pointed (fraction : List Char) : List Char := if fraction = [] then [] else '.' :: fraction

/-- **A text that a numeral is written as.** -/
structure Writes (t : Numeral) (cs : List Char) : Prop where
  whole : IsWhole t.whole
  fraction : ∀ d ∈ t.fraction, d.isDigit = true
  exponent : ∃ es, WritesExponent t.exponent es ∧
    cs = signs t.negative ++ t.whole ++ pointed t.fraction ++ es

variable {t : Numeral} {ts : List Token} {cs ds es : List Char} {part : NumeralPart}

open Scanner

/-! ## Parts -/

theorem foldl_pushFraction (t : Numeral) (ds : List Char) :
    ds.foldl pushFraction t = { t with fraction := ds.reverse ++ t.fraction } := by
  induction ds generalizing t with
  | nil => rfl
  | cons d ds ih => rw [List.foldl_cons, ih, pushFraction, List.reverse_cons,
      List.append_assoc, List.singleton_append]

theorem foldl_pushExponent {down : Bool} {read : List Char} (t : Numeral)
    (exponent : t.exponent = some (down, read)) (ds : List Char) :
    ds.foldl pushExponent t = { t with exponent := some (down, ds.reverse ++ read) } := by
  induction ds generalizing t read with
  | nil => rw [List.foldl_nil, List.reverse_nil, List.nil_append, ← exponent]
  | cons d ds ih =>
    have next : (t.pushExponent d).exponent = some (down, d :: read) := by
      rw [pushExponent, exponent, Option.map_some]
    rw [List.foldl_cons, ih _ next, pushExponent, List.reverse_cons, List.append_assoc,
      List.singleton_append]

/-- Digits that lead into a part of a numeral and stay in it are added to it one after the other. -/
theorem run_enters {part part' : NumeralPart} {push : Numeral → Char → Numeral}
    (enters : ∀ t d, d.isDigit = true → t.extend? part d = some (part', push t d))
    (goesOn : ∀ t d, d.isDigit = true → t.extend? part' d = some (part', push t d)) (t : Numeral)
    (notNil : ds ≠ []) (digits : ∀ d ∈ ds, d.isDigit = true) :
    run ⟨ts, .numeral part t⟩ ds = some ⟨ts, .numeral part' (ds.foldl push t)⟩ := by
  cases ds with
  | nil => exact absurd rfl notNil
  | cons d ds =>
    rw [List.forall_mem_cons] at digits
    rw [run_goesOn (enters t d digits.1), run_pushes goesOn _ digits.2, List.foldl_cons]

theorem extend?_point (t : Numeral) (d : Char) (digit : d.isDigit = true) :
    t.extend? .point d = some (.fraction, t.pushFraction d) := if_pos digit

theorem extend?_fraction (t : Numeral) (d : Char) (digit : d.isDigit = true) :
    t.extend? .fraction d = some (.fraction, t.pushFraction d) := if_pos digit

theorem extend?_mark (t : Numeral) (d : Char) (digit : d.isDigit = true) :
    t.extend? .mark d = some (.exponent, t.pushExponent d) := if_pos digit

theorem extend?_markSign (t : Numeral) (d : Char) (digit : d.isDigit = true) :
    t.extend? .markSign d = some (.exponent, t.pushExponent d) := if_pos digit

theorem extend?_exponent (t : Numeral) (d : Char) (digit : d.isDigit = true) :
    t.extend? .exponent d = some (.exponent, t.pushExponent d) := if_pos digit

/-- The digits after the point are read behind those before it. -/
theorem run_pointed (ts : List Token) (t : Numeral) (before : part = .zero ∨ part = .whole)
    (unpointed : t.fraction = []) (digits : ∀ d ∈ ds, d.isDigit = true) :
    ∃ part', (part' = .zero ∨ part' = .whole ∨ part' = NumeralPart.fraction) ∧
      run ⟨ts, .numeral part t⟩ (pointed ds) =
        some ⟨ts, .numeral part' { t with fraction := ds.reverse }⟩ := by
  by_cases nil : ds = []
  · refine ⟨part, before.imp_right .inl, ?_⟩
    rw [nil, List.reverse_nil, ← unpointed]
    exact congrArg _ (if_pos unpointed)
  · have point : t.extend? part '.' = some (.point, t) := by
      rcases before with rfl | rfl <;> rfl
    refine ⟨.fraction, .inr (.inr rfl), ?_⟩
    rw [pointed, if_neg nil, run_goesOn point, run_enters extend?_point extend?_fraction t nil digits,
      foldl_pushFraction, unpointed, List.append_nil]

/-- The exponent is read behind the other digits, and the numeral may end. -/
theorem run_exponent (ts : List Token) (t : Numeral)
    (before : part = .zero ∨ part = .whole ∨ part = .fraction) (unmarked : t.exponent = none)
    {exponent : Option (Bool × List Char)} (writes : WritesExponent exponent es) :
    ∃ part', part'.complete = true ∧ run ⟨ts, .numeral part t⟩ es =
      some ⟨ts, .numeral part' { t with exponent := exponent.map fun e => (e.1, e.2.reverse) }⟩ := by
  -- The mark goes on with a numeral behind each of the parts where it may end.
  have marked : ∀ {mark : Char}, mark = 'e' ∨ mark = 'E' →
      t.extend? part mark = some (.mark, { t with exponent := some (false, []) }) := by
    rintro mark (rfl | rfl) <;> rcases before with rfl | rfl | rfl <;> rfl
  cases writes with
  | none =>
    refine ⟨part, by rcases before with rfl | rfl | rfl <;> rfl, ?_⟩
    rw [Option.map_none, ← unmarked]
    rfl
  | @unsigned mark ds isMark notNil digits =>
    refine ⟨.exponent, rfl, ?_⟩
    rw [run_goesOn (marked isMark), run_enters extend?_mark extend?_exponent _ notNil digits,
      foldl_pushExponent _ rfl, List.append_nil]
    rfl
  | @signed mark ds isMark down notNil digits =>
    have sign : extend? .mark { t with exponent := some (false, []) } (if down then '-' else '+') =
        some (.markSign, { t with exponent := some (down, []) }) := by
      cases down <;> rfl
    refine ⟨.exponent, rfl, ?_⟩
    rw [run_goesOn (marked isMark), run_goesOn sign,
      run_enters extend?_markSign extend?_exponent _ notNil digits, foldl_pushExponent _ rfl,
      List.append_nil]
    rfl

/-! ## The text -/

/-- Digits that were collected newest first are those of the numeral. -/
theorem reversed_collected (t : Numeral) :
    reversed ⟨t.negative, t.whole.reverse, t.fraction.reverse,
      t.exponent.map fun e => (e.1, e.2.reverse)⟩ = t := by
  obtain ⟨negative, whole, fraction, exponent⟩ := t
  cases exponent <;> simp [reversed]

/-- A numeral that may end is the last token at the end of a text. -/
theorem finish?_numeral (ts : List Token) (t : Numeral) (complete : part.complete = true) :
    finish? ⟨ts, .numeral part t⟩ = some (.number t.reversed.number? :: ts).reverse := by
  simp only [finish?, endNumeral?, if_pos complete, Option.map_some, emit]

/-- **The text of a numeral is read as what the numeral denotes.** -/
theorem Writes.parse_eq (writes : t.Writes cs) :
    Raw.parse (String.ofList cs) = .ok (.number t.number?) := by
  obtain ⟨es, exponent, rfl⟩ := writes.exponent
  obtain ⟨part, before, whole⟩ := run_whole [] writes.whole
  obtain ⟨part', before', fraction⟩ :=
    run_pointed [] ⟨t.negative, t.whole.reverse, [], none⟩ before rfl writes.fraction
  obtain ⟨part'', complete, marked⟩ := run_exponent []
    ⟨t.negative, t.whole.reverse, t.fraction.reverse, none⟩ before' rfl exponent
  -- The three parts follow each other, and the end of the text ends the numeral.
  have scanned : Token.scan (signs t.negative ++ t.whole ++ pointed t.fraction ++ es) =
      some [.number t.number?] := by
    rw [Token.scan, start, List.append_assoc, run_append, whole, Option.bind_some, run_append,
      fraction, Option.bind_some, marked, Option.bind_some, finish?_numeral _ _ complete]
    exact congrArg (fun t : Numeral => some [Token.number t.number?]) (reversed_collected t)
  rw [Raw.parse, Raw.parse?, String.toList_ofList, scanned]
  rfl

/-- The text of an unsigned word is its digits. -/
theorem Writes.eq_whole (writes : t.Writes cs) (word : t.IsWord) : cs = t.whole := by
  obtain ⟨es, exponent, rfl⟩ := writes.exponent
  rw [word.noExponent] at exponent
  cases exponent
  rw [word.unsigned, word.noFraction]
  simp [signs, pointed]

end Numeral

end SessionDirectory.Json
