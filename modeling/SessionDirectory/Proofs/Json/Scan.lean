import SessionDirectory.Json.Token
import SessionDirectory.Proofs.Json.Numeral

/-!
# The tokens of written values

A value that is written out is scanned back into the tokens that it was written as: brackets and
separators, words, whole numbers and strings. The end of a numeral shows in what follows it only,
so what is said of a value is that the scanner settles once a value may end.

Doubles are left out. How they are written is a matter of their shortest text.

## Main definitions

* `Value.FloatFree`: the values without doubles
* `Value.tokens`: the tokens that a value is written as
* `Scanner.Settles`: a scanner has read some tokens, as soon as a value may end

## Main results

* `Scanner.run_whole`: the digits before the point are read, behind a sign or without one
* `Scanner.run_quote`: a quoted string is scanned back into the string
* `Value.FloatFree.scans`: a value is scanned back into its tokens
-/

set_option autoImplicit false

namespace SessionDirectory.Json

/-- No number in a value is a double. -/
inductive Value.FloatFree : Value → Prop where
  | null : FloatFree .null
  | bool (b : Bool) : FloatFree (.bool b)
  | integer (n : Integer) : FloatFree (.number (.integer n))
  | string (s : String) : FloatFree (.string s)
  | array {items : List Value} (each : ∀ v ∈ items, FloatFree v) : FloatFree (.array items)
  | object {members : List (String × Value)} (each : ∀ m ∈ members, FloatFree m.2) :
      FloatFree (.object members)

namespace Value

mutual

/-- The tokens that a value is written as. -/
def tokens : Value → List Token
  | .null => [.null]
  | .bool b => [.bool b]
  | .number n => [.number (some n)]
  | .string s => [.string (some s)]
  | .array [] => [.openArray, .closeArray]
  | .array (v :: rest) => .openArray :: v.tokens ++ tokensItems rest
  | .object [] => [.openObject, .closeObject]
  | .object ((name, v) :: rest) =>
    .openObject :: .string (some name) :: .colon :: v.tokens ++ tokensMembers rest

/-- The tokens of the items after the first one, and the closing bracket. -/
def tokensItems : List Value → List Token
  | [] => [.closeArray]
  | v :: rest => .comma :: v.tokens ++ tokensItems rest

/-- The tokens of the members after the first one, and the closing brace. -/
def tokensMembers : List (String × Value) → List Token
  | [] => [.closeObject]
  | (name, v) :: rest => .comma :: .string (some name) :: .colon :: v.tokens ++ tokensMembers rest

end

end Value

/-- The sign of a numeral, nothing unless it is negative. -/
def Numeral.signs (negative : Bool) : List Char := if negative then ['-'] else []

/-! ## The scanner -/

namespace Scanner

variable {s : Scanner} {ts tokens : List Token} {cs : List Char} {c : Char}

theorem run_nil (s : Scanner) : s.run [] = some s := rfl

theorem run_cons (s : Scanner) (c : Char) (cs : List Char) :
    s.run (c :: cs) = (s.step c).bind (·.run cs) := List.foldlM_cons

theorem run_append (s : Scanner) (cs cs' : List Char) :
    s.run (cs ++ cs') = (s.run cs).bind (·.run cs') := List.foldlM_append

/-- The characters that may follow a value inside of another one. -/
def closers : List Char := [',', ']', '\x7d']

/-- **A scanner has read tokens**, newest first, as soon as a value may end: at the end of the text
or before a character that may follow a value. -/
structure Settles (s : Scanner) (tokens : List Token) : Prop where
  finish : s.finish? = some tokens.reverse
  step : ∀ c ∈ closers, s.step c = (⟨tokens, .between⟩ : Scanner).step c

theorem settles_between (tokens : List Token) : Settles ⟨tokens, .between⟩ tokens :=
  ⟨rfl, fun _ _ => rfl⟩

theorem Settles.run_cons (settles : s.Settles tokens) (closes : c ∈ closers) (cs : List Char) :
    s.run (c :: cs) = (⟨tokens, .between⟩ : Scanner).run (c :: cs) := by
  rw [Scanner.run_cons, Scanner.run_cons, settles.step c closes]

/-! ### Numerals -/

/-- A character that belongs to a numeral goes on with it. -/
theorem run_goesOn {part part' : NumeralPart} {t t' : Numeral}
    (goesOn : t.extend? part c = some (part', t')) (cs : List Char) :
    run ⟨ts, .numeral part t⟩ (c :: cs) = run ⟨ts, .numeral part' t'⟩ cs := by
  have step : Scanner.step ⟨ts, .numeral part t⟩ c = some ⟨ts, .numeral part' t'⟩ := by
    simp only [Scanner.step, goesOn]
  rw [run_cons, step, Option.bind_some]

/-- Digits that stay in a part of a numeral are added to it one after the other. -/
theorem run_pushes {part : NumeralPart} {push : Numeral → Char → Numeral}
    (goesOn : ∀ t d, d.isDigit = true → t.extend? part d = some (part, push t d)) (t : Numeral)
    {ds : List Char} (digits : ∀ d ∈ ds, d.isDigit = true) :
    run ⟨ts, .numeral part t⟩ ds = some ⟨ts, .numeral part (ds.foldl push t)⟩ := by
  induction ds generalizing t with
  | nil => rfl
  | cons d ds ih =>
    rw [List.forall_mem_cons] at digits
    rw [run_goesOn (goesOn t d digits.1), ih _ digits.2, List.foldl_cons]

theorem extend?_whole (t : Numeral) (d : Char) (digit : d.isDigit = true) :
    t.extend? .whole d = some (.whole, t.pushWhole d) := if_pos digit

theorem foldl_pushWhole (t : Numeral) (ds : List Char) :
    ds.foldl Numeral.pushWhole t = { t with whole := ds.reverse ++ t.whole } := by
  induction ds generalizing t with
  | nil => rfl
  | cons d ds ih => rw [List.foldl_cons, ih, Numeral.pushWhole, List.reverse_cons,
      List.append_assoc, List.singleton_append]

/-- A numeral that may end settles as its number. -/
theorem settles_numeral (ts : List Token) {part : NumeralPart} {t : Numeral}
    (whole : part = .zero ∨ part = .whole) :
    Settles ⟨ts, .numeral part t⟩ (.number t.reversed.number? :: ts) := by
  rcases whole with rfl | rfl
  all_goals
    refine ⟨rfl, fun c closes => ?_⟩
    -- No character that may follow a value goes on with a numeral.
    simp only [closers, List.mem_cons, List.not_mem_nil, or_false] at closes
    rcases closes with rfl | rfl | rfl <;> rfl

/-- The digits before the point are read from the first one on, or after a sign. -/
theorem run_whole (ts : List Token) {ds : List Char} (whole : Numeral.IsWhole ds) :
    ∃ part, (part = NumeralPart.zero ∨ part = NumeralPart.whole) ∧ ∀ negative,
      run ⟨ts, .between⟩ (Numeral.signs negative ++ ds) =
        some ⟨ts, .numeral part ⟨negative, ds.reverse, [], none⟩⟩ := by
  cases whole with
  | zero =>
    -- A numeral that starts with a zero goes on with no digit.
    exact ⟨.zero, .inl rfl, fun negative => by cases negative <;> rfl⟩
  | @digits c rest first each =>
    have digits := List.forall_mem_cons.mp each
    have rests : ∀ negative, run ⟨ts, .numeral .whole ⟨negative, [c], [], none⟩⟩ rest =
        some ⟨ts, .numeral .whole ⟨negative, (c :: rest).reverse, [], none⟩⟩ := by
      intro negative
      rw [run_pushes extend?_whole _ digits.2, foldl_pushWhole, List.reverse_cons]
    refine ⟨.whole, .inr rfl, fun negative => ?_⟩
    cases negative with
    | false =>
      have start : Scanner.step ⟨ts, .between⟩ c =
          some ⟨ts, .numeral .whole ⟨false, [c], [], none⟩⟩ := by
        show begin? ⟨ts, .between⟩ c = _
        unfold begin?
        split
        case h_17 => exact if_pos digits.1
        case h_16 => exact absurd rfl first
        all_goals exact absurd digits.1 (by decide)
      show run ⟨ts, .between⟩ (c :: rest) = _
      rw [run_cons, start, Option.bind_some, rests]
    | true =>
      have goesOn : Numeral.extend? .sign ⟨true, [], [], none⟩ c =
          some (.whole, ⟨true, [c], [], none⟩) := by
        simp only [Numeral.extend?, first, digits.1, if_true, if_false, Numeral.pushWhole]
      show run ⟨ts, .numeral .sign ⟨true, [], [], none⟩⟩ (c :: rest) = _
      rw [run_goesOn goesOn, rests]

/-- A whole number is scanned back into itself. -/
theorem settles_integer (n : Integer) :
    ∃ s, run ⟨ts, .between⟩ (Number.write (.integer n)) = some s ∧
      s.Settles (.number (some (.integer n)) :: ts) := by
  obtain ⟨part, whole, run⟩ := run_whole ts (Numeral.isWhole_digits n.val.natAbs)
  have value := Numeral.number?_of_integer n
  have written : Number.write (.integer n) =
      Numeral.signs (decide (n.val < 0)) ++ Decimal.digits n.val.natAbs := by
    rw [Number.write, Decimal.signed, Numeral.signs]
    split <;> simp [*]
  have settles := settles_numeral ts
    (t := ⟨decide (n.val < 0), (Decimal.digits n.val.natAbs).reverse, [], none⟩) whole
  rw [Numeral.reversed, List.reverse_reverse] at settles
  rw [written, run]
  exact ⟨_, rfl, value ▸ settles⟩

/-! ### Strings -/

theorem step_text (units : List TextUnit) (c : Char) : Scanner.step ⟨ts, .text units⟩ c =
    if c = '"' then
      some ⟨.string ((TextUnit.decode units.reverse).map String.ofList) :: ts, .between⟩
    else if c = '\\' then some ⟨ts, .escape units⟩
    else if c.toNat < 0x20 then none
    else some ⟨ts, .text (.char c :: units)⟩ := rfl

/-- The characters that have a letter of their own behind a backslash. -/
def named : List Char := ['"', '\\', '\x08', '\x0c', '\n', '\r', '\t']

/-- What a character is read as after it has been written: the other controls are written as code
units. -/
def writtenUnit (c : Char) : TextUnit :=
  if c.toNat < 0x20 ∧ c ∉ named then .code c.toNat else .char c

theorem hexValue?_hexDigit {n : Nat} (digit : n < 16) : hexValue? (hexDigit n) = some n := by
  have all : ∀ n : Fin 16, hexValue? (hexDigit n.val) = some n.val := by decide
  exact all ⟨n, digit⟩

theorem step_hex (units : List TextUnit) {n : Nat} (digit : n < 16) (digits code : Nat) :
    Scanner.step ⟨ts, .hex units digits code⟩ (hexDigit n) =
      if digits = 3 then some ⟨ts, .text (.code (16 * code + n) :: units)⟩
      else some ⟨ts, .hex units (digits + 1) (16 * code + n)⟩ := by
  show (hexValue? (hexDigit n)).map _ = _
  rw [hexValue?_hexDigit digit, Option.map_some]
  split <;> rfl

theorem run_escape (units : List TextUnit) (c : Char) :
    run ⟨ts, .text units⟩ (escape c) = some ⟨ts, .text (writtenUnit c :: units)⟩ := by
  by_cases letter : c ∈ named
  · simp only [named, List.mem_cons, List.not_mem_nil, or_false] at letter
    rcases letter with rfl | rfl | rfl | rfl | rfl | rfl | rfl <;> rfl
  -- The others are written as they are, unless they are controls.
  have other := letter
  simp only [named, List.mem_cons, List.not_mem_nil, or_false, not_or] at other
  by_cases control : c.toNat < 0x20
  · have written : escape c =
        ['\\', 'u', '0', '0', hexDigit (c.toNat / 16), hexDigit (c.toNat % 16)] := by
      simp [escape, other, control]
    rw [written, writtenUnit, if_pos ⟨control, letter⟩]
    -- The first two digits are zeros, so two are left to read.
    show run ⟨ts, .hex units 2 0⟩ [hexDigit (c.toNat / 16), hexDigit (c.toNat % 16)] = _
    rw [run_cons, step_hex units (by omega), if_neg (by decide), Option.bind_some, run_cons,
      step_hex units (by omega), if_pos rfl, Option.bind_some, run_nil, Nat.mul_zero, Nat.zero_add,
      Nat.div_add_mod]
  · have written : escape c = [c] := by simp [escape, other, control]
    have plain : ¬ (c.toNat < 0x20 ∧ c ∉ named) := fun h => control h.1
    rw [written, writtenUnit, if_neg plain, run_cons, step_text, if_neg other.1,
      if_neg other.2.1, if_neg control, Option.bind_some, run_nil]

theorem run_escaped (units : List TextUnit) (cs : List Char) :
    run ⟨ts, .text units⟩ (cs.flatMap escape) =
      some ⟨ts, .text ((cs.map writtenUnit).reverse ++ units)⟩ := by
  induction cs generalizing units with
  | nil => rfl
  | cons c cs ih =>
    rw [List.flatMap_cons, run_append, run_escape, Option.bind_some, ih, List.map_cons,
      List.reverse_cons, List.append_assoc, List.singleton_append]

/-- A code unit of a control is no half of a surrogate pair. -/
theorem decode_code {unit : Nat} (control : unit < 0x20) (rest : List TextUnit) :
    TextUnit.decode (.code unit :: rest) =
      (TextUnit.decode rest).map (Char.ofNat unit :: ·) := by
  have notHigh : isHighSurrogate unit = false := by
    simp only [isHighSurrogate, Bool.and_eq_false_iff, decide_eq_false_iff_not]
    omega
  have notLow : isLowSurrogate unit = false := by
    simp only [isLowSurrogate, Bool.and_eq_false_iff, decide_eq_false_iff_not]
    omega
  cases rest with
  | nil => simp [TextUnit.decode, notHigh, notLow]
  | cons next rest => cases next <;> simp [TextUnit.decode, notHigh, notLow]

/-- **Written characters are decoded into themselves.** -/
theorem decode_writtenUnit (cs : List Char) :
    TextUnit.decode (cs.map writtenUnit) = some cs := by
  induction cs with
  | nil => rfl
  | cons c cs ih =>
    rw [List.map_cons, writtenUnit]
    split
    next control =>
      rw [decode_code control.1, ih, Option.map_some, Char.ofNat_toNat]
    next => rw [TextUnit.decode, ih, Option.map_some]

/-- **A quoted string is scanned back into the string.** -/
theorem run_quote (text : String) :
    run ⟨ts, .between⟩ (quote text) = some ⟨.string (some text) :: ts, .between⟩ := by
  have start : Scanner.step ⟨ts, .between⟩ '"' = some ⟨ts, .text []⟩ := rfl
  rw [quote, List.cons_append, run_cons, start, Option.bind_some, run_append, run_escaped,
    Option.bind_some, List.append_nil, run_cons, step_text, if_pos rfl, List.reverse_reverse,
    decode_writtenUnit, Option.map_some, String.ofList_toList, Option.bind_some, run_nil]

/-! ### Values -/

/-- A value is scanned back into its tokens. -/
def Scans (v : Value) : Prop :=
  ∀ ts, ∃ s, run ⟨ts, .between⟩ v.write = some s ∧ s.Settles (v.tokens.reverse ++ ts)

/-- What follows a value is scanned as if the value had ended. -/
theorem Scans.run_append {v : Value} (scans : Scans v) (closes : c ∈ closers) (cs : List Char) :
    run ⟨ts, .between⟩ (v.write ++ c :: cs) =
      run ⟨v.tokens.reverse ++ ts, .between⟩ (c :: cs) := by
  obtain ⟨s, run, settles⟩ := scans ts
  rw [Scanner.run_append, run, Option.bind_some, settles.run_cons closes]

/-- What follows an item starts with a character that may follow a value. -/
theorem exists_writeItems_eq (items : List Value) :
    ∃ c cs, Value.writeItems items = c :: cs ∧ c ∈ closers := by
  cases items with
  | nil => exact ⟨']', [], rfl, by decide⟩
  | cons v rest => exact ⟨',', _, rfl, by decide⟩

theorem exists_writeMembers_eq (members : List (String × Value)) :
    ∃ c cs, Value.writeMembers members = c :: cs ∧ c ∈ closers := by
  cases members with
  | nil => exact ⟨'\x7d', [], rfl, by decide⟩
  | cons m rest => exact ⟨',', _, rfl, by decide⟩

theorem run_writeItems {items : List Value} (each : ∀ v ∈ items, Scans v) (ts : List Token) :
    run ⟨ts, .between⟩ (Value.writeItems items) =
      some ⟨(Value.tokensItems items).reverse ++ ts, .between⟩ := by
  induction items generalizing ts with
  | nil => rfl
  | cons v rest ih =>
    rw [List.forall_mem_cons] at each
    obtain ⟨c, cs, after, closes⟩ := exists_writeItems_eq rest
    have comma : Scanner.step ⟨ts, .between⟩ ',' = some ⟨.comma :: ts, .between⟩ := rfl
    rw [Value.writeItems, List.cons_append, run_cons, comma, Option.bind_some, after,
      each.1.run_append closes, ← after, ih each.2, Value.tokensItems]
    simp

/-- A name, its colon, a value and what follows it. -/
theorem run_member {v : Value} (scans : Scans v) (closes : c ∈ closers) (name : String)
    (ts : List Token) (cs : List Char) :
    run ⟨ts, .between⟩ (quote name ++ ':' :: v.write ++ c :: cs) =
      run ⟨v.tokens.reverse ++ .colon :: .string (some name) :: ts, .between⟩ (c :: cs) := by
  have colon : Scanner.step ⟨.string (some name) :: ts, .between⟩ ':' =
      some ⟨.colon :: .string (some name) :: ts, .between⟩ := rfl
  rw [List.append_assoc, Scanner.run_append, run_quote, Option.bind_some, List.cons_append,
    run_cons, colon, Option.bind_some, scans.run_append closes]

theorem run_writeMembers {members : List (String × Value)} (each : ∀ m ∈ members, Scans m.2)
    (ts : List Token) :
    run ⟨ts, .between⟩ (Value.writeMembers members) =
      some ⟨(Value.tokensMembers members).reverse ++ ts, .between⟩ := by
  induction members generalizing ts with
  | nil => rfl
  | cons m rest ih =>
    obtain ⟨name, v⟩ := m
    rw [List.forall_mem_cons] at each
    obtain ⟨c, cs, after, closes⟩ := exists_writeMembers_eq rest
    have comma : Scanner.step ⟨ts, .between⟩ ',' = some ⟨.comma :: ts, .between⟩ := rfl
    rw [Value.writeMembers, List.cons_append, List.cons_append, run_cons, comma, Option.bind_some,
      after, run_member each.1 closes, ← after, ih each.2, Value.tokensMembers]
    simp

end Scanner

open Scanner

/-- **A value is scanned back into its tokens.** -/
theorem Value.FloatFree.scans {v : Value} (free : v.FloatFree) : Scans v := by
  induction free with
  | null => exact fun ts => ⟨_, rfl, settles_between _⟩
  | bool b => cases b <;> exact fun ts => ⟨_, rfl, settles_between _⟩
  | integer n => exact fun ts => settles_integer n
  | string s => exact fun ts => ⟨_, run_quote s, settles_between _⟩
  | @array items each ih =>
    intro ts
    cases items with
    | nil => exact ⟨_, rfl, settles_between _⟩
    | cons v rest =>
      rw [List.forall_mem_cons] at ih
      obtain ⟨c, cs, after, closes⟩ := exists_writeItems_eq rest
      -- The text after the first item starts with a comma or a bracket, where the item may end.
      have bracket : Scanner.step ⟨ts, .between⟩ '[' = some ⟨.openArray :: ts, .between⟩ := rfl
      refine ⟨⟨(Value.array (v :: rest)).tokens.reverse ++ ts, .between⟩, ?_, settles_between _⟩
      rw [Value.write, List.cons_append, run_cons, bracket, Option.bind_some, after,
        ih.1.run_append closes, ← after, run_writeItems ih.2, Value.tokens]
      simp
  | @object members each ih =>
    intro ts
    cases members with
    | nil => exact ⟨_, rfl, settles_between _⟩
    | cons m rest =>
      obtain ⟨name, v⟩ := m
      rw [List.forall_mem_cons] at ih
      obtain ⟨c, cs, after, closes⟩ := exists_writeMembers_eq rest
      have brace : Scanner.step ⟨ts, .between⟩ '\x7b' = some ⟨.openObject :: ts, .between⟩ := rfl
      refine ⟨⟨(Value.object ((name, v) :: rest)).tokens.reverse ++ ts, .between⟩, ?_,
        settles_between _⟩
      rw [Value.write, List.cons_append, List.cons_append, run_cons, brace, Option.bind_some, after,
        run_member ih.1 closes, ← after, run_writeMembers ih.2, Value.tokens]
      simp

/-- The text of a value is scanned into its tokens. -/
theorem Value.FloatFree.scan_write {v : Value} (free : v.FloatFree) :
    Token.scan v.write = some v.tokens := by
  obtain ⟨s, run, settles⟩ := free.scans []
  rw [Token.scan, start, run, Option.bind_some, settles.finish, List.append_nil,
    List.reverse_reverse]

end SessionDirectory.Json
