import Mathlib.Data.List.Basic
import SessionDirectory.Proofs.Json.Scan

/-!
# Texts split at brackets and separators

A bracket or a separator is a token of one character, and no other token goes over it unless it is
quoted. So the tokens of a text in front of a bracket and behind it are scanned from the parts of
the text in front of the character and behind it, and texts with a bracket between them are scanned
into the tokens of both. Between its tokens a text has blanks.

## Main definitions

* `Token.mark?`: the character of a bracket or a separator
* `Scanner.Move`: what one character does
* `Scanner.scanFrom`: the tokens of a text that starts inside of a token

## Main results

* `Scanner.move_of_step`: every step is one of three moves
* `Scanner.exists_of_scanFrom_eq_append`: a text is split at each of its brackets and separators
* `Token.scan_append_mark`: two texts are put together around a bracket or a separator
* `Token.scan_eq_nil_iff`: the texts without tokens are the blank ones
-/

set_option autoImplicit false

namespace SessionDirectory.Json

/-- The character that a bracket or a separator is written as. -/
def Token.mark? : Token → Option Char
  | .openArray => some '['
  | .closeArray => some ']'
  | .openObject => some '\x7b'
  | .closeObject => some '\x7d'
  | .comma => some ','
  | .colon => some ':'
  | .null | .bool _ | .number _ | .string _ => none

/-- The blanks between tokens. -/
def blanks : List Char := [' ', '\t', '\n', '\r']

/-- The word that a scanner is inside of is no bracket and no separator. -/
def ScanMode.Plain : ScanMode → Prop
  | .word _ token => token.mark? = none
  | _ => True

/-- Two lists in a row that have an element have it in the second one or in the first one. -/
theorem append_eq_append_cons {α : Type} {as bs cs ds : List α} {d : α}
    (same : as ++ bs = cs ++ d :: ds) :
    (∃ es, cs = as ++ es ∧ bs = es ++ d :: ds) ∨ ∃ es, as = cs ++ d :: es ∧ ds = es ++ bs := by
  rcases List.append_eq_append_iff.mp same with later | ⟨es, early, late⟩
  · exact .inl later
  · cases es with
    | nil => exact .inl ⟨[], by rw [early]; simp, by rw [late]; rfl⟩
    | cons e es =>
      obtain ⟨rfl, rfl⟩ := List.cons.inj late
      exact .inr ⟨es, early, rfl⟩

namespace Scanner

variable {s s' : Scanner} {mode : ScanMode} {t : Token} {ts ts' : List Token} {cs : List Char}
  {c : Char}

/-! ## Tokens read before -/

/-- The scanner that has read other tokens before. -/
def behind (s : Scanner) (ts : List Token) : Scanner := ⟨s.tokens ++ ts, s.mode⟩

theorem begin?_behind (s : Scanner) (ts : List Token) (c : Char) :
    (s.behind ts).begin? c = (s.begin? c).map (·.behind ts) := by
  unfold begin?
  split
  -- Every other character begins a numeral or nothing.
  case h_17 => split <;> rfl
  all_goals rfl

theorem endNumeral?_behind (s : Scanner) (ts : List Token) (part : NumeralPart) (n : Numeral) :
    (s.behind ts).endNumeral? part n = (s.endNumeral? part n).map (·.behind ts) := by
  unfold endNumeral?
  split <;> rfl

/-- A scanner does the same whatever it has read before. -/
theorem step_behind (s : Scanner) (ts : List Token) (c : Char) :
    (s.behind ts).step c = (s.step c).map (·.behind ts) := by
  obtain ⟨tokens, mode⟩ := s
  cases mode with
  | between => exact begin?_behind _ ts c
  | word rest token =>
    match rest with
    | [] => rfl
    | [last] =>
      show (if c = last then _ else _) = Option.map _ (if c = last then _ else _)
      split <;> rfl
    | next :: more :: rest =>
      show (if c = next then _ else _) = Option.map _ (if c = next then _ else _)
      split <;> rfl
  | numeral part n =>
    -- The character may end the numeral and begin the next token at once.
    have ended := endNumeral?_behind ⟨tokens, .numeral part n⟩ ts part n
    simp only [behind] at ended
    simp only [behind, step]
    split
    · rfl
    · rw [ended]
      cases endNumeral? ⟨tokens, .numeral part n⟩ part n with
      | none => rfl
      | some s => exact begin?_behind s ts c
  | text units =>
    simp only [behind, step]
    split
    · rfl
    · split
      · rfl
      · split <;> rfl
  | escape units =>
    simp only [behind, step]
    split
    · rfl
    · rw [Option.map_map]
      rfl
  | hex units digits code =>
    simp only [behind, step, Option.map_map]
    congr 1
    funext d
    simp only [Function.comp]
    split <;> rfl

theorem run_behind (s : Scanner) (ts : List Token) (cs : List Char) :
    (s.behind ts).run cs = (s.run cs).map (·.behind ts) := by
  induction cs generalizing s with
  | nil => rfl
  | cons c cs ih =>
    rw [run_cons, run_cons, step_behind]
    cases s.step c with
    | none => rfl
    | some s => exact ih s

theorem finish?_behind (s : Scanner) (ts : List Token) :
    (s.behind ts).finish? = s.finish?.map (ts.reverse ++ ·) := by
  obtain ⟨tokens, mode⟩ := s
  cases mode with
  | between => simp [behind, finish?]
  | numeral part n =>
    simp only [behind, finish?, endNumeral?]
    split <;> simp [emit]
  | word | text | escape | hex => rfl

/-- The tokens of a text that starts inside of a token. -/
def scanFrom (mode : ScanMode) (cs : List Char) : Option (List Token) :=
  (run ⟨[], mode⟩ cs).bind finish?

theorem scanFrom_cons (mode : ScanMode) (c : Char) (cs : List Char) :
    scanFrom mode (c :: cs) = (step ⟨[], mode⟩ c).bind fun s =>
      (scanFrom s.mode cs).map (s.tokens.reverse ++ ·) := by
  rw [scanFrom, run_cons, Option.bind_assoc]
  congr 1
  funext s
  show ((behind ⟨[], s.mode⟩ s.tokens).run cs).bind finish? = _
  rw [run_behind, scanFrom]
  cases run ⟨[], s.mode⟩ cs with
  | none => rfl
  | some s' => exact finish?_behind s' s.tokens

/-! ## Moves -/

theorem endNumeral?_eq_some_iff {part : NumeralPart} {n : Numeral} :
    s.endNumeral? part n = some s' ↔
      part.complete = true ∧ s.emit (.number n.reversed.number?) = s' := by
  rw [endNumeral?, Option.ite_none_right_eq_some, Option.some.injEq]

/-- Where a text may end, a bracket or a separator may follow. -/
theorem step_of_mark (ends : s.finish? = some ts) (mark : t.mark? = some c) :
    s.step c = some ⟨t :: ts.reverse, .between⟩ := by
  have begins : ∀ s : Scanner, s.begin? c = some (s.emit t) := by
    intro s
    cases t <;> cases mark <;> rfl
  obtain ⟨tokens, mode⟩ := s
  cases mode with
  | between =>
    cases ends
    show begin? _ c = _
    rw [begins, List.reverse_reverse]
    rfl
  | numeral part n =>
    -- No numeral goes on over a bracket or a separator.
    have stops : n.extend? part c = none := by
      cases t <;> cases mark <;> cases part <;> rfl
    obtain ⟨s', whole, same⟩ := Option.map_eq_some_iff.mp ends
    simp only [step, stops, whole, Option.bind_some, begins, ← same, List.reverse_reverse]
    rfl
  | word | text | escape | hex => cases ends

/-- A text ends inside of a numeral or between tokens. -/
theorem finish?_cases (ends : finish? ⟨[], mode⟩ = some ts) :
    (mode = .between ∧ ts = []) ∨ ∃ n, ts = [.number n] := by
  cases mode with
  | between => exact .inl ⟨rfl, (Option.some.inj ends).symm⟩
  | numeral part n =>
    obtain ⟨s', whole, rfl⟩ := Option.map_eq_some_iff.mp ends
    obtain ⟨-, rfl⟩ := endNumeral?_eq_some_iff.mp whole
    exact .inr ⟨_, rfl⟩
  | word | text | escape | hex => cases ends

/-- No bracket and no separator ends with the text. -/
theorem mark?_eq_none_of_finish? (ends : finish? ⟨[], mode⟩ = some ts) :
    ∀ t ∈ ts, t.mark? = none := by
  obtain ⟨-, rfl⟩ | ⟨n, rfl⟩ := finish?_cases ends
  · exact List.forall_mem_nil _
  · exact List.forall_mem_singleton.mpr rfl

/-- **What one character does** to a scanner that has read no tokens yet: the scanner goes on
without a token, a token ends that is no bracket and no separator, or the character is a bracket or
a separator and the text might as well end before it. -/
inductive Move (c : Char) (mode : ScanMode) : Scanner → Prop
  | stays {next : ScanMode} (plain : next.Plain) (inside : mode ≠ .between → next ≠ .between) :
      Move c mode ⟨[], next⟩
  | ends {t : Token} {next : ScanMode} (unmarked : t.mark? = none) (plain : next.Plain) :
      Move c mode ⟨[t], next⟩
  | marks {t : Token} {ts : List Token} (ends : finish? ⟨[], mode⟩ = some ts)
      (mark : t.mark? = some c) : Move c mode ⟨t :: ts.reverse, .between⟩

theorem Move.plain (move : Move c mode s) : s.mode.Plain := by
  cases move with
  | stays plain => exact plain
  | ends _ plain => exact plain
  | marks => exact trivial

/-- A bracket or a separator is a token at once, and every other token is gone into. -/
theorem begin?_cases (begins : s.begin? c = some s') :
    s'.mode.Plain ∧ (s'.tokens = s.tokens ∨ ∃ t, t.mark? = some c ∧ s' = s.emit t) := by
  unfold begin? at begins
  split at begins
  case h_5 => cases begins; exact ⟨trivial, .inr ⟨.openArray, rfl, rfl⟩⟩
  case h_6 => cases begins; exact ⟨trivial, .inr ⟨.closeArray, rfl, rfl⟩⟩
  case h_7 => cases begins; exact ⟨trivial, .inr ⟨.openObject, rfl, rfl⟩⟩
  case h_8 => cases begins; exact ⟨trivial, .inr ⟨.closeObject, rfl, rfl⟩⟩
  case h_9 => cases begins; exact ⟨trivial, .inr ⟨.comma, rfl, rfl⟩⟩
  case h_10 => cases begins; exact ⟨trivial, .inr ⟨.colon, rfl, rfl⟩⟩
  case h_17 =>
    obtain ⟨-, eq⟩ := Option.ite_none_right_eq_some.mp begins
    cases eq
    exact ⟨trivial, .inl rfl⟩
  all_goals
    cases begins
    exact ⟨by trivial, .inl rfl⟩

/-- **Every step is one of the three moves.** -/
theorem move_of_step (plain : mode.Plain) (step : step ⟨[], mode⟩ c = some s) : Move c mode s := by
  cases mode with
  | between =>
    obtain ⟨plain, same | ⟨t, mark, rfl⟩⟩ := begin?_cases step
    · obtain ⟨tokens, next⟩ := s
      obtain rfl : tokens = [] := same
      exact .stays plain fun inside => absurd rfl inside
    · have ends : finish? ⟨[], .between⟩ = some [] := rfl
      exact .marks ends mark
  | word rest token =>
    -- With its last letter a word ends, and it is known to be no bracket.
    match rest with
    | [] => cases step
    | [last] =>
      obtain ⟨-, eq⟩ := Option.ite_none_right_eq_some.mp step
      cases eq
      exact .ends plain trivial
    | next :: more :: rest =>
      obtain ⟨-, eq⟩ := Option.ite_none_right_eq_some.mp step
      cases eq
      exact .stays plain fun _ => nofun
  | numeral part n =>
    unfold Scanner.step at step
    simp only at step
    split at step
    · cases step
      exact .stays trivial fun _ => nofun
    · -- The numeral has ended, so the character begins the next token.
      obtain ⟨ended, whole, begins⟩ := Option.bind_eq_some_iff.mp step
      have ends : finish? ⟨[], .numeral part n⟩ = some ended.tokens.reverse := by
        show Option.map _ _ = _
        rw [whole]
        rfl
      obtain ⟨-, rfl⟩ := endNumeral?_eq_some_iff.mp whole
      obtain ⟨plain, same | ⟨t, mark, rfl⟩⟩ := begin?_cases begins
      · obtain ⟨tokens, next⟩ := s
        obtain rfl : tokens = [.number n.reversed.number?] := same
        exact .ends rfl plain
      · exact .marks ends mark
  | text units =>
    rw [step_text] at step
    split at step
    · cases step
      exact .ends rfl trivial
    · split at step
      · cases step
        exact .stays trivial fun _ => nofun
      · obtain ⟨-, eq⟩ := Option.ite_none_left_eq_some.mp step
        cases eq
        exact .stays trivial fun _ => nofun
  | escape units =>
    unfold Scanner.step at step
    simp only at step
    split at step
    · cases step
      exact .stays trivial fun _ => nofun
    · obtain ⟨_, -, eq⟩ := Option.map_eq_some_iff.mp step
      cases eq
      exact .stays trivial fun _ => nofun
  | hex units digits code =>
    obtain ⟨d, -, eq⟩ := Option.map_eq_some_iff.mp step
    split at eq
    · cases eq
      exact .stays trivial fun _ => nofun
    · cases eq
      exact .stays trivial fun _ => nofun

/-! ## Split texts -/

/-- **A text is split at each of its brackets and separators.** The part in front may start inside
of a token. -/
theorem exists_of_scanFrom_eq_append (plain : mode.Plain) (mark : t.mark? = some c)
    (scanned : scanFrom mode cs = some (ts ++ t :: ts')) :
    ∃ front rest, cs = front ++ c :: rest ∧ scanFrom mode front = some ts ∧
      Token.scan rest = some ts' := by
  have marked : ∀ {ts : List Token}, (∀ t ∈ ts, t.mark? = none) → t ∉ ts := by
    intro ts unmarked mem
    rw [unmarked t mem] at mark
    cases mark
  induction cs generalizing mode ts with
  | nil => exact absurd (by simp) (marked (mark?_eq_none_of_finish? scanned))
  | cons d cs ih =>
    rw [scanFrom_cons] at scanned
    obtain ⟨s, step, scanned⟩ := Option.bind_eq_some_iff.mp scanned
    obtain ⟨more, later, whole⟩ := Option.map_eq_some_iff.mp scanned
    have move := move_of_step plain step
    rcases append_eq_append_cons whole with ⟨es, rfl, rfl⟩ | ⟨es, early, rfl⟩
    · -- The token comes later in the text.
      obtain ⟨front, rest, rfl, before, after⟩ := ih move.plain later
      refine ⟨d :: front, rest, rfl, ?_, after⟩
      rw [scanFrom_cons, step, Option.bind_some, before]
      rfl
    · -- The token has just been read, so it is the last one so far.
      have mem : t ∈ s.tokens := List.mem_reverse.mp (by rw [early]; simp)
      cases move with
      | stays => cases mem
      | ends unmarked => exact absurd mem (marked (List.forall_mem_singleton.mpr unmarked))
      | @marks last before ends mark' =>
        rw [List.reverse_cons, List.reverse_reverse] at early
        rcases List.eq_nil_or_concat' es with rfl | ⟨es, x, rfl⟩
        · obtain ⟨rfl, single⟩ := List.append_inj' early rfl
          obtain rfl := List.singleton_inj.mp single
          obtain rfl := Option.some.inj (mark'.symm.trans mark)
          exact ⟨[], cs, rfl, ends, later⟩
        · rw [← List.cons_append, ← List.append_assoc] at early
          obtain ⟨rfl, -⟩ := List.append_inj' early rfl
          exact absurd (by simp) (marked (mark?_eq_none_of_finish? ends))

/-- A text that starts inside of a token has a token. -/
theorem ne_nil_of_scanFrom (plain : mode.Plain) (inside : mode ≠ .between)
    (scanned : scanFrom mode cs = some ts) : ts ≠ [] := by
  induction cs generalizing mode ts with
  | nil =>
    obtain ⟨between, -⟩ | ⟨n, rfl⟩ := finish?_cases scanned
    · exact absurd between inside
    · exact List.cons_ne_nil _ _
  | cons c cs ih =>
    rw [scanFrom_cons] at scanned
    obtain ⟨s, step, scanned⟩ := Option.bind_eq_some_iff.mp scanned
    obtain ⟨more, later, rfl⟩ := Option.map_eq_some_iff.mp scanned
    have move := move_of_step plain step
    cases move with
    | stays plain goesOn => exact ih plain (goesOn inside) later
    | ends | marks => simp

/-- Only blanks leave the scanner as it was. -/
theorem begin?_start_iff : start.begin? c = some start ↔ c ∈ blanks := by
  unfold begin?
  split
  case h_17 c _ _ _ _ _ _ _ _ _ _ _ _ _ _ _ _ =>
    refine iff_of_false ?_ ?_
    · split <;> simp [start]
    · simp_all [blanks]
  all_goals simp [start, blanks, emit]

end Scanner

namespace Token

variable {t : Token} {ts ts' : List Token} {cs front rest : List Char} {c : Char}

/-- **Two texts are put together around a bracket or a separator.** -/
theorem scan_append_mark (before : scan front = some ts) (mark : t.mark? = some c)
    (after : scan rest = some ts') : scan (front ++ c :: rest) = some (ts ++ t :: ts') := by
  obtain ⟨s, run, ends⟩ := Option.bind_eq_some_iff.mp before
  obtain ⟨s', run', ends'⟩ := Option.bind_eq_some_iff.mp after
  rw [scan, Scanner.run_append, run, Option.bind_some, Scanner.run_cons,
    Scanner.step_of_mark ends mark, Option.bind_some]
  show ((Scanner.start.behind (t :: ts.reverse)).run rest).bind _ = _
  rw [Scanner.run_behind, run', Option.map_some, Option.bind_some, Scanner.finish?_behind, ends']
  simp

/-- A text is split at a bracket or a separator. -/
theorem exists_of_scan_eq_append (mark : t.mark? = some c)
    (scanned : scan cs = some (ts ++ t :: ts')) :
    ∃ front rest, cs = front ++ c :: rest ∧ scan front = some ts ∧ scan rest = some ts' := by
  have between : ScanMode.between.Plain := trivial
  exact Scanner.exists_of_scanFrom_eq_append between mark scanned

/-- **The texts without tokens are the blank ones.** -/
theorem scan_eq_nil_iff : scan cs = some [] ↔ ∀ c ∈ cs, c ∈ blanks := by
  induction cs with
  | nil => exact iff_of_true rfl (List.forall_mem_nil _)
  | cons c cs ih =>
    rw [List.forall_mem_cons, ← ih, ← Scanner.begin?_start_iff]
    show Scanner.scanFrom .between (c :: cs) = _ ↔ _
    rw [Scanner.scanFrom_cons]
    constructor
    · -- The first character neither ends a token nor begins one, so the scanner is where it was.
      intro scanned
      obtain ⟨s, begins, scanned⟩ := Option.bind_eq_some_iff.mp scanned
      obtain ⟨more, later, whole⟩ := Option.map_eq_some_iff.mp scanned
      obtain ⟨none, rfl⟩ := List.append_eq_nil_iff.mp whole
      have plain : ScanMode.between.Plain := trivial
      have move := Scanner.move_of_step plain begins
      have between : s.mode = .between := by
        by_contra inside
        exact Scanner.ne_nil_of_scanFrom move.plain inside later rfl
      have same : s = Scanner.start := by
        obtain ⟨tokens, mode⟩ := s
        obtain rfl : mode = .between := between
        obtain rfl : tokens = [] := List.reverse_eq_nil_iff.mp none
        rfl
      rw [same] at begins later
      exact ⟨begins, later⟩
    · rintro ⟨begins, later⟩
      have step : Scanner.step ⟨[], .between⟩ c = some Scanner.start := begins
      rw [step, Option.bind_some]
      show (scan cs).map _ = _
      rw [later]
      rfl

/-- A text whose first token is a bracket or a separator has blanks in front of it. -/
theorem exists_of_scan_eq_cons (mark : t.mark? = some c) (scanned : scan cs = some (t :: ts')) :
    ∃ front rest, cs = front ++ c :: rest ∧ (∀ c ∈ front, c ∈ blanks) ∧ scan rest = some ts' := by
  have scanned : scan cs = some ([] ++ t :: ts') := scanned
  obtain ⟨front, rest, rfl, blank, later⟩ := exists_of_scan_eq_append mark scanned
  exact ⟨front, rest, rfl, scan_eq_nil_iff.mp blank, later⟩

/-- Blanks in front of a text do not count. -/
theorem scan_blanks_append (blank : ∀ c ∈ front, c ∈ blanks) (cs : List Char) :
    scan (front ++ cs) = scan cs := by
  induction front with
  | nil => rfl
  | cons c front ih =>
    rw [List.forall_mem_cons] at blank
    have same : Scanner.start.step c = some Scanner.start := Scanner.begin?_start_iff.mpr blank.1
    rw [List.cons_append, scan, Scanner.run_cons, same, Option.bind_some]
    exact ih blank.2

end Token

end SessionDirectory.Json
